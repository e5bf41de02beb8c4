import TradingStrategy.Calendar.Instant

/-!
Regular trading hours.

Owns: the daily window in which a strategy that is restricted to regular hours looks at bars, and the local time by which
it is decided.
-/

namespace TradingStrategy

/-- A daily window in the local time of an exchange, which is a fixed number of minutes ahead of UTC. -/
structure TradingSession where
  offsetMinutes : Int
  opening : Calendar.TimeOfDay
  closing : Calendar.TimeOfDay
deriving Repr, DecidableEq

namespace TradingSession

/-- From 09:30 to 16:00, five hours behind UTC. -/
def regular : TradingSession :=
  ⟨-300, .ofClock 9 30 0, .ofClock 16 0 0⟩

/-- The time of day on the clock of the exchange. There is none where the shift leaves the range of instants. -/
def localTime? (session : TradingSession) (t : Calendar.Instant) : Option Calendar.TimeOfDay :=
  (t.shiftMinutes? session.offsetMinutes).map Calendar.Instant.timeOfDay

/-- The instant has a local time in the window; the start of the window belongs to it, its end does not. -/
def contains (session : TradingSession) (t : Calendar.Instant) : Bool :=
  match session.localTime? t with
  | some time => !time.before session.opening && time.before session.closing
  | none => false

end TradingSession

end TradingStrategy
