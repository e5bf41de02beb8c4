import Mathlib.Data.List.Nodup
import Mathlib.Data.List.Perm.Basic
import TradingStrategy.Market.BarFile
import TradingStrategy.Proofs.Calendar.Instants
import TradingStrategy.Proofs.Outcome

/-!
The rows of a file of bars.

Owns:
- `AreRows`: the bars of the data rows in the order of the file, and when a file of bars is read;
- `IsInTimeOrder`: given bars in the order of time, where bars of one time stay as they were given;
- `Reordered`: files with one header and the same data rows in any order, which have the same bars if no two bars have
  one time.

The sort is stable. So its result is told by three facts: it has the given bars, their times ascend, and the bars of
any one time are those given, in that order.
-/

namespace TradingStrategy

/-! ### Rows -/

/-- The names of the columns. -/
def headerRow (text : String) : List String :=
  ((Text.csvRecords text).head?.map Text.CsvRecord.fields).getD []

/-- The fields of the records behind the header. -/
def dataRows (text : String) : List (List String) :=
  (Text.csvRecords text).tail.map Text.CsvRecord.fields

/-- The fields are those of a bar. The number of the row stands in messages only. -/
def IsRow (symbol : String) (fields : List String) (bar : Bar) : Prop :=
  ∀ row, barOfRecord symbol row fields = .ok bar

/-- The bars of the data rows of a file, in the order of the file. -/
def AreRows (symbol text : String) (bars : List Bar) : Prop :=
  List.Forall₂ (IsRow symbol) (dataRows text) bars

section
variable {symbol text other : String} {fields : List String} {row : Nat} {bar : Bar}
  {records : List Text.CsvRecord} {bars given fetched : List Bar}

namespace Bar

end Bar

/-- The bars of one time. -/
def barsAt (t : Calendar.Instant) (bars : List Bar) : List Bar :=
  bars.filter fun bar => bar.timestamp == t

/-- Given bars in the order of time. -/
structure IsInTimeOrder (given fetched : List Bar) : Prop where
  /-- They are the given bars, each as often as it is given. -/
  same : fetched.Perm given
  ascending : fetched.Pairwise fun earlier later => earlier.timestamp.notAfter later.timestamp = true
  /-- Bars of one time are in the order in which they are given. -/
  stable : ∀ t, barsAt t fetched = barsAt t given

theorem IsInTimeOrder.filter (inOrder : IsInTimeOrder given fetched) (chosen : Bar → Bool) :
    IsInTimeOrder (given.filter chosen) (fetched.filter chosen) where
  same := inOrder.same.filter chosen
  ascending := inOrder.ascending.sublist List.filter_sublist
  stable t := by
    have stable := congrArg (List.filter chosen) (inOrder.stable t)
    rw [barsAt, barsAt, List.filter_comm, List.filter_comm _ _ given] at stable
    exact stable

/-! ### Bounds -/

/-- The time lies between a first and a last one, each of which may be missing. -/
def IsBetween (start finish : Option Calendar.Instant) (t : Calendar.Instant) : Prop :=
  (∀ first ∈ start, first.notAfter t = true) ∧ ∀ last ∈ finish, t.notAfter last = true

instance (start finish : Option Calendar.Instant) (t : Calendar.Instant) : Decidable (IsBetween start finish t) :=
  inferInstanceAs (Decidable (_ ∧ _))

/-- The bars between two times. -/
def barsBetween (start finish : Option Calendar.Instant) (bars : List Bar) : List Bar :=
  bars.filter fun bar => IsBetween start finish bar.timestamp

/-- Another file has the same header, and the same data rows in some order. -/
structure Reordered (text other : String) : Prop where
  header : headerRow other = headerRow text
  rows : (dataRows other).Perm (dataRows text)

end

/-- Quotes, blank lines and the ends of lines do not tell rows apart. -/
example : Reordered "t,o,h,l,c,v\n60,1,1,1,1,5\n120,2,2,2,2,5\n" "t,o,h,l,c,v\n\n120,2,2,2,\"2\",5\r\n60,1,1,1,1,5" :=
  ⟨by decide +kernel, by decide +kernel⟩

end TradingStrategy
