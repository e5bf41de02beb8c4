import TradingStrategy.Calendar.Instant

/-!
The order of instants.

Owns: that instants are strictly ordered by `before`, and linearly by `notAfter`.
-/

namespace TradingStrategy.Calendar.Instant

variable {a b c : Instant}

theorem before_iff : a.before b = true ↔ a.seconds < b.seconds ∨ a.seconds = b.seconds ∧ a.nanos < b.nanos := by
  simp [before]

theorem before_irrefl (a : Instant) : a.before a = false := by
  rw [Bool.eq_false_iff, ne_eq, before_iff]
  omega

theorem before_asymm (earlier : a.before b = true) : b.before a = false := by
  rw [Bool.eq_false_iff, ne_eq]
  rw [before_iff] at *
  omega

theorem notBefore_trans (first : a.before b = false) (second : b.before c = false) : a.before c = false := by
  rw [Bool.eq_false_iff, ne_eq, before_iff] at *
  omega

theorem notAfter_refl (a : Instant) : a.notAfter a = true := by
  rw [notAfter, before_irrefl]
  rfl

theorem notAfter_of_before (earlier : a.before b = true) : a.notAfter b = true := by
  rw [notAfter, before_asymm earlier]
  rfl

theorem before_of_notAfter (notLater : a.notAfter b = true) (earlier : b.before c = true) : a.before c = true := by
  rw [notAfter, Bool.not_eq_true', Bool.eq_false_iff, ne_eq, before_iff] at notLater
  rw [before_iff] at earlier ⊢
  omega

/-- Two instants of which none is later are one. -/
theorem eq_of_notAfter (first : a.notAfter b = true) (second : b.notAfter a = true) : a = b := by
  obtain ⟨seconds, nanos⟩ := a
  obtain ⟨otherSeconds, otherNanos⟩ := b
  rw [notAfter, Bool.not_eq_true', Bool.eq_false_iff, ne_eq, before_iff] at first second
  rw [Instant.mk.injEq]
  dsimp only at first second
  omega

/-- Of two instants that are in order, the first is earlier unless both are one. -/
theorem before_eq_false_iff_eq (notLater : a.notAfter b = true) : a.before b = false ↔ a = b := by
  constructor
  · intro notBefore
    exact eq_of_notAfter notLater (by rw [notAfter, notBefore, Bool.not_false])
  · rintro rfl
    exact before_irrefl a

end TradingStrategy.Calendar.Instant
