import Mathlib.Algebra.Ring.Nat
import TradingStrategy.Proofs.Expr.Positions

/-!
The caret under a fault.

Owns:
- `drift`: by how much the bytes of readable characters exceed their number;
- `inContext_lines`: an error in its context has the text, the caret and the message on lines of their own;
- `caret_stands_under_fault_iff`: the column of the caret, and that it is the one of the fault exactly if no blank of
  several bytes is in front.

The caret stands behind as many spaces as there are bytes in front of the fault. The readers get past ASCII characters
and blanks only, so that the blanks in front are all that tells these bytes from columns.
-/

namespace TradingStrategy.Expr

/-! ### Bytes and columns -/

theorem utf8Size_eq_one {c : Char} : c.utf8Size = 1 ↔ c.toNat < 128 := by
  rw [Char.utf8Size_eq_one_iff, UInt32.le_iff_toNat_le]
  exact Nat.lt_succ_iff.symm

/-- How far the byte behind characters is to the right of their column: by the bytes of their blanks beyond the first of
each. -/
def drift (front : List Char) : Nat :=
  ((front.filter Text.isBlank).map fun c => c.utf8Size - 1).sum

theorem drift_eq_zero_iff {front : List Char} :
    drift front = 0 ↔ ∀ c ∈ front, Text.isBlank c = true → c.toNat < 128 := by
  simp only [drift, List.sum_eq_zero_iff_forall_eq_nat, List.forall_mem_map, List.mem_filter, and_imp]
  refine forall₂_congr fun c _ => imp_congr_right fun _ => ?_
  have positive := c.utf8Size_pos
  rw [← utf8Size_eq_one]
  omega

theorem byteLength_readable {front : List Char} (readable : ∀ c ∈ front, isReadable c = true) :
    byteLength front = front.length + drift front := by
  induction front with
  | nil => rfl
  | cons c tail inductionHypothesis =>
    obtain ⟨first, others⟩ := List.forall_mem_cons.mp readable
    have bytes : byteLength (c :: tail) = c.utf8Size + byteLength tail := rfl
    rw [bytes, inductionHypothesis others, List.length_cons]
    cases blank : Text.isBlank c with
    | true =>
      have positive := c.utf8Size_pos
      have more : drift (c :: tail) = c.utf8Size - 1 + drift tail := by
        rw [drift, List.filter_cons_of_pos blank, List.map_cons, List.sum_cons, drift]
      omega
    | false =>
      have ascii : c.utf8Size = 1 := by
        rw [isReadable, blank, Bool.or_false, decide_eq_true_eq] at first
        exact utf8Size_eq_one.mpr first
      have same : drift (c :: tail) = drift tail := by
        rw [drift, List.filter_cons_of_neg (by simp [blank]), drift]
      omega

theorem utf8ByteSize_readable {front : String} (readable : ∀ c ∈ front.toList, isReadable c = true) :
    front.utf8ByteSize = front.length + drift front.toList := by
  rw [← String.length_toList, ← byteLength_readable readable, byteLength_eq, String.ofList_toList]

/-- What is in front of the cursor is what the readers got past. -/
theorem Remains.exists_front {text : String} {rest : List Char} {position : Nat} (remains : Remains rest text.toList)
    (here : from? text.toList position = some rest) :
    ∃ front : String, text = front ++ String.ofList rest ∧ front.utf8ByteSize = position ∧
      ∀ c ∈ front.toList, isReadable c = true := by
  obtain ⟨front, split, size⟩ := Expr.exists_front here
  obtain ⟨readers, chars, readable⟩ := remains
  refine ⟨front, split, size, ?_⟩
  have same : readers ++ rest = front.toList ++ rest := by
    rw [chars, split, String.toList_append, String.toList_ofList]
  rwa [List.append_cancel_right same] at readable

/-! ### The line of the caret -/

/-- A caret behind as many spaces as its column says. -/
def caretLine (column : Nat) : List Char :=
  List.replicate column ' ' ++ ['^']

theorem caretLine_inj {column other : Nat} : caretLine column = caretLine other ↔ column = other := by
  constructor
  · intro same
    simpa [caretLine] using congrArg List.length same
  · exact congrArg caretLine

/-- The lines on which an error is shown in its context. -/
def ParseError.contextLines (error : ParseError) (text : String) : List (List Char) :=
  (error.inContext text).toList.splitOn '\n'

theorem inContext_lines (error : ParseError) {text : String} (oneLine : '\n' ∉ text.toList) :
    error.contextLines text = text.toList :: caretLine error.position :: error.message.toList.splitOn '\n' := by
  have shown : (error.inContext text).toList =
      text.toList ++ '\n' :: (caretLine error.position ++ '\n' :: error.message.toList) := by
    simp [ParseError.inContext, caretLine]
  have noBreak : '\n' ∉ caretLine error.position := by
    simp [caretLine]
  rw [ParseError.contextLines, shown, List.splitOn_append_cons_self_of_not_mem oneLine,
    List.splitOn_append_cons_self_of_not_mem noBreak]

/-- A text of one line that is no expression is shown with its error on lines of their own: the text, the caret and the
message. In front of the fault there are ASCII characters and blanks, and behind it is what the error shows of the text.
The caret stands at the column of the fault, moved to the right by the bytes of the blanks in front beyond the first of
each, so that it is under the fault exactly if all blanks in front are ASCII. -/
theorem caret_stands_under_fault_iff {text : String} {error : ParseError} (oneLine : '\n' ∉ text.toList)
    (failed : parse text = .error error) :
    ∃ front behind : String, text = front ++ behind ∧ front.utf8ByteSize = error.position ∧
      error.fragment = fragmentOf behind.toList ∧
      (∀ c ∈ front.toList, c.toNat < 128 ∨ Text.isBlank c = true) ∧
      error.contextLines text =
        text.toList :: caretLine (front.length + drift front.toList) :: error.message.toList.splitOn '\n' ∧
      ((error.contextLines text)[1]? = some (caretLine front.length) ↔
        ∀ c ∈ front.toList, Text.isBlank c = true → c.toNat < 128) := by
  have lines := inContext_lines error oneLine
  obtain ⟨rest, stopped, there, isFragment, -⟩ := parse_eq_error failed
  obtain ⟨front, split, size, readable⟩ := (parseChars_remains stopped).exists_front there
  have column : error.position = front.length + drift front.toList := size.symm.trans (utf8ByteSize_readable readable)
  rw [column] at lines
  refine ⟨front, String.ofList rest, split, size, ?_, ?_, lines, ?_⟩
  · rw [String.toList_ofList]
    exact isFragment
  · intro c inFront
    simpa [isReadable] using readable c inFront
  · rw [lines, ← drift_eq_zero_iff]
    simp [caretLine_inj]

/-- A fault behind blanks of three, two and three bytes. -/
theorem wide_blanks_move_caret : ∃ error, parse "\u3000close\u00A0>\u2003#bad" = .error error ∧
    error.position = 14 ∧ error.fragment = "#" ∧
    ∃ front behind : String, "\u3000close\u00A0>\u2003#bad" = front ++ behind ∧ front.utf8ByteSize = error.position ∧
      error.fragment = fragmentOf behind.toList ∧
      (∀ c ∈ front.toList, c.toNat < 128 ∨ Text.isBlank c = true) ∧
      error.contextLines "\u3000close\u00A0>\u2003#bad" =
        "\u3000close\u00A0>\u2003#bad".toList :: caretLine (front.length + drift front.toList) ::
          error.message.toList.splitOn '\n' ∧
      ((error.contextLines "\u3000close\u00A0>\u2003#bad")[1]? = some (caretLine front.length) ↔
        ∀ c ∈ front.toList, Text.isBlank c = true → c.toNat < 128) := by
  have located : (match parse "\u3000close\u00A0>\u2003#bad" with
      | .ok _ => false
      | .error error => error.position == 14 && error.fragment == "#") = true := by decide +kernel
  match read : parse "\u3000close\u00A0>\u2003#bad" with
  | .ok _ =>
    rw [read] at located
    contradiction
  | .error error =>
    simp only [read, Bool.and_eq_true, beq_iff_eq] at located
    exact ⟨error, rfl, located.1, located.2, caret_stands_under_fault_iff (by decide) read⟩

/-- The caret under a fault behind a no-break space stands one column to the right of it: nine bytes are in front, and
eight characters. -/
theorem caret_misses_fault : ∃ error, parse "close >\u00A0#bad" = .error error ∧
    '\n' ∉ "close >\u00A0#bad".toList ∧ "close >\u00A0#bad" = "close >\u00A0" ++ "#bad" ∧
    "close >\u00A0".utf8ByteSize = error.position ∧ "close >\u00A0".length = 8 ∧
    (error.contextLines "close >\u00A0#bad")[1]? = some (caretLine 9) ∧
    (error.contextLines "close >\u00A0#bad")[1]? ≠ some (caretLine "close >\u00A0".length) := by
  have oneLine : '\n' ∉ "close >\u00A0#bad".toList := by decide
  have located : (match parse "close >\u00A0#bad" with
      | .ok _ => false
      | .error error => error.position == 9) = true := by decide +kernel
  match read : parse "close >\u00A0#bad" with
  | .ok _ =>
    rw [read] at located
    contradiction
  | .error error =>
    simp only [read, beq_iff_eq] at located
    have second : (error.contextLines "close >\u00A0#bad")[1]? = some (caretLine 9) := by
      rw [inContext_lines error oneLine, located]
      rfl
    refine ⟨error, rfl, oneLine, by decide, located ▸ by decide, by decide, second, ?_⟩
    rw [second]
    decide

end TradingStrategy.Expr
