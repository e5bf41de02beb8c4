import Mathlib.Data.Option.Basic
import TradingStrategy.Calendar.Reader
import TradingStrategy.Proofs.Text.Blanks

/-!
Written times of day.

Owns:
- `WritesField`: fields of one or two digits, which may have blanks in front;
- `WritesTime`: the texts that stand for a time of day, and that the reader reads exactly these.

A text has either two fields or three, so at most one of the two forms fits it.
-/

namespace TradingStrategy.Calendar

open Number (digitsValue)
open Text (Ends ends_cons ends_nil exists_blanks isBlank notBlank_of_isDigit run_append skipBlanks skipBlanks_blanks
  skipBlanks_of_ends)

/-- Characters that write a number: one digit or two, behind any blanks. -/
inductive WritesField : List Char → Nat → Prop where
  | mk {blanks digits : List Char} (blank : ∀ c ∈ blanks, isBlank c = true) (some : digits ≠ [])
      (short : digits.length ≤ 2) (areDigits : ∀ c ∈ digits, c.isDigit = true) :
      WritesField (blanks ++ digits) (digitsValue digits)

/-- Characters that write a time of day: the hour and the minute, or these and the second, with colons between them. The
second 60 is a leap second. -/
inductive WritesTime : List Char → TimeOfDay → Prop where
  | minute {first second : List Char} {hour minute : Nat} (isHour : WritesField first hour) (hourRange : hour ≤ 23)
      (isMinute : WritesField second minute) (minuteRange : minute ≤ 59) :
      WritesTime (first ++ ':' :: second) (.ofClock hour minute 0)
  | second {first second third : List Char} {hour minute last : Nat} (isHour : WritesField first hour)
      (hourRange : hour ≤ 23) (isMinute : WritesField second minute) (minuteRange : minute ≤ 59)
      (isSecond : WritesField third last) (secondRange : last ≤ 59) :
      WritesTime (first ++ ':' :: (second ++ ':' :: third)) (.ofClock hour minute last)
  | leap {first second third : List Char} {hour minute : Nat} (isHour : WritesField first hour) (hourRange : hour ≤ 23)
      (isMinute : WritesField second minute) (minuteRange : minute ≤ 59) (isSecond : WritesField third 60) :
      WritesTime (first ++ ':' :: (second ++ ':' :: third)) ⟨hour * 3600 + minute * 60 + 59, nanosPerSecond⟩

/-! ### Fields -/

variable {chars field rest : List Char} {n : Nat}

theorem upTo?_digits {digits : List Char} (some : digits ≠ []) (short : digits.length ≤ 2)
    (areDigits : ∀ c ∈ digits, c.isDigit = true) (ends : Ends Char.isDigit rest) :
    upTo? 2 (digits ++ rest) = .some (digitsValue digits, rest) := by
  have run : ((digits ++ rest).take 2).takeWhile Char.isDigit = digits := by
    rw [List.take_append, List.take_of_length_le short]
    apply (run_append areDigits _).1
    -- What is taken of the rest starts as the rest does, if anything is taken of it.
    intro c isHead
    apply ends c
    rw [Option.mem_def, List.head?_take] at isHead
    split at isHead
    · contradiction
    · exact isHead
  rw [upTo?, run, if_neg some, List.drop_left]

theorem upTo?_field (written : WritesField field n) (ends : Ends Char.isDigit rest) :
    upTo? 2 (skipBlanks (field ++ rest)) = some (n, rest) := by
  obtain ⟨blank, some, short, areDigits⟩ := written
  rename_i blanks digits
  have notBlank : Ends isBlank (digits ++ rest) := by
    obtain ⟨first, others, rfl⟩ := List.exists_cons_of_ne_nil some
    exact (ends_cons ..).mpr (notBlank_of_isDigit (areDigits first List.mem_cons_self))
  rw [List.append_assoc, skipBlanks_blanks blank, skipBlanks_of_ends notBlank]
  exact upTo?_digits some short areDigits ends

theorem field_of_upTo? (read : upTo? 2 (skipBlanks chars) = some (n, rest)) :
    ∃ field, chars = field ++ rest ∧ WritesField field n := by
  obtain ⟨blanks, blank, whole⟩ := exists_blanks chars
  generalize skipBlanks chars = visible at read whole
  generalize isRun : (visible.take 2).takeWhile Char.isDigit = run at read
  rw [upTo?, isRun] at read
  split at read
  · contradiction
  · next nonempty =>
    have front : run <+: visible.take 2 := isRun ▸ List.takeWhile_prefix Char.isDigit
    have short : run.length ≤ 2 := Nat.le_trans front.length_le (List.length_take_le 2 visible)
    have areDigits : ∀ c ∈ run, c.isDigit = true := by
      intro c member
      rw [← isRun] at member
      exact List.all_eq_true.mp List.all_takeWhile c member
    obtain ⟨rfl, rfl⟩ := Prod.mk.inj (Option.some.inj read)
    refine ⟨blanks ++ run, ?_, .mk blank nonempty short areDigits⟩
    rw [List.append_assoc, List.prefix_iff_eq_append.mp (front.trans (List.take_prefix 2 visible)), ← whole]

/-! ### Forms -/

section
variable {part : Part} {parts : List Part} {fields result : Fields} (put : Fields → Nat → Fields)

/-- A part that is a field is read as such, in front of what does not go on with a digit. -/
theorem readParts_field
    (reads : ∀ fields chars, readPart fields chars part =
      (upTo? 2 (skipBlanks chars)).map fun (n, rest) => (put fields n, rest))
    (written : WritesField field n) (ends : Ends Char.isDigit rest) :
    readParts (part :: parts) fields (field ++ rest) = readParts parts (put fields n) rest := by
  rw [readParts, reads, upTo?_field written ends]
  rfl

theorem readParts_mark (c : Char) : readParts (.mark c :: parts) fields (c :: rest) = readParts parts fields rest := by
  simp [readParts, readPart, after?]

theorem field_of_readParts
    (reads : ∀ fields chars, readPart fields chars part =
      (upTo? 2 (skipBlanks chars)).map fun (n, rest) => (put fields n, rest))
    (read : readParts (part :: parts) fields chars = some result) :
    ∃ field n rest, chars = field ++ rest ∧ WritesField field n ∧
      readParts parts (put fields n) rest = some result := by
  rw [readParts, reads] at read
  cases isRead : upTo? 2 (skipBlanks chars) with
  | none =>
    rw [isRead] at read
    contradiction
  | some found =>
    rw [isRead] at read
    obtain ⟨field, whole, written⟩ := field_of_upTo? isRead
    exact ⟨field, found.1, found.2, whole, written, read⟩

theorem mark_of_readParts {c : Char} (read : readParts (.mark c :: parts) fields chars = some result) :
    ∃ rest, chars = c :: rest ∧ readParts parts fields rest = some result := by
  cases chars with
  | nil => simp [readParts, readPart, after?] at read
  | cons head rest =>
    by_cases same : head = c
    · rw [same, readParts_mark] at read
      exact ⟨rest, by rw [same], read⟩
    · simp [readParts, readPart, after?, same] at read

theorem nothing_of_readParts (read : readParts [] fields chars = some result) : chars = [] ∧ fields = result := by
  rw [readParts] at read
  split at read
  · next empty => exact ⟨empty, Option.some.inj read⟩
  · contradiction

end

/-- The fields of a time. -/
def clockFields (hour minute second : Nat) : Fields :=
  { Fields.blank with hour := hour, minute := minute, second := second }

section
variable {parts : List Part} {result : Fields} {first second third : List Char} {hour minute last : Nat}

theorem readParts_front (isHour : WritesField first hour) (isMinute : WritesField second minute)
    (ends : Ends Char.isDigit rest) :
    readParts (minuteParts ++ parts) .blank (first ++ ':' :: (second ++ rest)) =
      readParts parts (clockFields hour minute 0) rest := by
  have colon : Ends Char.isDigit (':' :: (second ++ rest)) := by simp
  rw [minuteParts, List.cons_append, readParts_field (fun fields n => { fields with hour := n }) (fun _ _ => rfl) isHour
    colon, List.cons_append, readParts_mark, List.cons_append,
    readParts_field (fun fields n => { fields with minute := n }) (fun _ _ => rfl) isMinute ends]
  rfl

theorem front_of_readParts (read : readParts (minuteParts ++ parts) .blank chars = some result) :
    ∃ first second hour minute rest, WritesField first hour ∧ WritesField second minute ∧
      chars = first ++ ':' :: (second ++ rest) ∧ readParts parts (clockFields hour minute 0) rest = some result := by
  obtain ⟨first, hour, afterHour, rfl, isHour, read⟩ :=
    field_of_readParts (fun fields n => { fields with hour := n }) (fun _ _ => rfl) read
  obtain ⟨afterColon, rfl, readMinute⟩ := mark_of_readParts read
  obtain ⟨second, minute, rest, rfl, isMinute, readRest⟩ :=
    field_of_readParts (fun fields n => { fields with minute := n }) (fun _ _ => rfl) readMinute
  exact ⟨first, second, hour, minute, rest, isHour, isMinute, rfl, readRest⟩

theorem readParts_minutes (isHour : WritesField first hour) (isMinute : WritesField second minute) :
    readParts minuteParts .blank (first ++ ':' :: second) = some (clockFields hour minute 0) := by
  have read : readParts (minuteParts ++ []) .blank (first ++ ':' :: (second ++ [])) =
      readParts [] (clockFields hour minute 0) [] := readParts_front isHour isMinute (ends_nil _)
  rwa [List.append_nil, List.append_nil] at read

/-- What has a second is no time to the minute. -/
theorem readParts_seconds (isHour : WritesField first hour) (isMinute : WritesField second minute)
    (isSecond : WritesField third last) :
    readParts minuteParts .blank (first ++ ':' :: (second ++ ':' :: third)) = none ∧
      readParts secondParts .blank (first ++ ':' :: (second ++ ':' :: third)) = some (clockFields hour minute last) := by
  have colon : Ends Char.isDigit (':' :: third) := by simp
  constructor
  · have read : readParts (minuteParts ++ []) .blank (first ++ ':' :: (second ++ ':' :: third)) =
        readParts [] (clockFields hour minute 0) (':' :: third) := readParts_front isHour isMinute colon
    rw [List.append_nil] at read
    rw [read]
    simp [readParts]
  · have read : readParts [.second] (clockFields hour minute 0) (third ++ []) =
        readParts [] (clockFields hour minute last) [] :=
      readParts_field (fun fields n => { fields with second := n }) (fun _ _ => rfl) isSecond (ends_nil _)
    rw [List.append_nil] at read
    rw [secondParts, readParts_front isHour isMinute colon, readParts_mark, read]
    rfl

end

/-- The reader reads exactly what is written for a time. -/
theorem parseTimeOfDay?_eq_some {text : String} {time : TimeOfDay} :
    parseTimeOfDay? text = some time ↔ WritesTime text.toList time := by
  constructor
  · intro read
    unfold parseTimeOfDay? at read
    obtain ⟨fields, areFields, read⟩ := Option.bind_eq_some_iff.mp read
    split at read
    · next ranges =>
      obtain ⟨hourRange, minuteRange, secondRange⟩ := ranges
      rcases (Option.orElse_eq_some ..).mp areFields with toMinute | ⟨-, toSecond⟩
      · rw [← List.append_nil minuteParts] at toMinute
        obtain ⟨first, second, hour, minute, rest, isHour, isMinute, whole, ended⟩ := front_of_readParts toMinute
        obtain ⟨rfl, rfl⟩ := nothing_of_readParts ended
        rw [if_neg (by simp [clockFields, Fields.blank])] at read
        rw [whole, List.append_nil, ← Option.some.inj read]
        exact .minute isHour hourRange isMinute minuteRange
      · obtain ⟨first, second, hour, minute, rest, isHour, isMinute, whole, behind⟩ := front_of_readParts toSecond
        obtain ⟨afterColon, rfl, third⟩ := mark_of_readParts behind
        obtain ⟨third, last, rest, rfl, isSecond, ended⟩ :=
          field_of_readParts (fun fields n => { fields with second := n }) (fun _ _ => rfl) third
        obtain ⟨rfl, rfl⟩ := nothing_of_readParts ended
        rw [whole, List.append_nil]
        split at read
        · next isLeap =>
          rw [← Option.some.inj read]
          exact .leap isHour hourRange isMinute minuteRange (isLeap ▸ isSecond)
        · next notLeap =>
          have below : last ≤ 59 := Nat.le_of_lt_succ (Nat.lt_of_le_of_ne secondRange notLeap)
          rw [← Option.some.inj read]
          exact .second isHour hourRange isMinute minuteRange isSecond below
    · contradiction
  · intro written
    unfold parseTimeOfDay?
    generalize text.toList = chars at written
    cases written with
    | minute isHour hourRange isMinute minuteRange =>
      rw [readParts_minutes isHour isMinute]
      simp [clockFields, Fields.blank, hourRange, minuteRange]
    | second isHour hourRange isMinute minuteRange isSecond secondRange =>
      obtain ⟨notMinute, isRead⟩ := readParts_seconds isHour isMinute isSecond
      rw [notMinute, isRead]
      simp [clockFields, Fields.blank, hourRange, minuteRange]
      omega
    | leap isHour hourRange isMinute minuteRange isSecond =>
      obtain ⟨notMinute, isRead⟩ := readParts_seconds isHour isMinute isSecond
      rw [notMinute, isRead]
      simp [clockFields, Fields.blank, hourRange, minuteRange]

end TradingStrategy.Calendar
