import Mathlib.Algebra.Ring.Int.Defs
import TradingStrategy.Proofs.Calendar.Clock
import TradingStrategy.Proofs.Settings.Values

/-!
Settings as they are written.

Owns:
- the check of each kind of value against what is written for it, and what the lenient look-up gives once it has passed;
- that no cast changes a number that has passed its check;
- `Settings.AreValid`, `Settings.IsInOrder` and `Settings.AreWritten`: the values of a file, its session, and the
  settings that it gives;
- `settings_are_as_written`: settings are read exactly if all values are valid and the session is in order, and they are
  what is written.

The check and the look-ups read a value each in its own way. They agree because the values of a file have no blanks
around them, and because the check accepts no value for which a look-up would give the default.
-/

namespace TradingStrategy

open Calendar (TimeOfDay WritesTime)
open Ini (WritesBool intOf? boolOf?)
open Number (WritesWhole)

namespace Settings

variable {ini : Ini} {place key : String}

/-! ### Numbers -/

section
variable {within : Int → Prop} {default : Int}

theorem intOf?_eq_some {raw : String} {n : Int} :
    intOf? raw = some n ↔ WritesWhole raw.toList n ∧ -2 ^ 63 ≤ n ∧ n < 2 ^ 63 := by
  rw [intOf?, Number.parseInt?_eq_some]
  have low : Int64.minValue.toInt = -2 ^ 63 := rfl
  have high : Int64.maxValue.toInt = 2 ^ 63 - 1 := rfl
  rw [low, high, Int.le_sub_one_iff]

/-- The check of a number passes exactly what is written for a number within its bounds. -/
theorem checkNumber_eq_ok (trimmed : ini.IsTrimmed) {isValid : Int → Bool} {fault : SettingFault}
    (bounds : ∀ n, (-2 ^ 63 ≤ n ∧ n < 2 ^ 63) ∧ isValid n = true ↔ within n) :
    checkNumber ini place key isValid fault = .ok () ↔
      ini.IsValid place key fun raw n => WritesWhole raw.toList n ∧ within n := by
  unfold checkNumber Ini.IsValid
  cases found : ini.string? place key with
  | none => simp
  | some raw =>
    have same (n : Int) : WritesWhole raw.toList n ∧ within n ↔ intOf? raw = some n ∧ isValid n = true := by
      rw [intOf?_eq_some, ← bounds]
      simp only [and_assoc]
    simp only [trimmed place key raw found, Option.some.injEq, forall_eq', same]
    cases intOf? raw with
    | none => simp
    | some n => simp

/-- The look-up of a number gives what is written. -/
theorem int_gives (fits : ∀ n, within n → -2 ^ 63 ≤ n ∧ n < 2 ^ 63) (default : Int)
    (valid : ini.IsValid place key fun raw n => WritesWhole raw.toList n ∧ within n) :
    ini.Gives place key (fun raw n => WritesWhole raw.toList n ∧ within n) default (ini.int place key default) := by
  unfold Ini.Gives Ini.int
  cases found : ini.string? place key with
  | none => rfl
  | some raw =>
    obtain ⟨n, written, inside⟩ := valid raw found
    have isRead : intOf? raw = some n := intOf?_eq_some.mpr ⟨written, fits n inside⟩
    rw [Option.bind_some, isRead, Option.getD_some]
    exact ⟨written, inside⟩

/-- The bits of a natural number are the number. -/
theorem unsigned_eq {n : Int} (low : 0 ≤ n) (high : n < 2 ^ 63) : (unsigned n : Int) = n := by
  rw [unsigned, BitVec.toNat_ofInt, Int.toNat_of_nonneg (Int.emod_nonneg n (by decide))]
  exact Int.emod_eq_of_lt low (by omega)

theorem narrowed_eq {n : Int} (low : -2 ^ 31 ≤ n) (high : n < 2 ^ 31) : narrowed n = n := by
  rw [narrowed, BitVec.toInt_ofInt]
  exact Int.bmod_eq_of_le (by omega) (by omega)

/-- No cast changes a natural number that is valid. -/
theorem unsigned_gives (fits : ∀ n, within n → 0 ≤ n ∧ n < 2 ^ 63) (byDefault : within default)
    (valid : ini.IsValid place key fun raw n => WritesWhole raw.toList n ∧ within n) :
    ini.Gives place key (fun raw n => WritesWhole raw.toList n) default (unsigned (ini.int place key default) : Int) := by
  have gives := int_gives (fun n inside => ⟨by have := fits n inside; omega, (fits n inside).2⟩) default valid
  obtain ⟨low, high⟩ := fits _ (gives.holds byDefault fun _ written => written.2)
  rw [unsigned_eq low high]
  exact gives.imp fun _ written => written.1

/-- Nor does one change a number that is valid and short. -/
theorem narrowed_gives (fits : ∀ n, within n → -2 ^ 31 ≤ n ∧ n < 2 ^ 31) (byDefault : within default)
    (valid : ini.IsValid place key fun raw n => WritesWhole raw.toList n ∧ within n) :
    ini.Gives place key (fun raw n => WritesWhole raw.toList n) default (narrowed (ini.int place key default)) := by
  have gives := int_gives (fun n inside => by have := fits n inside; omega) default valid
  obtain ⟨low, high⟩ := fits _ (gives.holds byDefault fun _ written => written.2)
  rw [narrowed_eq low high]
  exact gives.imp fun _ written => written.1

end

/-! ### Booleans, times and levels -/

theorem checkBoolean_eq_ok (trimmed : ini.IsTrimmed) :
    checkBoolean ini place key = .ok () ↔ ini.IsValid place key WritesBool := by
  unfold checkBoolean Ini.IsValid
  cases found : ini.string? place key with
  | none => simp
  | some raw =>
    simp only [trimmed place key raw found, Option.some.injEq, forall_eq', ← Ini.booleanWords_iff]
    cases booleanWords.contains (Text.lower raw) <;> simp

theorem bool_gives (trimmed : ini.IsTrimmed) (default : Bool) (valid : ini.IsValid place key WritesBool) :
    ini.Gives place key WritesBool default (ini.bool place key default) := by
  unfold Ini.Gives Ini.bool
  cases found : ini.string? place key with
  | none => rfl
  | some raw =>
    obtain ⟨value, written⟩ := valid raw found
    have isRead : boolOf? raw = some value := by
      rw [Ini.boolOf?_eq_some, trimmed place key raw found]
      exact written
    rw [Option.bind_some, isRead, Option.getD_some]
    exact written

/-- A text writes a time of day. -/
def WritesClock (raw : String) (time : TimeOfDay) : Prop :=
  WritesTime raw.toList time

theorem time_eq_ok (trimmed : ini.IsTrimmed) {default value : TimeOfDay} :
    time ini key default = .ok value ↔ ini.Gives "session" key WritesClock default value := by
  unfold time Ini.time? Ini.Gives WritesClock
  cases found : ini.string? "session" key with
  | none => simp [eq_comm]
  | some raw =>
    simp only [trimmed "session" key raw found, ← Calendar.parseTimeOfDay?_eq_some]
    cases Calendar.parseTimeOfDay? raw with
    | none => simp
    | some read => simp

theorem openingTime_eq_ok (trimmed : ini.IsTrimmed) {opening : TimeOfDay} :
    openingTime ini = .ok opening ↔ ini.Gives "session" "rth_start" WritesClock (.ofClock 9 30 0) opening :=
  time_eq_ok trimmed

theorem closingTime_eq_ok (trimmed : ini.IsTrimmed) {closing : TimeOfDay} :
    closingTime ini = .ok closing ↔ ini.Gives "session" "rth_end" WritesClock (.ofClock 16 0 0) closing :=
  time_eq_ok trimmed

/-- A text writes itself as a level if it is not blank. -/
def WritesLevel (raw level : String) : Prop :=
  level = raw ∧ ∃ c ∈ raw.toList, Text.isBlank c = false

theorem checkLevel_eq_ok : checkLevel ini = .ok () ↔ ini.IsValid "logging" "level" WritesLevel := by
  unfold checkLevel Ini.IsValid WritesLevel Text.isBlankText
  cases ini.string? "logging" "level" with
  | none => simp
  | some raw => simp

theorem level_gives (default : String) (valid : ini.IsValid "logging" "level" WritesLevel) :
    ini.Gives "logging" "level" WritesLevel default ((ini.string? "logging" "level").getD default) := by
  unfold Ini.Gives
  cases found : ini.string? "logging" "level" with
  | none => rfl
  | some raw =>
    obtain ⟨level, rfl, visible⟩ := valid raw found
    exact ⟨rfl, visible⟩

/-! ### Files -/

/-- Every value that is there is valid. -/
structure AreValid (ini : Ini) : Prop where
  historyBars : ini.IsValid "engine" "history_bars" fun raw bars => WritesWhole raw.toList bars ∧ 1 ≤ bars ∧ bars ≤ 100
  timeout : ini.IsValid "broker" "timeout_ms" fun raw milliseconds =>
    WritesWhole raw.toList milliseconds ∧ 0 < milliseconds ∧ milliseconds < 2 ^ 63
  openOrdersTtl : ini.IsValid "broker" "open_orders_ttl_ms" fun raw milliseconds =>
    WritesWhole raw.toList milliseconds ∧ 0 ≤ milliseconds ∧ milliseconds < 2 ^ 63
  dryRun : ini.IsValid "broker" "dry_run" WritesBool
  offset : ini.IsValid "session" "utc_offset_minutes" fun raw minutes =>
    WritesWhole raw.toList minutes ∧ -720 ≤ minutes ∧ minutes ≤ 840
  opening : ini.IsValid "session" "rth_start" WritesClock
  closing : ini.IsValid "session" "rth_end" WritesClock
  logLevel : ini.IsValid "logging" "level" WritesLevel

/-- The session that a file gives opens before it closes. -/
def IsInOrder (ini : Ini) : Prop :=
  ∀ opening closing, ini.Gives "session" "rth_start" WritesClock (.ofClock 9 30 0) opening →
    ini.Gives "session" "rth_end" WritesClock (.ofClock 16 0 0) closing → opening.before closing = true

/-- The settings are what is written in a file, and the defaults only where nothing is written. -/
structure AreWritten (ini : Ini) (settings : Settings) : Prop where
  historyBars : ini.Gives "engine" "history_bars" (fun raw n => WritesWhole raw.toList n) (100 : Int) settings.historyBars
  timeout : ini.Gives "broker" "timeout_ms" (fun raw n => WritesWhole raw.toList n) (5000 : Int) settings.timeout
  openOrdersTtl : ini.Gives "broker" "open_orders_ttl_ms" (fun raw n => WritesWhole raw.toList n) (2000 : Int)
    settings.openOrdersTtl
  dryRun : ini.Gives "broker" "dry_run" WritesBool true settings.dryRun
  offset : ini.Gives "session" "utc_offset_minutes" (fun raw n => WritesWhole raw.toList n) (-300)
    settings.session.offsetMinutes
  opening : ini.Gives "session" "rth_start" WritesClock (.ofClock 9 30 0) settings.session.opening
  closing : ini.Gives "session" "rth_end" WritesClock (.ofClock 16 0 0) settings.session.closing
  logLevel : ini.Gives "logging" "level" WritesLevel "info" settings.logLevel

theorem isInOrder_iff {opening closing : TimeOfDay} (trimmed : ini.IsTrimmed) (opens : openingTime ini = .ok opening)
    (closes : closingTime ini = .ok closing) : IsInOrder ini ↔ opening.before closing = true := by
  constructor
  · exact fun inOrder => inOrder opening closing ((openingTime_eq_ok trimmed).mp opens)
      ((closingTime_eq_ok trimmed).mp closes)
  · intro before first last isFirst isLast
    rw [(openingTime_eq_ok trimmed).mpr isFirst] at opens
    rw [(closingTime_eq_ok trimmed).mpr isLast] at closes
    rw [Except.ok.inj opens, Except.ok.inj closes]
    exact before

theorem checkSession_eq_ok (trimmed : ini.IsTrimmed) : checkSession ini = .ok () ↔
    checkNumber ini "session" "utc_offset_minutes" isValidOffset .offset = .ok () ∧
      ini.IsValid "session" "rth_start" WritesClock ∧ ini.IsValid "session" "rth_end" WritesClock ∧ IsInOrder ini := by
  rw [checkSession, then_eq_ok, ← Ini.exists_gives (TimeOfDay.ofClock 9 30 0),
    ← Ini.exists_gives (TimeOfDay.ofClock 16 0 0)]
  apply and_congr_right
  intro _
  constructor
  · intro checked
    obtain ⟨opening, opens, checked⟩ := bind_eq_ok checked
    obtain ⟨closing, closes, checked⟩ := bind_eq_ok checked
    split at checked
    · next before =>
      exact ⟨⟨opening, (openingTime_eq_ok trimmed).mp opens⟩, ⟨closing, (closingTime_eq_ok trimmed).mp closes⟩,
        (isInOrder_iff trimmed opens closes).mpr before⟩
    · contradiction
  · rintro ⟨⟨opening, isOpening⟩, ⟨closing, isClosing⟩, inOrder⟩
    have opens := (openingTime_eq_ok trimmed).mpr isOpening
    have closes := (closingTime_eq_ok trimmed).mpr isClosing
    rw [opens, closes]
    exact if_pos ((isInOrder_iff trimmed opens closes).mp inOrder)

/-- The check passes exactly the files with valid values and a session in order. -/
theorem check_eq_ok (trimmed : ini.IsTrimmed) : check ini = .ok () ↔ AreValid ini ∧ IsInOrder ini := by
  have historyBars (n : Int) : (-2 ^ 63 ≤ n ∧ n < 2 ^ 63) ∧ (1 ≤ n && n ≤ (maxHistory : Int)) = true ↔
      1 ≤ n ∧ n ≤ 100 := by
    have most : (maxHistory : Int) = 100 := rfl
    simp only [Bool.and_eq_true, decide_eq_true_eq]
    omega
  have timeout (n : Int) : (-2 ^ 63 ≤ n ∧ n < 2 ^ 63) ∧ decide (0 < n) = true ↔ 0 < n ∧ n < 2 ^ 63 := by
    simp only [decide_eq_true_eq]
    omega
  have openOrdersTtl (n : Int) : (-2 ^ 63 ≤ n ∧ n < 2 ^ 63) ∧ decide (0 ≤ n) = true ↔ 0 ≤ n ∧ n < 2 ^ 63 := by
    simp only [decide_eq_true_eq]
    omega
  have offset (n : Int) : (-2 ^ 63 ≤ n ∧ n < 2 ^ 63) ∧ isValidOffset n = true ↔ -720 ≤ n ∧ n ≤ 840 := by
    have low : offsetBounds.1 = -720 := rfl
    have high : offsetBounds.2 = 840 := rfl
    simp only [isValidOffset, low, high, Bool.and_eq_true, decide_eq_true_eq]
    omega
  simp only [check, then_eq_ok, checkSession_eq_ok trimmed, checkBoolean_eq_ok trimmed, checkLevel_eq_ok,
    checkNumber_eq_ok trimmed historyBars, checkNumber_eq_ok trimmed timeout, checkNumber_eq_ok trimmed openOrdersTtl,
    checkNumber_eq_ok trimmed offset]
  constructor
  · rintro ⟨isHistory, isTimeout, isTtl, isDryRun, ⟨isOffset, isOpening, isClosing, inOrder⟩, isLevel⟩
    exact ⟨⟨isHistory, isTimeout, isTtl, isDryRun, isOffset, isOpening, isClosing, isLevel⟩, inOrder⟩
  · rintro ⟨⟨isHistory, isTimeout, isTtl, isDryRun, isOffset, isOpening, isClosing, isLevel⟩, inOrder⟩
    exact ⟨isHistory, isTimeout, isTtl, isDryRun, ⟨isOffset, isOpening, isClosing, inOrder⟩, isLevel⟩

/-- What is read of a file that passes its check is what is written in it. -/
theorem ofIni_written {settings : Settings} (trimmed : ini.IsTrimmed) (read : ofIni ini = .ok settings) :
    AreWritten ini settings := by
  obtain ⟨_, checked, read⟩ := bind_eq_ok read
  obtain ⟨opening, opens, read⟩ := bind_eq_ok read
  obtain ⟨closing, closes, read⟩ := bind_eq_ok read
  obtain ⟨valid, -⟩ := (check_eq_ok trimmed).mp checked
  rw [← Except.ok.inj read]
  exact {
    historyBars := unsigned_gives (fun n inside => by omega) (by decide) valid.historyBars
    timeout := unsigned_gives (fun n inside => by omega) (by decide) valid.timeout
    openOrdersTtl := unsigned_gives (fun n inside => by omega) (by decide) valid.openOrdersTtl
    dryRun := bool_gives trimmed true valid.dryRun
    offset := narrowed_gives (fun n inside => by omega) (by decide) valid.offset
    opening := (openingTime_eq_ok trimmed).mp opens
    closing := (closingTime_eq_ok trimmed).mp closes
    logLevel := level_gives "info" valid.logLevel }

/-- Settings are read exactly if the check passes. -/
theorem exists_ofIni (trimmed : ini.IsTrimmed) : (∃ settings, ofIni ini = .ok settings) ↔ check ini = .ok () := by
  constructor
  · rintro ⟨settings, read⟩
    obtain ⟨⟨⟩, checked, -⟩ := bind_eq_ok read
    exact checked
  · intro checked
    obtain ⟨valid, -⟩ := (check_eq_ok trimmed).mp checked
    obtain ⟨opening, isOpening⟩ := (Ini.exists_gives _).mpr valid.opening
    obtain ⟨closing, isClosing⟩ := (Ini.exists_gives _).mpr valid.closing
    rw [ofIni, checked, (openingTime_eq_ok trimmed).mpr isOpening, (closingTime_eq_ok trimmed).mpr isClosing]
    exact ⟨_, rfl⟩

end Settings

/-- Of every file that is read, settings are read exactly if each value that is there is valid and the session opens
before it closes. Then the settings are what is written, and the defaults only where nothing is written. -/
theorem settings_are_as_written {text : String} {ini : Ini} (read : Ini.read text = .ok ini) :
    ((∃ settings, Settings.ofIni ini = .ok settings) ↔ Settings.AreValid ini ∧ Settings.IsInOrder ini) ∧
      ∀ settings, Settings.ofIni ini = .ok settings → Settings.AreWritten ini settings := by
  have trimmed := Ini.read_trimmed read
  exact ⟨(Settings.exists_ofIni trimmed).trans (Settings.check_eq_ok trimmed),
    fun _ isRead => Settings.ofIni_written trimmed isRead⟩

/-- Some settings, in spellings that the readers take. -/
def someSettings : String :=
  "[broker]\ndry_run: Off\nTimeout_ms = +50 ; soon\n[session]\nrth_start = 9: 5\n"

/-- The entries of these settings. -/
def someEntries : Ini :=
  ⟨[⟨"broker", "dry_run", some "Off"⟩, ⟨"broker", "timeout_ms", some "+50"⟩, ⟨"session", "rth_start", some "9: 5"⟩]⟩

theorem some_settings_are_as_written :
    Ini.read someSettings = .ok someEntries ∧ Settings.AreValid someEntries ∧ Settings.IsInOrder someEntries ∧
      ∃ settings, Settings.ofIni someEntries = .ok settings ∧ Settings.AreWritten someEntries settings ∧
        settings = ⟨100, false, 50, 2000, ⟨-300, .ofClock 9 5 0, .ofClock 16 0 0⟩, "info"⟩ := by
  have isIni : ((Ini.read someSettings).toOption.any fun ini => decide (ini = someEntries)) = true := by
    decide +kernel
  obtain ⟨_, isIni, entries⟩ := ok_of_any isIni
  obtain rfl := of_decide_eq_true entries
  have areRead : ((Settings.ofIni someEntries).toOption.any fun settings =>
      decide (settings = ⟨100, false, 50, 2000, ⟨-300, .ofClock 9 5 0, .ofClock 16 0 0⟩, "info"⟩)) = true := by
    decide +kernel
  obtain ⟨settings, areRead, same⟩ := ok_of_any areRead
  obtain ⟨exactly, written⟩ := settings_are_as_written isIni
  obtain ⟨valid, inOrder⟩ := exactly.mp ⟨settings, areRead⟩
  exact ⟨isIni, valid, inOrder, settings, areRead, written settings areRead, of_decide_eq_true same⟩

/-- A whole number above zero that does not fit into 64 bits is refused as no integer, and a time of less than two digits
to a field is read as one. -/
theorem long_timeout_refused_and_short_time_read :
    (∃ ini, Ini.read "[broker]\ntimeout_ms = 9223372036854775808" = .ok ini ∧
      ini.entries = [⟨"broker", "timeout_ms", some "9223372036854775808"⟩] ∧
      WritesWhole "9223372036854775808".toList 9223372036854775808 ∧
      Settings.ofIni ini = .error ⟨"broker", "timeout_ms", .notInteger "9223372036854775808"⟩) ∧
    ∃ ini settings, Ini.read "[session]\nrth_start = 9:5" = .ok ini ∧
      ini.entries = [⟨"session", "rth_start", some "9:5"⟩] ∧ "9:5".length < "HH:MM".length ∧
      Settings.ofIni ini = .ok settings ∧ settings.session.opening = .ofClock 9 5 0 := by
  constructor
  · have isRead : ((Ini.read "[broker]\ntimeout_ms = 9223372036854775808").toOption.any fun ini =>
        decide (ini = ⟨[⟨"broker", "timeout_ms", some "9223372036854775808"⟩]⟩)) = true := by decide +kernel
    obtain ⟨ini, isIni, same⟩ := ok_of_any isRead
    obtain rfl := of_decide_eq_true same
    refine ⟨_, isIni, rfl, ?_, eq_error_of_test (by decide +kernel)⟩
    exact .plain (by decide) (List.all_eq_true.mp (by decide))
  · have isRead : ((Ini.read "[session]\nrth_start = 9:5").toOption.any fun ini =>
        decide (ini = ⟨[⟨"session", "rth_start", some "9:5"⟩]⟩)) = true := by decide +kernel
    obtain ⟨ini, isIni, same⟩ := ok_of_any isRead
    obtain rfl := of_decide_eq_true same
    have areRead : ((Settings.ofIni ⟨[⟨"session", "rth_start", some "9:5"⟩]⟩).toOption.any fun settings =>
        decide (settings.session.opening = .ofClock 9 5 0)) = true := by decide +kernel
    obtain ⟨settings, isSettings, opens⟩ := ok_of_any areRead
    exact ⟨_, settings, isIni, rfl, by decide, isSettings, of_decide_eq_true opens⟩

end TradingStrategy
