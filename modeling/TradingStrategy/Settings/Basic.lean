import TradingStrategy.Engine.Basic
import TradingStrategy.Settings.Ini

/-!
The settings of a run.

Owns: the settings with their defaults, the check of the values in a settings file, and the reading of settings from it.
Every key may be missing; a key that is there must have a valid value.
-/

namespace TradingStrategy

/-- The settings of a run. Times are in milliseconds. -/
structure Settings where
  historyBars : Nat
  dryRun : Bool
  timeout : Nat
  openOrdersTtl : Nat
  session : TradingSession
  logLevel : String
deriving Repr, DecidableEq

/-- What is wrong with a value. -/
inductive SettingFault where
  | notInteger (raw : String)
  | historyBars
  | timeout
  | openOrdersTtl
  | notBoolean (raw : String)
  | offset
  | notTime (raw : String)
  | sessionOrder
  | blankLevel
deriving Repr, DecidableEq

/-- A value that is not valid, and its key. -/
structure SettingError where
  place : String
  key : String
  fault : SettingFault
deriving Repr, DecidableEq

/-- The least and the greatest offset of a session in minutes. -/
def offsetBounds : Int × Int :=
  (-720, 840)

/-- The wording of what is wrong. -/
def SettingFault.message : SettingFault → String
  | notInteger raw => "'" ++ raw ++ "' is not an integer"
  | historyBars => "history_bars must be between 1 and " ++ toString maxHistory
  | timeout => "timeout_ms must be positive"
  | openOrdersTtl => "open_orders_ttl_ms must be non-negative"
  | notBoolean raw => "'" ++ raw ++ "' is not a boolean"
  | offset => "utc_offset_minutes must be between " ++ toString offsetBounds.1 ++ " and " ++ toString offsetBounds.2
  | notTime raw => "'" ++ raw ++ "' is not a HH:MM time"
  | sessionOrder => "rth_end must be after rth_start"
  | blankLevel => "level must not be empty"

def SettingError.message (error : SettingError) : String :=
  "invalid config value [" ++ error.place ++ "] " ++ error.key ++ ": " ++ error.fault.message

namespace Settings

/-- The settings where nothing is set. -/
def default : Settings where
  historyBars := maxHistory
  dryRun := true
  timeout := defaultTimeout
  openOrdersTtl := 2000
  session := .regular
  logLevel := "info"

/-- A whole number that is there must be valid. -/
def checkNumber (ini : Ini) (place key : String) (isValid : Int → Bool) (fault : SettingFault) :
    Except SettingError Unit :=
  match ini.string? place key with
  | none => .ok ()
  | some raw =>
      match Ini.intOf? (Text.trim raw) with
      | none => .error ⟨place, key, .notInteger raw⟩
      | some value => if isValid value then .ok () else .error ⟨place, key, fault⟩

/-- The words that stand for a boolean. -/
def booleanWords : List String :=
  ["true", "false", "yes", "no", "on", "off", "1", "0"]

/-- A boolean that is there must be one of the words, in any case of its letters. -/
def checkBoolean (ini : Ini) (place key : String) : Except SettingError Unit :=
  match ini.string? place key with
  | none => .ok ()
  | some raw =>
      if booleanWords.contains (Text.lower (Text.trim raw)) then .ok () else .error ⟨place, key, .notBoolean raw⟩

/-- A time of the session, or the default where the key is missing. -/
def time (ini : Ini) (key : String) (default : Calendar.TimeOfDay) : Except SettingError Calendar.TimeOfDay :=
  match ini.time? "session" key with
  | .error raw => .error ⟨"session", key, .notTime raw⟩
  | .ok found => .ok (found.getD default)

def openingTime (ini : Ini) : Except SettingError Calendar.TimeOfDay :=
  time ini "rth_start" default.session.opening

def closingTime (ini : Ini) : Except SettingError Calendar.TimeOfDay :=
  time ini "rth_end" default.session.closing

def isValidOffset (minutes : Int) : Bool :=
  offsetBounds.1 ≤ minutes && minutes ≤ offsetBounds.2

def checkSession (ini : Ini) : Except SettingError Unit := do
  checkNumber ini "session" "utc_offset_minutes" isValidOffset .offset
  let opening ← openingTime ini
  let closing ← closingTime ini
  if opening.before closing then .ok () else .error ⟨"session", "rth_end", .sessionOrder⟩

/-- A log level that is there must not be blank. -/
def checkLevel (ini : Ini) : Except SettingError Unit :=
  match ini.string? "logging" "level" with
  | none => .ok ()
  | some raw => if Text.isBlankText raw then .error ⟨"logging", "level", .blankLevel⟩ else .ok ()

/-- Checks every value that is there; the first one that is not valid is the error. -/
def check (ini : Ini) : Except SettingError Unit := do
  checkNumber ini "engine" "history_bars" (fun bars => 1 ≤ bars && bars ≤ maxHistory) .historyBars
  checkNumber ini "broker" "timeout_ms" (fun milliseconds => 0 < milliseconds) .timeout
  checkNumber ini "broker" "open_orders_ttl_ms" (fun milliseconds => 0 ≤ milliseconds) .openOrdersTtl
  checkBoolean ini "broker" "dry_run"
  checkSession ini
  checkLevel ini

/-- The natural number that has the 64 bits of a whole number. -/
def unsigned (n : Int) : Nat :=
  (BitVec.ofInt 64 n).toNat

/-- The whole number that has the lower 32 bits of a whole number. -/
def narrowed (n : Int) : Int :=
  (BitVec.ofInt 32 n).toInt

/-- Reads the settings once they are checked. The look-ups would give the default for a value that is not valid. -/
def ofIni (ini : Ini) : Except SettingError Settings := do
  check ini
  let opening ← openingTime ini
  let closing ← closingTime ini
  return {
    historyBars := unsigned (ini.int "engine" "history_bars" default.historyBars)
    dryRun := ini.bool "broker" "dry_run" default.dryRun
    timeout := unsigned (ini.int "broker" "timeout_ms" default.timeout)
    openOrdersTtl := unsigned (ini.int "broker" "open_orders_ttl_ms" default.openOrdersTtl)
    session := ⟨narrowed (ini.int "session" "utc_offset_minutes" default.session.offsetMinutes), opening, closing⟩
    logLevel := (ini.string? "logging" "level").getD default.logLevel }

/-- How an engine runs under the settings. -/
def engineOptions (settings : Settings) : EngineOptions :=
  ⟨⟨settings.dryRun, settings.timeout⟩, settings.session, settings.historyBars⟩

end Settings

end TradingStrategy
