/-!
The command line.

Owns: the commands, the options that each of them takes, and the reading of arguments.

An option has a long name behind two hyphens and may have a short one behind a single hyphen. Its value stands in the
next argument, or in the same one, behind an equals sign or right behind the short name. Each option is given at most
once, and values are not empty.
-/

namespace TradingStrategy

/-- What the program is asked to do. -/
inductive Command where
  /-- Write the compiled form of a strategy. -/
  | compile (strategy : String) (output : Option String)
  /-- Describe a strategy and its risk. -/
  | validate (strategy : String)
  /-- Run a strategy over bars on the paper venue. -/
  | backtest (strategy bars : String) (config : Option String) (json : Bool)
  /-- List the registered features. -/
  | features
deriving Repr, DecidableEq

/-- An option of a command. -/
structure OptionSpec where
  long : String
  short : Option Char
  takesValue : Bool
deriving Repr, DecidableEq

/-- An option as it was given. -/
structure GivenOption where
  long : String
  value : Option String
deriving Repr, DecidableEq

namespace Command

/-- The strategy to work on. -/
def strategyOption : OptionSpec := ⟨"strategy", some 's', true⟩

/-- The file to write to. -/
def outputOption : OptionSpec := ⟨"output", some 'o', true⟩

/-- The file of bars. -/
def barsOption : OptionSpec := ⟨"bars", some 'b', true⟩

/-- The settings file. -/
def configOption : OptionSpec := ⟨"config", some 'c', true⟩

/-- Reports as JSON. -/
def jsonOption : OptionSpec := ⟨"json", none, false⟩

/-- How an argument names an option, and what stands behind the name in the same argument. -/
inductive Token where
  | long (name : List Char) (attached : Option (List Char))
  | short (name : Char) (attached : Option (List Char))
  /-- Two hyphens: only values may follow. -/
  | divider
  | plain
deriving Repr, DecidableEq

/-- What an argument is. A single hyphen is no option. -/
def tokenOf (argument : String) : Token :=
  match argument.toList with
  | ['-', '-'] => .divider
  | '-' :: '-' :: rest =>
      match rest.dropWhile (· ≠ '=') with
      | [] => .long rest none
      | _ :: value => .long (rest.takeWhile (· ≠ '=')) (some value)
  | ['-'] => .plain
  | ['-', name] => .short name none
  | '-' :: name :: '=' :: value => .short name (some value)
  | '-' :: name :: value => .short name (some value)
  | _ => .plain

/-- The option that a token names. -/
def specOf? (specs : List OptionSpec) : Token → Option OptionSpec
  | .long name _ => specs.find? fun spec => spec.long.toList == name
  | .short name _ => specs.find? fun spec => spec.short == some name
  | _ => none

/-- What stands behind the name in the same argument. -/
def attached? : Token → Option (List Char)
  | .long _ attached => attached
  | .short _ attached => attached
  | _ => none

/-- The value of an option and the arguments behind it. -/
def valueOf? (attached : Option (List Char)) (rest : List String) : Option (String × List String) :=
  match attached, rest with
  | some [], _ => none
  | some value, rest => some (String.ofList value, rest)
  | none, value :: rest => if tokenOf value = .plain ∧ value ≠ "" then some (value, rest) else none
  | none, [] => none

theorem valueOf?_length_le {attached : Option (List Char)} {rest others : List String} {value : String}
    (h : valueOf? attached rest = some (value, others)) : others.length ≤ rest.length := by
  unfold valueOf? at h
  split at h
  · simp at h
  · simp only [Option.some.injEq, Prod.mk.injEq] at h
    simp [← h.2]
  · split at h
    · simp only [Option.some.injEq, Prod.mk.injEq] at h
      simp [← h.2]
    · simp at h
  · simp at h

/-- The options that arguments give. -/
def givenOptions? (specs : List OptionSpec) : List String → Option (List GivenOption)
  | [] => some []
  | argument :: rest =>
      let token := tokenOf argument
      if token = .divider then (if rest = [] then some [] else none)
      else match specOf? specs token with
        | none => none
        | some spec =>
            if spec.takesValue then
              match found : valueOf? (attached? token) rest with
              | some (value, others) =>
                  have := valueOf?_length_le found
                  (givenOptions? specs others).map fun given => ⟨spec.long, some value⟩ :: given
              | none => none
            else if (attached? token).isSome then none
            else (givenOptions? specs rest).map fun given => ⟨spec.long, none⟩ :: given
termination_by arguments => arguments.length
decreasing_by
  · simp only [List.length_cons]
    omega
  · simp

/-- The options that arguments give, each at most once. -/
def options? (specs : List OptionSpec) (arguments : List String) : Option (List GivenOption) :=
  (givenOptions? specs arguments).filter fun given => (given.map GivenOption.long).Nodup

/-- The value of an option. -/
def valueIn? (given : List GivenOption) (spec : OptionSpec) : Option String :=
  (given.find? fun option => option.long == spec.long).bind GivenOption.value

/-- An option was given. -/
def isIn (given : List GivenOption) (spec : OptionSpec) : Bool :=
  given.any fun option => option.long == spec.long

/-- The command that arguments ask for. -/
def parse? : List String → Option Command
  | "compile" :: rest => do
      let given ← options? [strategyOption, outputOption] rest
      return compile (← valueIn? given strategyOption) (valueIn? given outputOption)
  | "validate" :: rest => do
      let given ← options? [strategyOption] rest
      return validate (← valueIn? given strategyOption)
  | "backtest" :: rest => do
      let given ← options? [strategyOption, barsOption, configOption, jsonOption] rest
      return backtest (← valueIn? given strategyOption) (← valueIn? given barsOption)
        (valueIn? given configOption) (isIn given jsonOption)
  | "features" :: rest => do
      let _ ← options? [] rest
      return features
  | _ => none

end Command

end TradingStrategy
