import SlotIndex.Config.Failure
import SlotIndex.Diff.Row
import SlotIndex.Table

/-!
# Command line

A command word, which may be left out, and flags with their values, in any order. The value of a flag
is the argument behind it, whatever it looks like; of several values for a flag the last one counts.

* `Invocation`, `Command`.
* `Invocation.parse`: what a list of arguments asks for, or the first error.
-/

namespace SlotIndex

/-- What is to be done. -/
inductive Command where
  /-- Follow new diffs. -/
  | watch
  /-- Derive the diffs of a range of heights again. -/
  | backfill (first last : UInt64) (batchSize : Option UInt64) (contracts : List String)
      (keys : List Word)
  /-- Read the current values of all known slots at a height. -/
  | loadValues (block : UInt64)
deriving DecidableEq

/-- A command and the path of the configuration. -/
structure Invocation where
  config : String
  command : Command
deriving DecidableEq

/-- What is wrong with a command line. -/
inductive CliError where
  | unknownFlag (flag : String)
  | missingValue (flag : String)
  | unexpectedArgument (argument : String)
  | missingFlag (command flag : String)
  | badNumber (flag value : String) (fault : Decimal.IntegerFault)
  | badKey (fault : WordFault)
  | unknownCommand (name : String)
deriving DecidableEq

/-- The reasons of an error, outermost first. -/
def CliError.reasons : CliError → List Reason
  | .unknownFlag flag => [.text s!"unknown flag --{flag}"]
  | .missingValue flag => [.text s!"--{flag} requires a value"]
  | .unexpectedArgument argument => [.text s!"unexpected argument '{argument}'"]
  | .missingFlag command flag => [.text s!"{command} requires --{flag}"]
  | .badNumber flag value fault =>
    [.text s!"--{flag} must be a block number, got '{value}'", .text fault.message]
  | .badKey fault => [.text s!"--key: {fault.message}"]
  | .unknownCommand name => [.text s!"unknown command '{name}'"]

namespace Invocation

/-- The path of the configuration when none is given. -/
def defaultConfig : String := "config/config.json"

/-- The flags. -/
def knownFlags : List String :=
  ["config", "from", "to", "batch-size", "block", "contract", "key"]

/-- The flags of a command line with their values. -/
abbrev Flags := Table String String

/-- The name behind two dashes. -/
def flagName? (argument : String) : Option String :=
  match argument.toList with
  | '-' :: '-' :: name => some (String.ofList name)
  | _ => none

/-- The command word and the flags of arguments, behind those read so far. -/
def scan (command : Option String) (flags : Flags) :
    List String → Except CliError (Option String × Flags)
  | [] => .ok (command, flags)
  | argument :: rest =>
    match flagName? argument with
    | some flag =>
      if flag ∈ knownFlags then
        match rest with
        | [] => .error (.missingValue flag)
        | value :: rest => scan command (flags.insert flag value) rest
      else .error (.unknownFlag flag)
    | none =>
      match command with
      | none => scan (some argument) flags rest
      | some _ => .error (.unexpectedArgument argument)

/-- The number that a flag gives. -/
def number (flags : Flags) (flag : String) : Except CliError (Option UInt64) :=
  match flags.get? flag with
  | none => .ok none
  | some value =>
    match Decimal.readUInt64 value.toList with
    | .ok n => .ok (some n)
    | .error fault => .error (.badNumber flag value fault)

/-- The number that a flag must give. -/
def requiredNumber (flags : Flags) (command flag : String) : Except CliError UInt64 := do
  match ← number flags flag with
  | some n => return n
  | none => throw (.missingFlag command flag)

/-- The parts of a flag's value between commas, without blanks at their ends and without empty
ones. -/
def list (flags : Flags) (flag : String) : List String :=
  match flags.get? flag with
  | none => []
  | some value =>
    (((splitAtCommas value.toList).map Text.trim).filter (· ≠ [])).map String.ofList

/-- The command that a word and flags give. Only the flags of the command are looked at. -/
def commandOf (flags : Flags) : String → Except CliError Command
  | "watch" => return .watch
  | "backfill" => do
    let first ← requiredNumber flags "backfill" "from"
    let last ← requiredNumber flags "backfill" "to"
    let batchSize ← number flags "batch-size"
    let keys ← ((list flags "key").mapM Word.parse).mapError .badKey
    return .backfill first last batchSize (list flags "contract") keys
  | "load-values" => do
    let block ← requiredNumber flags "load-values" "block"
    return .loadValues block
  | other => throw (.unknownCommand other)

/-- What a list of arguments asks for. -/
def parse (arguments : List String) : Except CliError Invocation := do
  let (word, flags) ← scan none Table.empty arguments
  let command ← commandOf flags (word.getD "watch")
  return ⟨(flags.get? "config").getD defaultConfig, command⟩

end Invocation

end SlotIndex
