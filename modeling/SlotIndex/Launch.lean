import SlotIndex.Backfill.Target
import SlotIndex.Cli
import SlotIndex.Connection
import SlotIndex.Environment

/-!
# Launching a command

Before a command works on a chain, its selection is made and a connection to the database of the
chain is opened.

* `launch`: the selection and the servers, or the `LaunchError`.
-/

namespace SlotIndex

/-- What ends a command before it has begun to work. -/
inductive LaunchError where
  | target (error : TargetError)
  | missingVariable (name chain : String)
  | connection (error : ConnectionError)
deriving DecidableEq

/-- The reasons of an error, outermost first. -/
def LaunchError.reasons : LaunchError → List Reason
  | .target error => error.reasons
  | .missingVariable name chain =>
    [.text s!"env var {name} not set for chain {chain}", .text "environment variable not found"]
  | .connection error => error.reasons

/-- The selection that a command makes. Only a backfill can make one. -/
def Command.selection (chain : Chain) : Command → Except TargetError (Option Selection)
  | .backfill _ _ _ contracts keys => targetSelection chain contracts keys
  | .watch | .loadValues _ => .ok none

/-- Make the selection of a command on a chain and connect to the database of the chain. -/
def launch (env : Environment) (reaches : Servers → Bool) (chain : Chain) (command : Command) :
    Except LaunchError (Option Selection × Servers) := do
  let selection ← (command.selection chain).mapError .target
  match env.get? chain.databaseUrlVar with
  | none => throw (.missingVariable chain.databaseUrlVar chain.name)
  | some url =>
    let servers ← (connect reaches url).mapError .connection
    return (selection, servers)

end SlotIndex
