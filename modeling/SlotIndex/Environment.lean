import SlotIndex.Config.Chain
import SlotIndex.Environment.Assignments
import SlotIndex.Text.Quoted

/-!
# Environment variables

The variables that name the node and the database of each chain must be set. Where one is missing, a
file of variables is read first; variables that are set already keep their values.

* `Environment.assign`: the variables of a file.
* `Environment.require`: the variables that chains need.
-/

namespace SlotIndex

/-- The variables that are set. -/
abbrev Environment := Table String String

/-- Why the variables that chains need are not all set. -/
inductive EnvironmentError where
  /-- Variables are missing and there is no file of variables. -/
  | noFile (missing : List String)
  /-- Variables are missing and the file of variables cannot be read to its end. -/
  | badFile (missing : List String) (fault : Environment.LoadFault)
  | stillMissing (missing : List String)
deriving DecidableEq

namespace Environment

/-- Quoted texts between brackets. -/
def listed (texts : List String) : String :=
  "[" ++ ", ".intercalate (texts.map fun t => Text.quoted '"' t.toList) ++ "]"

/-- The reasons of an error, outermost first. -/
def reasons : EnvironmentError → List Reason
  | .noFile missing =>
    [.text s!"Missing env vars {listed missing} and failed to load .env file",
      .text "path not found", .file .notFound]
  | .badFile missing fault =>
    [.text s!"Missing env vars {listed missing} and failed to load .env file",
      .text fault.message] ++ (if fault = .notText then [.file .invalidData] else [])
  | .stillMissing missing =>
    [.text s!"Missing required env vars after loading .env: {listed missing}"]

/-- The value that a name in a file stands for: that of the environment, or else the last one that
the file itself has given. -/
def valueOf (env given : Environment) (name : String) : String :=
  ((env.get? name).orElse fun _ => given.get? name).getD ""

/-- Take in lines one after the other. Variables that are set keep their values. -/
def assignLines (env given : Environment) : List (Except LoadFault (List Char)) →
    Environment × Except LoadFault Unit
  | [] => (env, .ok ())
  | .error fault :: _ => (env, .error fault)
  | .ok line :: rest =>
    match readLine (valueOf env given) line with
    | .error fault => (env, .error (.line fault))
    | .ok none => assignLines env given rest
    | .ok (some (name, value)) =>
      assignLines (if env.contains name then env else env.insert name value)
        (given.insert name value) rest

/-- The environment behind a file of variables. -/
def assign (env : Environment) (file : List UInt8) : Environment × Except LoadFault Unit :=
  assignLines env Table.empty (logicalLines file)

/-- The variables that chains need. -/
def required {C : Type} (chains : List (ChainSettings C)) : List String :=
  chains.flatMap fun c => [c.rpcUrlVar, c.databaseUrlVar] ++ c.options.wsUrlVar.toList

/-- Make sure that the variables are set which chains need, with the help of a file of variables, if
there is one. -/
def require (env : Environment) (needed : List String) (file : Option (List UInt8)) :
    Environment × Except EnvironmentError Unit :=
  match needed.filter fun name => !env.contains name with
  | [] => (env, .ok ())
  | missing =>
    match file with
    | none => (env, .error (.noFile missing))
    | some octets =>
      match assign env octets with
      | (env, .error fault) => (env, .error (.badFile missing fault))
      | (env, .ok ()) =>
        match needed.filter fun name => !env.contains name with
        | [] => (env, .ok ())
        | missing => (env, .error (.stillMissing missing))

end Environment

end SlotIndex
