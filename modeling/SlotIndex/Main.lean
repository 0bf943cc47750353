import SlotIndex.Launch
import SlotIndex.Report.Configuration

/-!
# The program

The outer layer: arguments, files, environment variables and output. A command is launched on every
configured chain in turn; the first failure ends the program.

* `main`.
-/

namespace SlotIndex

/-- Why a file could not be read. -/
def faultOf : IO.Error → FileFault
  | .inappropriateType .. => .isDirectory
  | _ => .notFound

/-- The octets of a file. -/
def fileOctets (path : String) : IO (Except FileFault (List UInt8)) := do
  match ← (IO.FS.readBinFile path).toBaseIO with
  | .error e => return .error (faultOf e)
  | .ok bytes => return .ok bytes.toList

/-- The text of a file. -/
def fileText (path : String) : IO (Except FileFault String) := do
  match ← fileOctets path with
  | .error fault => return .error fault
  | .ok octets =>
    match Utf8.decode octets with
    | .ok text => return .ok (String.ofList text)
    | .error _ => return .error .invalidData

/-- The files on disk. Directories are not listed. -/
def diskAccess : FileAccess IO where
  readText := fileText
  isDirectory _ := return false
  fileNames _ := return .error .notDirectory

/-- The variables that are set, among those that are needed. -/
def setVariables (needed : List String) : IO Environment := do
  let values ← needed.mapM fun name => do
    let value ← IO.getEnv name
    return value.map fun v => (name, v)
  return Table.ofList (values.filterMap id)

/-- Say why the program ends. -/
def fail (reasons : List Reason) : IO UInt32 := do
  IO.eprintln ("error: " ++ describeFailure reasons)
  return 1

/-- Launch a command on chains one after the other. -/
def launchAll (env : Environment) (command : Command) : List Chain → IO UInt32
  | [] => return 0
  | chain :: rest => do
    match launch env (fun _ => true) chain command with
    | .error e => fail e.reasons
    | .ok _ =>
      IO.println chain.toJson.render
      launchAll env command rest

/-- Do what arguments ask for. -/
def runProgram (arguments : List String) : IO UInt32 := do
  match Invocation.parse arguments with
  | .error e => fail e.reasons
  | .ok invocation =>
    match ← loadChains diskAccess invocation.config with
    | .error e => fail e.reasons
    | .ok chains =>
      let needed := Environment.required chains
      let file ← fileOctets ".env"
      match Environment.require (← setVariables needed) needed file.toOption with
      | (_, .error e) => fail (Environment.reasons e)
      | (env, .ok ()) => launchAll env invocation.command chains

end SlotIndex

/-- Launch the command that the arguments name. -/
def main (arguments : List String) : IO UInt32 := SlotIndex.runProgram arguments
