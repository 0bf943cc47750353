import SlotIndex.Config.Failure
import SlotIndex.Config.Path
import SlotIndex.Json.ByteList
import SlotIndex.Layout.Read

/-!
# Configured contracts

The contracts whose diffs are decoded, by name. They are written in a configuration itself, in a file
of their own, or in the `.json` files of a directory, which are read in the order of their names.

* `ContractDecl`, `Contracts`, `Contracts.parse`.
* `FileAccess`: what is needed of a file system.
* `Contracts.load`: contracts at a path, with the `ConfigError` of the first fault.
-/

namespace SlotIndex

/-- A configured contract. -/
structure ContractDecl where
  address : Address
  /-- The kind of transformer that handles its diffs. -/
  transformer : String := "decoding"
  storage : Layout := {}
deriving DecidableEq

/-- The configured contracts by name. -/
abbrev Contracts := Table String ContractDecl

open Json in
/-- A contract, at a place where lists and objects may be nested `levels` deep. -/
def ContractDecl.ofJson? (levels : Nat) (j : Json) : Option ContractDecl := do
  let [address, transformer, storage] ← record? ["address", "transformer", "storage"] j | none
  return {
    address := ← required? address? address
    transformer := ← orElse? "decoding" text? transformer
    storage := ← orElse? {} (Layout.ofJson? (levels - 1)) storage }

/-- Contracts by name; of several with one name the last one counts. -/
def Contracts.ofJson? (levels : Nat) (j : Json) : Option Contracts := do
  let members ← j.members?
  let contracts ← members.mapM fun m => do
    let contract ← ContractDecl.ofJson? (levels - 1) m.2
    return (m.1, contract)
  return Table.ofList contracts

open Json in
/-- The reader of a contract, whose address may be a list of bytes. -/
def ContractDecl.readAt (steps : Nat) : Reader Json :=
  let address := bytesAt 20 steps
  valueWith (fun index => if index = 0 then address else valueAt steps)
    (fun name => if name = some "address" then address else valueAt steps) steps

open Json in
/-- The reader of contracts by name. -/
def Contracts.readAt (steps : Nat) : Reader Json :=
  valueWith (fun _ => valueAt steps) (fun _ => ContractDecl.readAt steps) steps

/-- The contracts of a JSON text. -/
def Contracts.parse (text : String) : Option Contracts :=
  (Json.parseWith readAt text).bind (ofJson? maxLevels)

/-- What is needed of a file system. -/
structure FileAccess (m : Type → Type) where
  readText : String → m (Except FileFault String)
  isDirectory : String → m Bool
  /-- The names of the files and directories in a directory. -/
  fileNames : String → m (Except FileFault (List String))

/-- What is wrong with a configuration. -/
inductive ConfigError where
  | readConfig (path : String) (fault : FileFault)
  | parseConfig (path : String)
  | resolveChain (name : String) (cause : ConfigError)
  | readContracts (path : String) (fault : FileFault)
  | parseContracts (path : String)
  | readDirectory (path : String) (fault : FileFault)
  | duplicateContract (name directory : String)
  /-- A number that must not be zero is. -/
  | zeroField (field : String)
deriving DecidableEq

/-- The reasons of an error, outermost first. -/
def ConfigError.reasons : ConfigError → List Reason
  | .readConfig path fault => [.text s!"Failed to read config file at {path}", .file fault]
  | .parseConfig path => [.text s!"Failed to parse config file at {path}", .json]
  | .resolveChain name cause =>
    .text s!"Failed to resolve chain config '{name}'" :: cause.reasons
  | .readContracts path fault =>
    [.text s!"Failed to read contracts file at {path}", .file fault]
  | .parseContracts path => [.text s!"Failed to parse contracts file at {path}", .json]
  | .readDirectory path fault =>
    [.text s!"Failed to read contracts directory at {path}", .file fault]
  | .duplicateContract name directory =>
    [.text s!"Duplicate contract key '{name}' found in {directory}"]
  | .zeroField field => [.text s!"storage_diffs.{field} must be greater than zero"]

namespace Contracts

variable {m : Type → Type} [Monad m] (files : FileAccess m)

/-- The contracts of one file. -/
def loadFile (path : String) : m (Except ConfigError Contracts) := do
  match ← files.readText path with
  | .error fault => return .error (.readContracts path fault)
  | .ok text =>
    match parse text with
    | none => return .error (.parseContracts path)
    | some contracts => return .ok contracts

/-- Add the contracts of files, one file after the other. No name may occur twice. -/
def mergeFiles (directory : String) (merged : Contracts) :
    List String → m (Except ConfigError Contracts)
  | [] => return .ok merged
  | path :: rest => do
    match ← loadFile files path with
    | .error e => return .error e
    | .ok contracts =>
      match contracts.keys.find? merged.contains with
      | some name => return .error (.duplicateContract name directory)
      | none => mergeFiles directory (merged.insertAll contracts.entries) rest

/-- The contracts of the `.json` files of a directory. -/
def loadDirectory (path : String) : m (Except ConfigError Contracts) := do
  match ← files.fileNames path with
  | .error fault => return .error (.readDirectory path fault)
  | .ok names =>
    let names := (names.filter (Path.hasExtension "json")).mergeSort fun a b => decide (a ≤ b)
    mergeFiles files path Table.empty (names.map (Path.join path))

/-- The contracts at a path, which is a file or a directory. -/
def load (base path : String) : m (Except ConfigError Contracts) := do
  let full := Path.join base path
  if ← files.isDirectory full then loadDirectory files full else loadFile files full

end Contracts

end SlotIndex
