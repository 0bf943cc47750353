import SlotIndex.Config.Contract

/-!
# File trees

A file system in memory: files with their texts and directories, below a root.

* `FileTree`, `FileTree.addAll`, `FileTree.find`: what a path leads to. Names have at most 255
  octets and paths at most 4095, none of which is null.
* `FileTree.access`: the tree as a file system.
-/

namespace SlotIndex

/-- A file or a directory. -/
inductive FileNode where
  | file (text : String)
  /-- A file that is no text. -/
  | binary
  | directory
deriving DecidableEq

/-- Files and directories by the names that lead to them. The root is a directory. -/
abbrev FileTree := Table (List String) FileNode

namespace FileTree

/-- What stands at a list of names. -/
def node? (t : FileTree) (names : List String) : Option FileNode :=
  if names = [] then some .directory else t.get? names

/-- Add a file or a directory, with the directories above it. -/
def add (t : FileTree) (names : List String) (node : FileNode) : FileTree :=
  let above := (List.range names.length).map names.take
  let t := above.foldl (fun t p => if p = [] ∨ t.contains p then t else t.insert p .directory) t
  t.insert names node

/-- Add files and directories by their paths below a place. -/
def addAll (t : FileTree) (place : List String) (nodes : List (String × FileNode)) : FileTree :=
  nodes.foldl (fun t e =>
    add t (place ++ (Path.names e.1).filter fun name => name ≠ "" ∧ name ≠ ".") e.2)
    (add t place .directory)

/-- The place that names lead to, from a place on. -/
def walk (t : FileTree) : (place : List String) → List String → Except FileFault (List String)
  | place, [] => .ok place
  | place, name :: rest =>
    match node? t place with
    | none => .error .notFound
    | some (.file _) | some .binary => .error .notDirectory
    | some .directory =>
      if name = "" ∨ name = "." then walk t place rest
      else if 255 < name.utf8ByteSize then .error .nameTooLong
      else if name = ".." then walk t place.dropLast rest
      else walk t (place ++ [name]) rest

/-- What a path leads to. The empty path leads nowhere. -/
def find (t : FileTree) (path : String) : Except FileFault (List String × FileNode) :=
  if path.contains (Char.ofNat 0) then .error .invalidPath
  else if path = "" then .error .notFound
  else if 4095 < path.utf8ByteSize then .error .nameTooLong
  else
    match walk t [] (Path.names path) with
    | .error fault => .error fault
    | .ok place =>
      match node? t place with
      | none => .error .notFound
      | some node => .ok (place, node)

/-- The names in a directory. -/
def namesIn (t : FileTree) (place : List String) : List String :=
  t.keys.filterMap fun k =>
    if k ≠ [] ∧ k.dropLast = place then k.getLast? else none

/-- The tree as a file system. -/
def access (t : FileTree) : FileAccess Id where
  readText path :=
    match find t path with
    | .error fault => .error fault
    | .ok (_, .directory) => .error .isDirectory
    | .ok (_, .binary) => .error .invalidData
    | .ok (_, .file text) => .ok text
  isDirectory path :=
    match find t path with
    | .ok (_, .directory) => true
    | _ => false
  fileNames path :=
    match find t path with
    | .error fault => .error fault
    | .ok (_, .file _) | .ok (_, .binary) => .error .notDirectory
    | .ok (place, .directory) => .ok (namesIn t place)

end FileTree

end SlotIndex
