/-!
# Paths

Paths are texts with slashes between names. They are joined as texts.

* `Path.join`, `Path.parent`, `Path.hasExtension`.
* `Path.names`: the names between the slashes.
-/

namespace SlotIndex.Path

/-- The names between the slashes. -/
def names (path : String) : List String :=
  (path.toList.splitOnP (· = '/')).map String.ofList

/-- Whether a path begins at the root. -/
def isAbsolute (path : String) : Bool := path.toList.head? = some '/'

/-- A path below a directory. An absolute path stands for itself. -/
def join (base path : String) : String :=
  if isAbsolute path || base.toList = [] then path
  else if base.toList.getLast? = some '/' then base ++ path
  else base ++ "/" ++ path

/-- A reversed path without the slashes and dots at its end that stand for nothing. -/
def trimEnd : List Char → List Char
  | ['/'] => ['/']
  | '/' :: rest => trimEnd rest
  | '.' :: '/' :: rest => trimEnd ('/' :: rest)
  | cs => cs

/-- The directory that holds a path; there is none for the root and for the empty path. -/
def parent (path : String) : Option String :=
  match trimEnd path.toList.reverse with
  | [] => none
  | ['/'] => none
  | cs => some (String.ofList (trimEnd (cs.dropWhile (· ≠ '/'))).reverse)

/-- Whether a file name has an extension. A dot at the front of a name does not begin one. -/
def hasExtension (extension name : String) : Bool :=
  match name.toList.reverse.span (· ≠ '.') with
  | (last, '.' :: _ :: _) => last.reverse = extension.toList
  | _ => false

end SlotIndex.Path
