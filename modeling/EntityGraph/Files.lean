/-!
# Files

A file tree is a list of files, each with the names on the way to it; a directory is there if a
file lies in it.
-/

namespace EntityGraph

/-- The names on the way to a file or directory. -/
abbrev Location := List String

namespace Path

/-- The bytes that a path may have. -/
def maxBytes : Nat := 4095

/-- The parts of a path between its slashes. -/
def parts (path : String) : List String :=
  let rec split (word : List Char) : List Char → List (List Char)
    | [] => [word.reverse]
    | '/' :: rest => word.reverse :: split [] rest
    | c :: rest => split (c :: word) rest
  (split [] path.toList).map String.ofList

/-- Whether a path starts from the root. -/
def isAbsolute (path : String) : Bool := path.toList.head? == some '/'

/-- The name that a path ends with. -/
def fileName? (path : String) : Option String :=
  match ((parts path).filter fun p => p ≠ "" ∧ p ≠ ".").getLast? with
  | some ".." => none
  | name => name

/-- What stands behind the last point of the name that a path ends with; none of a name whose
only point is its first character. -/
def ending? (path : String) : Option String :=
  (fileName? path).bind fun name =>
    let back := name.toList.reverse
    match back.dropWhile (· ≠ '.') with
    | '.' :: _ :: _ => some (String.ofList (back.takeWhile (· ≠ '.')).reverse)
    | _ => none

/-- A path as seen from a base: an absolute path is kept. -/
def join (base path : String) : String :=
  if isAbsolute path || base.isEmpty then path
  else if base.toList.getLast? == some '/' then base ++ path
  else base ++ "/" ++ path

end Path

/-- The files of a tree with their content. -/
structure Files where
  entries : List (Location × ByteArray) := []

namespace Files

/-- Whether a directory lies at a location. -/
def hasDirectory (files : Files) (loc : Location) : Bool :=
  loc.isEmpty || files.entries.any fun e => loc.isPrefixOf e.1 && loc.length < e.1.length

/-- Follows the parts of a path from a directory, up to the location it names. -/
def walk (files : Files) (loc : Location) : List String → Option Location
  | [] => some loc
  | p :: rest =>
    if !files.hasDirectory loc then none
    else if p = "" ∨ p = "." then files.walk loc rest
    else if p = ".." then if loc.isEmpty then none else files.walk loc.dropLast rest
    else files.walk (loc ++ [p]) rest

/-- The content of a file. A path that is too long names none. -/
def content? (files : Files) (path : String) : Option ByteArray :=
  if path.isEmpty || Path.isAbsolute path || Path.maxBytes < path.utf8ByteSize then none
  else
    (files.walk [] (Path.parts path)).bind fun loc =>
      (files.entries.reverse.find? fun e => e.1 == loc).map Prod.snd

/-- The text of a file; none if there is no such file or its content is no text. -/
def read? (files : Files) (path : String) : Option String :=
  (files.content? path).bind String.fromUTF8?

/-- Adds a file. -/
def add (files : Files) (path : String) (content : ByteArray) : Files :=
  ⟨files.entries ++ [((Path.parts path).filter fun p => p ≠ "" ∧ p ≠ ".", content)]⟩

end Files

end EntityGraph
