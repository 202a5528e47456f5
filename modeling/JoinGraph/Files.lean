import JoinGraph.Text.Quoted

/-!
Files: paths, and a tree of files in which they are looked up.

The tree is the directory that a command works in. Outside it are only the directories above it,
those that every root has, and the empty device.
-/

namespace JoinGraph

/-- A path: how many slashes it starts with, and the names between them. -/
structure Path where
  root : Nat
  parts : List Text
deriving DecidableEq, Repr

namespace Path

def splitSlashes : Text → List Text
  | [] => [[]]
  | c :: rest =>
      if c = '/' then [] :: splitSlashes rest
      else
        match splitSlashes rest with
        | [] => [[c]]
        | name :: more => (c :: name) :: more

/-- The path that a text spells. Empty names and single dots mean nothing; two slashes in front are
kept, more count as one. -/
def ofText (text : Text) : Path :=
  let slashes := (text.takeWhile fun c => c == '/').length
  { root := if slashes = 2 then 2 else min slashes 1
    parts := (splitSlashes text).filter fun name => decide (name ≠ [] ∧ name ≠ ['.']) }

def spelling (path : Path) : Text :=
  match path.root, path.parts with
  | 0, [] => ['.']
  | root, parts => List.replicate root '/' ++ Text.join ['/'] parts

end Path

/-- Why a file cannot be read or written. -/
inductive FileFault
  | missing
  | notDirectory
  | isDirectory
  | nameTooLong
  /-- Any other fault, by the number and the text that the system gives it. -/
  | other (number : Nat) (text : Text)
deriving DecidableEq, Repr

namespace FileFault

def description : FileFault → Text
  | missing => "[Errno 2] No such file or directory".toList
  | notDirectory => "[Errno 20] Not a directory".toList
  | isDirectory => "[Errno 21] Is a directory".toList
  | nameTooLong => "[Errno 36] File name too long".toList
  | other number text => "[Errno ".toList ++ Text.decimal number ++ "] ".toList ++ text

/-- What is told about a path that has the fault. -/
def message (fault : FileFault) (path : Path) : Text :=
  fault.description ++ ": ".toList ++ path.spelling.quoted

end FileFault

/-- A directory with everything below it, each entry under its names from the top. An entry without
content is a directory. -/
structure FileTree where
  entries : List (List Text × Option Text)
deriving DecidableEq, Repr

namespace FileTree

/-- The entry with the given names. The top itself is a directory. -/
def entry? (tree : FileTree) (names : List Text) : Option (Option Text) :=
  match names with
  | [] => some none
  | _ => (tree.entries.find? fun entry => entry.1 == names).map (·.2)

def put (tree : FileTree) (names : List Text) (content : Text) : FileTree :=
  ⟨(names, some content) :: tree.entries.filter fun entry => entry.1 != names⟩

/-- A directory in which names are looked up. -/
inductive Place
  /-- A directory of the tree. -/
  | inside (names : List Text)
  /-- A directory above the tree. -/
  | above
  /-- A directory told from the root. -/
  | rooted (names : List Text)
deriving DecidableEq, Repr

/-- The directory above a directory. The root is above itself. -/
def Place.parent : Place → Place
  | inside [] => above
  | inside (first :: others) => inside (first :: others).dropLast
  | above => above
  | rooted names => rooted names.dropLast

inductive Target
  | directory (place : Place)
  | file (names : List Text) (content : Text)
  /-- A file that is always empty and keeps nothing. -/
  | null
  /-- Nothing so far. The names are those in the tree, if it is there. -/
  | absent (names : Option (List Text))
deriving DecidableEq, Repr

/-- The directories that every root has. -/
def rootDirectories : List String :=
  ["bin", "boot", "dev", "etc", "home", "lib", "media", "mnt", "opt", "proc", "root", "run", "sbin",
    "srv", "sys", "tmp", "usr", "var"]

/-- What a name stands for in a directory. -/
def lookUp (tree : FileTree) (name : Text) : Place → Target
  | .inside names =>
      match tree.entry? (names ++ [name]) with
      | some none => .directory (.inside (names ++ [name]))
      | some (some content) => .file (names ++ [name]) content
      | none => .absent (some (names ++ [name]))
  | .above => .absent none
  | .rooted [] =>
      if String.ofList name ∈ rootDirectories then .directory (.rooted [name]) else .absent none
  | .rooted names =>
      if names = ["dev".toList] ∧ name = "null".toList then .null else .absent none

def byteCount (text : Text) : Nat :=
  (String.ofList text).utf8ByteSize

def maxNameBytes : Nat := 255

def maxPathBytes : Nat := 4095

/-- Follow names from a directory. Only a name that is looked up can be too long, and no name is
looked up behind one that stands for no directory. -/
def follow (tree : FileTree) : Place → List Text → Except FileFault Target
  | place, [] => .ok (.directory place)
  | place, name :: rest =>
      if name = ['.', '.'] then follow tree place.parent rest
      else if maxNameBytes < byteCount name then .error .nameTooLong
      else
        match tree.lookUp name place with
        | .directory next => follow tree next rest
        | found =>
            if rest = [] then .ok found
            else
              match found with
              | .absent _ => .error .missing
              | _ => .error .notDirectory

/-- Where a path leads, seen from the top of the tree. -/
def resolve (tree : FileTree) (path : Path) : Except FileFault Target :=
  if maxPathBytes < byteCount path.spelling then .error .nameTooLong
  else follow tree (if path.root = 0 then .inside [] else .rooted []) path.parts

/-- Every end of a line as a single newline. -/
def normaliseLines : Text → Text
  | [] => []
  | '\r' :: '\n' :: rest => '\n' :: normaliseLines rest
  | '\r' :: rest => '\n' :: normaliseLines rest
  | c :: rest => c :: normaliseLines rest

def isPresent (tree : FileTree) (path : Path) : Except FileFault Bool :=
  match tree.resolve path with
  | .ok (.absent _) | .error .missing | .error .notDirectory => .ok false
  | .ok _ => .ok true
  | .error fault => .error fault

def read (tree : FileTree) (path : Path) : Except FileFault Text :=
  match tree.resolve path with
  | .ok (.file _ content) => .ok (normaliseLines content)
  | .ok .null => .ok []
  | .ok (.directory _) => .error .isDirectory
  | .ok (.absent _) => .error .missing
  | .error fault => .error fault

/-- The tree after a file was written. Files outside the tree leave no trace in it. -/
def write (tree : FileTree) (path : Path) (content : Text) : Except FileFault FileTree :=
  match tree.resolve path with
  | .ok (.file names _) | .ok (.absent (some names)) => .ok (tree.put names content)
  | .ok (.absent none) | .ok .null => .ok tree
  | .ok (.directory _) => .error .isDirectory
  | .error fault => .error fault

/-- The files of a tree that another tree does not have with the same content. -/
def newFiles (before after : FileTree) : List (List Text × Text) :=
  after.entries.filterMap fun (names, content) =>
    match content with
    | none => none
    | some text => if before.entry? names = some (some text) then none else some (names, text)

end FileTree

end JoinGraph
