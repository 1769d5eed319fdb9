import LS8.Program.Text

/-!
# Files

A file system says what is found at a path.  A file tree is the file system of
one working directory: a path is walked name by name, only directories can be
walked through, and nothing is known of the world outside.
-/

namespace LS8

/-- What is found at a path. -/
inductive Finding where
  /-- Nothing that can be opened. -/
  | missing
  | directory
  | file (contents : List UInt8)
  deriving DecidableEq, Repr

/-- What is found at each path. -/
abbrev FileSystem := String → Finding

/-- Read the program text at a path. -/
def Program.ofPath (files : FileSystem) (path : String) :
    Except LoadError (List UInt8) :=
  match files path with
  | .missing => .error (.notFound path)
  | .directory => .error (.unreadable .isDirectory)
  | .file contents => Program.parse contents

/-- The names that a path consists of, with the empty ones that its slashes
leave. -/
def pathNames (path : String) : List String :=
  (path.toList.splitOn '/').map String.ofList

/-- Something in a file tree. -/
structure FileEntry where
  /-- The names that lead to it from the working directory. -/
  names : List String
  /-- The bytes of a file; a directory has none. -/
  contents : Option (List UInt8)

namespace FileEntry

/-- An entry at a relative path, whose empty names and dots mean nothing. -/
def place (path : String) (contents : Option (List UInt8)) : FileEntry where
  names := (pathNames path).filter fun name => name != "" && name != "."
  contents

/-- What is found at an entry. -/
def finding (entry : FileEntry) : Finding :=
  match entry.contents with
  | some contents => .file contents
  | none => .directory

end FileEntry

/-- The entries below a working directory.  Of two entries at the same place the
later one counts, and the directories that lead to an entry exist. -/
abbrev FileTree := List FileEntry

namespace FileTree

/-- What lies at a place below the working directory. -/
def lookup (tree : FileTree) (names : List String) : Finding :=
  match tree.reverse.find? (·.names == names) with
  | some entry => entry.finding
  | none =>
      if tree.any (names.isPrefixOf ·.names) then .directory else .missing

/-- What a path finds once it has left the tree: names are unknown there, and
what no name follows is a directory. -/
def outside (names : List String) : Finding :=
  if names.all (["", ".", ".."].contains ·) then .directory else .missing

/-- Walk from a directory in the tree; its names are listed innermost first. -/
def walk (tree : FileTree) : (here names : List String) → Finding
  | _, [] => .directory
  | here, name :: rest =>
      if name == "" || name == "." then
        walk tree here rest
      else if name == ".." then
        match here with
        | [] => outside rest
        | _ :: parent => walk tree parent rest
      else
        match tree.lookup (name :: here).reverse with
        | .missing => .missing
        | .directory => walk tree (name :: here) rest
        | .file contents => if rest.isEmpty then .file contents else .missing

/-- The file system of a working directory.  The empty path finds nothing, and
a path that starts with a slash leaves the tree. -/
def find (tree : FileTree) : FileSystem := fun path =>
  match pathNames path with
  | [] => .missing
  | [""] => .missing
  | "" :: names => outside names
  | names => tree.walk [] names

end FileTree
end LS8
