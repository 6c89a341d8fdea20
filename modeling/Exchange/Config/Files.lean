/-!
# Files a process reads

A process reads a file by its path and gets the file's text or a failure: no
such file, a path that goes through a file as if it were a directory, or a
path that names a directory, which opens but cannot be read.

A file tree is a root directory and a working directory within it. A path
starting with `/` is walked from the root, any other from the working
directory, one `/`-separated part at a time: an empty part and `.` stay,
`..` goes up (the root is its own parent), a name goes down. Every part is
taken inside a directory, so a file followed by any part, even an empty one
from a trailing `/`, is not a directory.

Key definitions: `FileFailure`, `Files`, `FileTree`, `FileTree.files`.
-/

namespace Exchange

/-- Why a file could not be read. -/
inductive FileFailure where
  /-- Nothing is at the path. -/
  | missing
  /-- A part of the path before its end is a file. -/
  | notDirectory
  /-- The path names a directory. -/
  | directory
  deriving DecidableEq, Repr

/-- The message of a failed read of the file at `path`: opening fails for a
missing file or a file used as a directory, reading for a directory. -/
def FileFailure.message (path : String) : FileFailure → String
  | .missing => "open " ++ path ++ ": no such file or directory"
  | .notDirectory => "open " ++ path ++ ": not a directory"
  | .directory => "read " ++ path ++ ": is a directory"

/-- The files a process can read: the text at each path, or why there is
none. -/
structure Files where
  read : String → Except FileFailure String

/-- A process that can read no file. -/
instance : Inhabited Files := ⟨⟨fun _ => .error .missing⟩⟩

/-- A file with its text, or a directory with its named entries. -/
inductive FileTree where
  | file (text : String)
  | dir (entries : List (String × FileTree))
  deriving Inhabited

namespace FileTree

/-- The entry of a directory by name; a file has none. -/
def child? : FileTree → String → Option FileTree
  | .file _, _ => none
  | .dir es, n => (es.find? (·.1 == n)).map (·.2)

/-- What reading gives at the end of a walk: the file's text, or a directory. -/
def content : FileTree → Except FileFailure String
  | .file t => .ok t
  | .dir _ => .error .directory

/-- Walks the parts of a path from a place, given as the directories from it
out to the root, the place itself first. -/
def walk : List FileTree → List String → Except FileFailure String
  | [], _ => .error .missing
  | here :: _, [] => here.content
  | here :: up, part :: parts =>
    match here with
    | .file _ => .error .notDirectory
    | .dir _ =>
      if part.isEmpty || part = "." then walk (here :: up) parts
      else if part = ".." then walk (if up.isEmpty then [here] else up) parts
      else match here.child? part with
        | none => .error .missing
        | some t => walk (t :: here :: up) parts

/-- The place a list of names leads to from a place, as `walk` keeps it; a
name with no entry leaves the place where it is. -/
def descend (place : List FileTree) : List String → List FileTree
  | [] => place
  | n :: ns =>
    match place.head?.bind (·.child? n) with
    | some t => descend (t :: place) ns
    | none => place

/-- The files of a tree with the given working directory, named by its
entries from the root. The empty path names nothing. -/
def files (root : FileTree) (cwd : List String) : Files :=
  ⟨fun path =>
    if path.isEmpty then .error .missing
    else if path.startsWith "/" then walk [root] (path.splitOn "/")
    else walk (descend [root] cwd) (path.splitOn "/")⟩

theorem walk_dir_nil (es : List (String × FileTree)) (up : List FileTree) :
    walk (.dir es :: up) [] = .error .directory := rfl

theorem walk_file_cons (t : String) (up : List FileTree) (part : String) (parts : List String) :
    walk (.file t :: up) (part :: parts) = .error .notDirectory := rfl

end FileTree

end Exchange
