import LintRepair.Text.Basic

/-!
# Files

What a command sees of the files, and a workspace that holds files in memory.  Two paths are equal
when they have the same components, and mean the same file when they lead to the same place.  An
absolute path leads down from the top, any other one from the working directory.
-/

namespace LintRepair

namespace Path

/-- The parts of a path between slashes. -/
def parts : Text → List Text
  | [] => [[]]
  | c :: cs => if c = '/' then [] :: parts cs else Text.pushFirst c (parts cs)

/-- The parts of a path that lead somewhere else: empty ones and dots do not. -/
def names (path : Text) : List Text := (parts path).filter fun part => part ≠ [] && part ≠ ['.']

/-- The components of a path: empty parts and dots do not count, a slash or a dot at the start
does. -/
def components (path : Text) : List Text :=
  match parts path with
  | [[]] => []
  | [] :: _ => ['/'] :: names path
  | ['.'] :: _ => ['.'] :: names path
  | _ => names path

/-- Whether a path starts at the top. -/
def isAbsolute (path : Text) : Bool := path.head? = some '/'

/-- The path of a file name in a report, which may be an address of the scheme `file`. -/
def ofFilename (name : Text) : Text := (Text.after? "file://" name).getD name

end Path

/-- What a command sees of the files. -/
structure Files where
  /-- Whether a path leads to a file. -/
  isFile : Text → Bool
  /-- The content of the file that a path leads to. -/
  read? : Text → Option Text
  /-- The one name of what a path leads to. -/
  canonical? : Text → Option Text

namespace Files

/-- Whether two paths lead to the same place, or are equal if one of them leads nowhere. -/
def areSame (files : Files) (a b : Text) : Bool :=
  match files.canonical? a, files.canonical? b with
  | some a, some b => a = b
  | _, _ => Path.components a = Path.components b

/-- What is seen at the end of a path. -/
structure Sight where
  /-- Whether it is a file. -/
  isFile : Bool
  /-- Its content, if that is text. -/
  content : Option Text
  /-- Its one name. -/
  canonical : Text
  deriving DecidableEq, Repr

/-- The files as seen at the end of some paths, with nothing anywhere else. -/
def ofSights (sights : List (Text × Sight)) : Files where
  isFile path := (sights.lookup path).any (·.isFile)
  read? path := sights.lookup path >>= (·.content)
  canonical? path := (sights.lookup path).map (·.canonical)

end Files

/-- Files held in memory, by the names of their directories and their own. -/
structure Workspace where
  /-- The names on the way from the top to the working directory. -/
  directory : List Text
  /-- The names on the way from the top to each file, with its content. -/
  entries : List (List Text × Text)
  deriving DecidableEq, Repr

namespace Workspace

/-- The place that a path starts at, in a working directory. -/
def origin (directory : List Text) (path : Text) : List Text :=
  if Path.isAbsolute path then [] else directory

/-- The workspace of paths without `..` and contents, in a working directory. -/
def within (directory : List Text) (files : List (Text × Text)) : Workspace :=
  ⟨directory, files.map fun (path, content) =>
    (origin directory path ++ Path.names path, content)⟩

/-- The workspace of paths and contents in the working directory `/project`. -/
def ofList (files : List (Text × Text)) : Workspace := within ["project"] files

/-- The content of the file at a place. -/
def content? (w : Workspace) (place : List Text) : Option Text := w.entries.lookup place

/-- Whether a place is a directory: the working directory, or one with it or files below. -/
def isDirectory (w : Workspace) (place : List Text) : Bool :=
  place.isPrefixOf w.directory || w.entries.any fun (names, _) =>
    place.isPrefixOf names && place.length < names.length

/-- The place that further parts of a path lead to from a place.  Only a directory has parts below
it or above it, and above the top is the top. -/
def walk? (w : Workspace) (place : List Text) : List Text → Option (List Text)
  | [] => some place
  | part :: rest =>
      if w.isDirectory place then
        if part = [] ∨ part = ['.'] then walk? w place rest
        else if part = ['.', '.'] then walk? w place.dropLast rest
        else
          let next := place ++ [part]
          if w.isDirectory next || (w.content? next).isSome then walk? w next rest else none
      else none

/-- The place that a path leads to. -/
def resolve? (w : Workspace) (path : Text) : Option (List Text) :=
  if path.isEmpty then none else w.walk? (origin w.directory path) (Path.parts path)

/-- The content of the file that a path leads to. -/
def read? (w : Workspace) (path : Text) : Option Text := w.resolve? path >>= w.content?

/-- What a command sees of a workspace. -/
def files (w : Workspace) : Files where
  isFile path := (w.read? path).isSome
  read? := w.read?
  canonical? path := (w.resolve? path).map fun place => '/' :: Text.joined "/" place

/-- The workspace with new content in the file at a place. -/
def put (w : Workspace) (place : List Text) (content : Text) : Workspace :=
  { w with
    entries := w.entries.map fun entry => if entry.1 = place then (place, content) else entry }

/-- The workspace after a content is written to a path. -/
def write (w : Workspace) (path content : Text) : Workspace :=
  match w.resolve? path with
  | some place => w.put place content
  | none => w

/-- The workspace after contents are written to paths, one after another. -/
def writeAll (w : Workspace) (writes : List (Text × Text)) : Workspace :=
  writes.foldl (fun w (path, content) => w.write path content) w

end Workspace

end LintRepair
