import Headend.Host.Failure
import Headend.Host.Path
import Headend.Text.Utf8

/-!
# Files

A tree of directories and files. A file's place in the tree and its content are apart: a file that
is open can be written wherever it has been moved to, and even when it has been removed. Paths are
looked up name by name, and each request fails as the host would have it.

Facts: `contentOf_append` and `contentOf_append_of_ne` (writing reaches one file only),
`openForWriting_of_slash` (no file is opened by a path that can only be meant for a directory).
-/

namespace Headend.Host

open Headend.Text (Octets)

/-- A place in the tree: the names from the root. -/
abbrev Place := List String

/-- The identity of a file, whatever its place. -/
abbrev FileId := Nat

/-- What stands at a place. -/
inductive Node where
  | directory
  | file (id : FileId)
deriving DecidableEq

/-- The tree, the contents of the files by identity, and where relative paths start. -/
structure FileSystem where
  nodes : List (Place × Node) := []
  contents : List Octets := []
  workingDirectory : Place := []
deriving DecidableEq

namespace FileSystem

/-! ### Looking up -/

/-- What stands at a place. The root is a directory. -/
def node? (fs : FileSystem) (p : Place) : Option Node :=
  if p = [] then some .directory else fs.nodes.lookup p

/-- The content of a file. -/
def contentOf (fs : FileSystem) (id : FileId) : Octets := fs.contents[id]?.getD []

/-- The most octets of a name. -/
def maxNameSize : Nat := 255

/-- The most octets of a path. -/
def maxPathSize : Nat := 4095

/-- Whether a name is too long to stand in a directory. -/
def isLongName (name : String) : Bool := maxNameSize < Text.size name.toList

/-- Goes from a directory to the directory of a name. -/
def enter (fs : FileSystem) (p : Place) (name : String) : Except Failure Place :=
  if name = "." then .ok p
  else if name = ".." then .ok p.dropLast
  else if isLongName name then .error .nameTooLong
  else
    match fs.node? (p ++ [name]) with
    | some .directory => .ok (p ++ [name])
    | some (.file _) => .error .notDirectory
    | none => .error .missing

/-- What a path leads to. -/
inductive Target where
  /-- A directory that is named by where it stands, as in `.`. -/
  | directory (p : Place)
  /-- A name in a directory, whether or not something stands there. -/
  | entry (p : Place) (slash : Bool)

/-- Refuses a text that no request takes for a path. -/
def checkPath (path : String) : Except Failure Unit :=
  if path.toList.contains '\x00' then .error .endInPath
  else if path = "" then .error .missing
  else if maxPathSize < Text.size path.toList then .error .nameTooLong
  else .ok ()

/-- What a path leads to, if the directories on the way are there. The last name is not looked up,
so nothing is said about its size. -/
def locate (fs : FileSystem) (path : String) : Except Failure Target := do
  checkPath path
  let names := pathNames path
  match names.getLast? with
  | none => return .directory []
  | some last =>
    let start := if isAbsolute path then [] else fs.workingDirectory
    let p ← names.dropLast.foldlM fs.enter start
    if last = "." then return .directory p
    if last = ".." then return .directory p.dropLast
    return .entry (p ++ [last]) (endsWithSlash path)

/-- Looks up the last name of a place in its directory. -/
def lookUp (fs : FileSystem) (p : Place) : Except Failure (Option Node) :=
  if p.getLast?.any isLongName then .error .nameTooLong else .ok (fs.node? p)

/-- What stands where a path leads. -/
def find (fs : FileSystem) (path : String) : Except Failure Node := do
  match ← fs.locate path with
  | .directory _ => return .directory
  | .entry p slash =>
    match ← fs.lookUp p with
    | none => throw .missing
    | some (.file id) => if slash then throw .notDirectory else return .file id
    | some .directory => return .directory

/-! ### Requests of the process -/

/-- Opens a file for writing, which creates it if it is missing. An existing file keeps its content
unless it is to be emptied. A path that can only be meant for a directory is refused before its last
name is looked up. -/
def openForWriting (fs : FileSystem) (path : String) (empty : Bool) :
    Except Failure (FileId × FileSystem) := do
  match ← fs.locate path with
  | .directory _ => throw .isDirectory
  | .entry p slash =>
    if slash then throw .isDirectory
    match ← fs.lookUp p with
    | some .directory => throw .isDirectory
    | some (.file id) =>
      return (id, if empty then { fs with contents := fs.contents.set id [] } else fs)
    | none =>
      let id := fs.contents.length
      return (id, { fs with nodes := fs.nodes ++ [(p, .file id)], contents := fs.contents ++ [[]] })

/-- Writes octets after the content of a file that is open. -/
def append (fs : FileSystem) (id : FileId) (bs : Octets) : FileSystem :=
  { fs with contents := fs.contents.set id (fs.contentOf id ++ bs) }

/-- The octets of a file. A directory opens but cannot be read. -/
def read (fs : FileSystem) (path : String) : Except Failure Octets := do
  match ← fs.find path with
  | .directory => throw .isDirectory
  | .file id => return fs.contentOf id

/-- The tree without the entry of a place. -/
def erase (fs : FileSystem) (p : Place) : FileSystem :=
  { fs with nodes := fs.nodes.filter fun e => e.1 != p }

/-- Removes a file, and tells which it was. -/
def removeFile (fs : FileSystem) (path : String) : Except Failure (FileId × FileSystem) := do
  match ← fs.locate path with
  | .directory _ => throw .isDirectory
  | .entry p slash =>
    match ← fs.lookUp p with
    | none => throw .missing
    | some .directory => throw .isDirectory
    | some (.file id) => if slash then throw .notDirectory else return (id, fs.erase p)

/-- The names of the entries of a directory, in the order of the tree. -/
def namesIn (fs : FileSystem) (p : Place) : List String :=
  fs.nodes.filterMap fun e =>
    match e.1.getLast? with
    | some name => if e.1.dropLast = p then some name else none
    | none => none

/-- The names of the entries of the directory of a path. -/
def listDirectory (fs : FileSystem) (path : String) : Except Failure (List String) := do
  match ← fs.locate path with
  | .directory p => return fs.namesIn p
  | .entry p _ =>
    match ← fs.lookUp p with
    | none => throw .missing
    | some (.file _) => throw .notDirectory
    | some .directory => return fs.namesIn p

/-! ### What others do to the tree -/

/-- Moves an entry, with all that is below it, from one place to another. -/
def move (fs : FileSystem) (source target : Place) : FileSystem :=
  { fs with
    nodes := fs.nodes.map fun e =>
      if source.isPrefixOf e.1 then (target ++ e.1.drop source.length, e.2) else e }

/-- Renames an entry. A file takes the place of a file, and a directory that of an empty one; what
cannot be renamed stays. -/
def rename (fs : FileSystem) (a b : String) : FileSystem :=
  match fs.locate a, fs.locate b with
  | .ok (.entry p slash), .ok (.entry q slash') =>
    if p = q then fs
    else
      match fs.node? p, fs.lookUp q with
      | some (.file _), .ok (some (.file _)) =>
        if slash || slash' then fs else (fs.erase q).move p q
      | some (.file _), .ok none => if slash || slash' then fs else fs.move p q
      | some .directory, .ok (some .directory) =>
        if p.isPrefixOf q || !(fs.namesIn q).isEmpty then fs else (fs.erase q).move p q
      | some .directory, .ok none => if p.isPrefixOf q then fs else fs.move p q
      | _, _ => fs
  | _, _ => fs

/-- Removes a directory with all that is below it. A directory that is named by where it stands
only loses what is below it. -/
def removeTree (fs : FileSystem) (path : String) : FileSystem :=
  match fs.locate path with
  | .ok (.entry p _) =>
    if fs.node? p = some .directory then
      { fs with nodes := fs.nodes.filter fun e => !p.isPrefixOf e.1 }
    else fs
  | .ok (.directory p) =>
    { fs with nodes := fs.nodes.filter fun e => !p.isPrefixOf e.1 || e.1 == p }
  | .error _ => fs

/-- Makes the directories on the way of a path that are missing, up to a file that is in the way.
-/
def makeFrom (fs : FileSystem) (p : Place) : List String → FileSystem
  | [] => fs
  | name :: rest =>
    match fs.enter p name with
    | .ok q => fs.makeFrom q rest
    | .error .missing =>
      makeFrom { fs with nodes := fs.nodes ++ [(p ++ [name], .directory)] } (p ++ [name]) rest
    | .error _ => fs

/-- Makes a directory and those above it. -/
def makeDirectory (fs : FileSystem) (path : String) : FileSystem :=
  match checkPath path with
  | .ok () => fs.makeFrom (if isAbsolute path then [] else fs.workingDirectory) (pathNames path)
  | .error _ => fs

/-- Writes a whole file. -/
def writeFile (fs : FileSystem) (path : String) (bs : Octets) : FileSystem :=
  match fs.openForWriting path true with
  | .ok (id, fs) => fs.append id bs
  | .error _ => fs

/-! ### The working directory as a whole -/

/-- The names in a place below the working directory with slashes between them. -/
def relativeName (fs : FileSystem) (p : Place) : Option String :=
  if fs.workingDirectory.isPrefixOf p && p.length != fs.workingDirectory.length then
    some ("/".intercalate (p.drop fs.workingDirectory.length))
  else none

/-- The entries below the working directory: the name, which ends with a slash for a directory, and
the content. -/
def snapshot (fs : FileSystem) : List (String × Octets) :=
  fs.nodes.filterMap fun e =>
    (fs.relativeName e.1).map fun name =>
      match e.2 with
      | .directory => (name ++ "/", [])
      | .file id => (name, fs.contentOf id)

/-- Names in ascending order. -/
def sortNames (names : List String) : List String := names.mergeSort fun a b => !decide (b < a)

/-- The names below the working directory in ascending order. -/
def listing (fs : FileSystem) : List String := sortNames (fs.snapshot.map (·.1))

/-- The entries that are new or have another content than they had, in ascending order. -/
def since (fs old : FileSystem) : List (String × Octets) :=
  (fs.snapshot.filter fun e => !old.snapshot.contains e).mergeSort fun a b => !decide (b.1 < a.1)

/-- The names of the entries that are gone, in ascending order. -/
def goneSince (fs old : FileSystem) : List String :=
  let names := fs.snapshot.map (·.1)
  sortNames ((old.snapshot.map (·.1)).filter fun name => !names.contains name)

/-! ### Opening -/

theorem openForWriting_of_slash {fs : FileSystem} {path : String} {p : Place}
    (h : fs.locate path = .ok (.entry p true)) (empty : Bool) :
    fs.openForWriting path empty = .error .isDirectory := by
  simp only [openForWriting, h]
  rfl

/-! ### Writing reaches one file -/

theorem contentOf_append (fs : FileSystem) {id : FileId} (h : id < fs.contents.length)
    (bs : Octets) : (fs.append id bs).contentOf id = fs.contentOf id ++ bs := by
  simp [append, contentOf, h]

theorem contentOf_append_of_ne (fs : FileSystem) {id other : FileId} (h : id ≠ other)
    (bs : Octets) : (fs.append id bs).contentOf other = fs.contentOf other := by
  simp [append, contentOf, List.getElem?_set_ne h]

end FileSystem

end Headend.Host
