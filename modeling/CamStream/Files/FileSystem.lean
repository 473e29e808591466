import CamStream.Bytes
import CamStream.Files.FileError
import CamStream.Files.Path
import CamStream.KeyedList

/-!
# File systems

A file system is a tree of directories and regular files, kept as a table from locations to
nodes. A location is the list of names that leads from the root to a node; paths are resolved to
locations from the working directory. There are no links, so a file has one location at a time.

A file has a number of its own that stays with it when the file is moved: an open handle names
its file by this number. Writing through a handle whose file was replaced changes nothing that a
path can reach.

* `node?_put`, `node?_remove`: putting or removing a node changes what one location holds and
  nothing else.
-/

namespace CamStream

/-- The names from the root to a node. -/
abbrev Location := List String

/-- What a location holds. -/
inductive Node where
  | file (number : Nat) (bytes : Bytes)
  | directory (mode : Nat)
deriving DecidableEq, Repr

namespace Node

/-- Whether a node is a directory. -/
def isDirectory : Node → Bool
  | directory _ => true
  | file .. => false

/-- The permission bits of regular files. -/
def fileMode : Nat := 0o644

/-- The permission bits of a node. -/
def mode : Node → Nat
  | file .. => fileMode
  | directory mode => mode

end Node

/-- An open file and the position of the next write. -/
structure Handle where
  number : Nat
  position : Nat := 0
deriving DecidableEq, Repr

/-- A file system with a working directory. -/
structure FileSystem where
  nodes : KeyedList Location Node := []
  workingDirectory : Location := []
  /-- The number of the next new file. -/
  nextNumber : Nat := 0
deriving DecidableEq, Repr

namespace FileSystem

/-- The longest name of a node, in bytes. -/
def maxNameSize : Nat := 255

/-- The longest path, in bytes. -/
def maxPathSize : Nat := 4095

/-- The permission bits of a directory that anyone may look into. -/
def openMode : Nat := 0o755

/-- The permission bits of a directory that only its owner may look into. -/
def privateMode : Nat := 0o700

/-! ## The table of nodes -/

/-- What a location holds. The root is always a directory. -/
def node? (files : FileSystem) (location : Location) : Option Node :=
  if location = [] then some (.directory openMode) else files.nodes.get? location

/-- Whether a location holds a directory. -/
def isDirectoryAt (files : FileSystem) (location : Location) : Bool :=
  (files.node? location).any (·.isDirectory)

/-- The file system with another node at a location. -/
def put (files : FileSystem) (location : Location) (node : Node) : FileSystem :=
  { files with nodes := files.nodes.put location node }

/-- The file system without the node at a location. -/
def remove (files : FileSystem) (location : Location) : FileSystem :=
  { files with nodes := files.nodes.erase location }

theorem node?_put (files : FileSystem) {location : Location} (node : Node) (h : location ≠ [])
    (other : Location) :
    (files.put location node).node? other = if other = location then some node else files.node? other := by
  simp only [node?, put, KeyedList.get?_put]
  grind

theorem node?_remove (files : FileSystem) {location : Location} (h : location ≠ [])
    (other : Location) :
    (files.remove location).node? other = if other = location then none else files.node? other := by
  simp only [node?, remove, KeyedList.get?_erase]
  grind

/-! ## Resolving paths -/

/-- Take one step from a location. Only a directory can be left or gone into. -/
def step (files : FileSystem) (location : Location) (step : Path.Step) :
    Except FileError Location :=
  if files.isDirectoryAt location then
    match step with
    | .up => .ok location.dropLast
    | .into name =>
      if maxNameSize < name.utf8ByteSize then .error .nameTooLong
      else if (files.node? (location ++ [name])).isSome then .ok (location ++ [name])
      else .error .notFound
  else .error .notADirectory

/-- Take steps from a location, in order. -/
def walk (files : FileSystem) (location : Location) :
    List Path.Step → Except FileError Location
  | [] => .ok location
  | first :: rest => do
    let next ← files.step location first
    files.walk next rest

/-- Where a path starts. -/
def origin (files : FileSystem) (path : Path) : Location :=
  if path.isAbsolute then [] else files.workingDirectory

/-- A path that names nothing, whatever the file system holds. -/
def pathFault? (path : Path) : Option FileError :=
  if path.text.toList.contains '\x00' then some .invalidPath
  else if path.text = "" then some .notFound
  else if maxPathSize < path.text.utf8ByteSize then some .nameTooLong
  else none

/-- Refuse a path that names nothing. -/
def checkPath (path : Path) : Except FileError Unit :=
  match pathFault? path with
  | some fault => .error fault
  | none => .ok ()

/-- The location that a path leads to. -/
def locate (files : FileSystem) (path : Path) : Except FileError Location := do
  checkPath path
  let location ← files.walk (files.origin path) path.steps
  if path.endsInDirectory && !files.isDirectoryAt location then throw .notADirectory
  return location

/-- The directory in which a path names an entry, which need not exist, and the name of the
entry. There is no name when the path ends in `.`, in `..` or at the root. -/
def locateEntry (files : FileSystem) (path : Path) :
    Except FileError (Location × Option String) := do
  checkPath path
  let steps := if path.lastName?.isSome then path.steps.dropLast else path.steps
  let parent ← files.walk (files.origin path) steps
  if !files.isDirectoryAt parent then throw .notADirectory
  return (parent, path.lastName?)

/-- The location of an entry with a name that a directory can hold. -/
def entryLocation (parent : Location) (name : String) : Except FileError Location :=
  if maxNameSize < name.utf8ByteSize then .error .nameTooLong else .ok (parent ++ [name])

/-! ## Operations -/

/-- Whether a path leads to a directory. -/
def isDirectory (files : FileSystem) (path : Path) : Bool :=
  match files.locate path with
  | .ok location => files.isDirectoryAt location
  | .error _ => false

/-- The permission bits of what a path leads to. -/
def mode? (files : FileSystem) (path : Path) : Option Nat :=
  match files.locate path with
  | .ok location => (files.node? location).map (·.mode)
  | .error _ => none

/-- Make a directory in a directory that exists. -/
def makeDirectory (files : FileSystem) (path : Path) (mode : Nat) :
    Except FileError FileSystem := do
  let (parent, name?) ← files.locateEntry path
  let some name := name? | throw .alreadyExists
  let location ← entryLocation parent name
  if (files.node? location).isSome then throw .alreadyExists
  return files.put location (.directory mode)

/-- The bytes of a file. -/
def read (files : FileSystem) (path : Path) : Except FileError Bytes := do
  match files.node? (← files.locate path) with
  | some (.file _ bytes) => .ok bytes
  | some (.directory _) => .error .isADirectory
  | none => .error .notFound

/-- Open a file for writing: a file that exists is emptied, one that does not is made. -/
def create (files : FileSystem) (path : Path) : Except FileError (Handle × FileSystem) := do
  let (parent, name?) ← files.locateEntry path
  let some name := name? | throw .isADirectory
  if path.endsInSlash then throw .isADirectory
  let location ← entryLocation parent name
  match files.node? location with
  | some (.directory _) => throw .isADirectory
  | some (.file number _) => return ({ number }, files.put location (.file number []))
  | none =>
    let number := files.nextNumber
    return ({ number }, { files.put location (.file number []) with nextNumber := number + 1 })

/-- Contents with bytes written at a position; a gap before the position is filled with zeros. -/
def overwrite (contents : Bytes) (position : Nat) (bytes : Bytes) : Bytes :=
  contents.take position ++ List.replicate (position - contents.length) 0 ++ bytes ++
    contents.drop (position + bytes.length)

/-- Write through a handle, which moves on behind the bytes. -/
def write (files : FileSystem) (handle : Handle) (bytes : Bytes) : Handle × FileSystem :=
  let update : Location × Node → Location × Node
    | (location, .file number contents) =>
      if number = handle.number then (location, .file number (overwrite contents handle.position bytes))
      else (location, .file number contents)
    | entry => entry
  ({ handle with position := handle.position + bytes.length },
    { files with nodes := files.nodes.map update })

/-- Move a file to another place in one step, replacing the file that is there. -/
def rename (files : FileSystem) (source target : Path) : Except FileError FileSystem := do
  let sourceLocation ← files.locate source
  let (parent, name?) ← files.locateEntry target
  let some name := name? | throw .isADirectory
  let location ← entryLocation parent name
  if files.isDirectoryAt location then throw .isADirectory
  match files.node? sourceLocation with
  | some node@(.file ..) => return (files.remove sourceLocation).put location node
  | some (.directory _) => throw .isADirectory
  | none => throw .notFound

/-! ## Building and listing -/

/-- A file system with nothing but an empty working directory, and the path of that directory. -/
def emptyWorkspace : FileSystem × Path :=
  let files : FileSystem := { workingDirectory := ["work"] }
  (files.put ["work"] (.directory openMode), ⟨"/work"⟩)

/-- Make the missing directories on the way to a location. -/
def addDirectories (files : FileSystem) (base : Location) : List String → FileSystem
  | [] => files
  | name :: names =>
    let location := base ++ [name]
    let files :=
      if (files.node? location).isSome then files else files.put location (.directory openMode)
    files.addDirectories location names

/-- Put a file below the working directory, with the directories it needs. -/
def addFile (files : FileSystem) (names : List String) (bytes : Bytes) : FileSystem :=
  let files := files.addDirectories files.workingDirectory names.dropLast
  let number := files.nextNumber
  { files.put (files.workingDirectory ++ names) (.file number bytes) with nextNumber := number + 1 }

/-- The files below the working directory: the names that lead to each, and its bytes. -/
def tree (files : FileSystem) : List (List String × Bytes) :=
  files.nodes.filterMap fun
    | (location, .file _ bytes) =>
      if files.workingDirectory.isPrefixOf location then
        some (location.drop files.workingDirectory.length, bytes)
      else none
    | _ => none

end FileSystem

end CamStream
