/-!
The files that a request works on, in a tree of directories. A path is followed name by name, and
every name before its end has to be a directory.
-/
namespace NorFlash.Tool

/-- Why a path cannot be read or written. -/
inductive FileError where
  | missing
  | isDirectory
  | notDirectory
  | nameTooLong
  | nulInName
  deriving DecidableEq, Repr

def FileError.message : FileError → String
  | missing => "No such file or directory (os error 2)"
  | isDirectory => "Is a directory (os error 21)"
  | notDirectory => "Not a directory (os error 20)"
  | nameTooLong => "File name too long (os error 36)"
  | nulInName => "file name contained an unexpected NUL byte"

/-- A place in the tree, by the names that lead to it from the root. -/
abbrev Place := List String

/-- A path as it is written. -/
structure Path where
  isAbsolute : Bool
  /-- The names in it, among them `.` for the place itself and `..` for the one above. -/
  names : List String
  endsInSlash : Bool
  deriving DecidableEq, Repr

namespace Path

/-- The most bytes of a path and of a single name. -/
def limit : Nat := 4095

def nameLimit : Nat := 255

def ofText (text : String) : Path where
  isAbsolute := text.toList.head? = some '/'
  names := (text.splitOn "/").filter (· ≠ "")
  endsInSlash := text.toList.getLast? = some '/'

/-- The path that a text spells. -/
def parse (text : String) : Except FileError Path :=
  if text.contains '\x00' then .error .nulInName
  else if text.isEmpty then .error .missing
  else if limit < text.utf8ByteSize then .error .nameTooLong
  else .ok (ofText text)

/-- Where the path begins. -/
def start (current : Place) (path : Path) : Place :=
  if path.isAbsolute then [] else current

/-- The path ends in a name of its own, and a slash: what it leads to can only be a directory. -/
def namesDirectory (path : Path) : Bool :=
  path.endsInSlash && path.names.getLast?.any (fun name => name ≠ "." && name ≠ "..")

end Path

/-- What there is at a place. -/
inductive Node where
  | directory
  | file (bytes : ByteArray)
  /-- Reads as empty and loses what is written to it. -/
  | sink

/-- The directories at the root of a usual system. -/
def systemDirectories : List Place :=
  ["bin", "boot", "dev", "etc", "home", "lib", "media", "mnt", "opt", "proc", "root", "run",
    "sbin", "srv", "sys", "tmp", "usr", "var"].map ([·])

def nullDevice : Place := ["dev", "null"]

/-- A directory of its own among the temporary files. No path can spell its name. -/
def scratchDirectory : Place := ["tmp", "/"]

/-- Files by place. The current directory and all above it exist; others have to be listed. -/
structure Workspace where
  current : Place := scratchDirectory
  directories : List Place := systemDirectories
  files : List (Place × ByteArray) := []

namespace Workspace

/-- A workspace whose current directory holds these files, some of them in directories of it. -/
def ofFiles (files : List (String × ByteArray)) : Workspace :=
  let placed := files.map fun (name, bytes) => (scratchDirectory ++ (Path.ofText name).names, bytes)
  let above := placed.flatMap fun (place, _) => (List.range place.length).map place.take
  { directories := systemDirectories ++ above, files := placed }

def node? (place : Place) (workspace : Workspace) : Option Node :=
  if place.isPrefixOf workspace.current || workspace.directories.contains place then
    some .directory
  else if place = nullDevice then
    some .sink
  else
    (workspace.files.lookup place).map .file

def requireDirectory (place : Place) (workspace : Workspace) : Except FileError Unit :=
  match workspace.node? place with
  | some .directory => .ok ()
  | some _ => .error .notDirectory
  | none => .error .missing

/-- The place that a name leads to from a directory. The directory above the root is the root. -/
def enter (workspace : Workspace) (place : Place) (name : String) : Except FileError Place := do
  workspace.requireDirectory place
  if name = "." then
    return place
  else if name = ".." then
    return place.dropLast
  else if Path.nameLimit < name.utf8ByteSize then
    throw .nameTooLong
  else
    return place ++ [name]

def follow (names : List String) (start : Place) (workspace : Workspace) :
    Except FileError Place :=
  names.foldlM workspace.enter start

/-- What a path leads to. -/
def locate (text : String) (workspace : Workspace) : Except FileError Node := do
  let path ← Path.parse text
  let place ← workspace.follow path.names (path.start workspace.current)
  match workspace.node? place with
  | none => throw .missing
  | some .directory => return .directory
  | some node => if path.endsInSlash then throw .notDirectory else return node

def exists? (text : String) (workspace : Workspace) : Bool :=
  (workspace.locate text).toOption.isSome

def read (text : String) (workspace : Workspace) : Except FileError ByteArray := do
  match ← workspace.locate text with
  | .directory => throw .isDirectory
  | .file bytes => return bytes
  | .sink => return .empty

/-- Replaces the contents of a place, or adds them behind the other files. -/
def put (place : Place) (bytes : ByteArray) : List (Place × ByteArray) → List (Place × ByteArray)
  | [] => [(place, bytes)]
  | (file, old) :: rest =>
    if file = place then (place, bytes) :: rest else (file, old) :: put place bytes rest

/-- The place that a path gives for a file, which need not be there yet. A path of a directory is
refused as soon as all but its last name has been followed. -/
def target (text : String) (workspace : Workspace) : Except FileError Place := do
  let path ← Path.parse text
  let start := path.start workspace.current
  if path.namesDirectory then
    workspace.requireDirectory (← workspace.follow path.names.dropLast start)
    throw .isDirectory
  workspace.follow path.names start

/-- Writes a file. -/
def write (text : String) (bytes : ByteArray) (workspace : Workspace) :
    Except FileError Workspace := do
  let place ← workspace.target text
  match workspace.node? place with
  | some .directory => throw .isDirectory
  | some .sink => return workspace
  | some (.file _) | none => return { workspace with files := put place bytes workspace.files }

/-- The files of the current directory by name. -/
def listing (workspace : Workspace) : List (String × ByteArray) :=
  (workspace.files.filter fun (place, _) => workspace.current.isPrefixOf place).map
    fun (place, bytes) => ("/".intercalate (place.drop workspace.current.length), bytes)

end Workspace

end NorFlash.Tool
