import ExperimentCharts.Drawing.Png
import ExperimentCharts.Error
import ExperimentCharts.Files.Path

namespace ExperimentCharts

/-- What a file holds: bytes, or a picture, kept as its drawing. -/
inductive Content where
  | bytes (data : List UInt8)
  | picture (drawing : Drawing)
deriving DecidableEq

/-- The bytes of a file. -/
def Content.toBytes : Content → List UInt8
  | .bytes data => data
  | .picture drawing => drawing.toPng.toList

/-- Whether a file has no bytes. Every picture has some. -/
def Content.isEmpty : Content → Bool
  | .bytes data => data.isEmpty
  | .picture _ => false

/-- What stands at a place of the disk. -/
inductive Node where
  | directory
  | file (content : Content)
  /-- A device, which keeps nothing and either takes everything or has no room for a single byte. -/
  | device (isFull : Bool)
deriving DecidableEq

/-- The names that lead from the root to a place of the disk. -/
abbrev Location := List String

/-- The files and directories, apart from the root, which is always there. There are no links, so that
    two locations never share a file. Whatever is there can be found and read, but the system can refuse
    to have it changed. -/
structure Disk where
  nodes : List (Location × Node)
  /-- Where relative paths start. -/
  home : Location
  /-- How many bytes a new file can hold before the disk is full, if there is a limit. -/
  room : Option Nat := none
  /-- Why the system refuses to make or to change the file at a location, if it does. -/
  writeRefusal? : Location → Option FileError := fun _ => none
  /-- Why the system refuses to remove the file at a location, if it does. -/
  removalRefusal? : Location → Option FileError := fun _ => none

namespace Disk

/-- What stands at a location, if anything does. -/
def node? (disk : Disk) (location : Location) : Option Node :=
  if location.isEmpty then some .directory else disk.nodes.lookup location

/-- The most bytes that a name can have. -/
def nameLimit : Nat := 255

/-- The most bytes that a path can have. -/
def pathLimit : Nat := 4095

/-- Refuses paths that no disk can follow. -/
def checkPath (path : String) : Except FileError Unit :=
  if path.toList.contains '\x00' then .error .nulInPath
  else if path = "" then .error .notFound
  else if pathLimit < path.utf8ByteSize then .error .nameTooLong
  else .ok ()

/-- Follows names from a location. Every name but the last has to lead to a directory. -/
def walk (disk : Disk) (location : Location) : List String → Except FileError Location
  | [] => .ok location
  | name :: names =>
    match disk.node? location with
    | none => .error .notFound
    | some .directory =>
      if name = "" ∨ name = "." then disk.walk location names
      else if name = ".." then disk.walk location.dropLast names
      else if nameLimit < name.utf8ByteSize then .error .nameTooLong
      else disk.walk (location ++ [name]) names
    | some _ => .error .notDirectory

/-- The location from which a path is followed. -/
def start (disk : Disk) (path : String) : Location :=
  if Path.isAbsolute path then [] else disk.home

/-- What a path leads to. It is followed name by name, from the root or from the home directory. -/
def find (disk : Disk) (path : String) : Except FileError (Location × Node) := do
  checkPath path
  let location ← disk.walk (disk.start path) (Path.names path)
  match disk.node? location with
  | some node => .ok (location, node)
  | none => .error .notFound

/-- Whether a path leads anywhere. -/
def contains (disk : Disk) (path : String) : Bool := (disk.find path).isOk

/-- Whether a path leads to a directory. -/
def isDirectory (disk : Disk) (path : String) : Bool :=
  match disk.find path with
  | .ok (_, .directory) => true
  | _ => false

/-- The content of the file at a path. -/
def read (disk : Disk) (path : String) : Except FileError Content := do
  match ← disk.find path with
  | (_, .file content) => .ok content
  | (_, .directory) => .error .isDirectory
  | (_, .device _) => .ok (.bytes [])

/-- The location for a file that is to be made at a path. Its directory has to be there. A path that
    ends in a slash or in dots stands for a directory. -/
def destination (disk : Disk) (path : String) : Except FileError Location := do
  checkPath path
  let names := Path.names path
  let trimmed := (names.reverse.dropWhile (· == "")).reverse
  match trimmed.getLast? with
  | none => .error .isDirectory
  | some name =>
    let parent ← disk.walk (disk.start path) trimmed.dropLast
    match disk.node? parent with
    | none => .error .notFound
    | some .directory =>
      let location := parent ++ [name]
      if trimmed.length < names.length ∨ name = "." ∨ name = ".." then .error .isDirectory
      else if nameLimit < name.utf8ByteSize then .error .nameTooLong
      else if disk.node? location = some .directory then .error .isDirectory
      else .ok location
    | some _ => .error .notDirectory

/-- The disk with something at a location. -/
def put (disk : Disk) (location : Location) (node : Node) : Disk :=
  { disk with nodes := (location, node) :: disk.nodes.filter fun entry => entry.1 ≠ location }

/-- The disk with nothing at a location. -/
def erase (disk : Disk) (location : Location) : Disk :=
  { disk with nodes := disk.nodes.filter fun entry => entry.1 ≠ location }

/-- Gives a file its content. The file is made or emptied first, unless the system refuses. If the disk
    runs full, the bytes that there was room for stay. -/
def store (disk : Disk) (path : String) (content : Content) : Except FileError Unit × Disk :=
  match disk.destination path with
  | .error error => (.error error, disk)
  | .ok location =>
    match disk.writeRefusal? location, disk.node? location, disk.room with
    | some error, _, _ => (.error error, disk)
    | none, some (.device isFull), _ =>
      (if isFull && !content.isEmpty then .error .noSpace else .ok (), disk)
    | none, _, none => (.ok (), disk.put location (.file content))
    | none, _, some room =>
      if content.toBytes.length ≤ room then (.ok (), disk.put location (.file content))
      else (.error .noSpace, disk.put location (.file (.bytes (content.toBytes.take room))))

/-- Writes bytes to a file. -/
def write (disk : Disk) (path : String) (data : List UInt8) : Except FileError Unit × Disk :=
  disk.store path (.bytes data)

/-- Saves a picture. -/
def save (disk : Disk) (path : String) (drawing : Drawing) : Except FileError Unit × Disk :=
  disk.store path (.picture drawing)

/-- Removes a file, unless the system refuses. A directory is not removed. -/
def remove (disk : Disk) (path : String) : Except FileError Unit × Disk :=
  match disk.find path with
  | .error error => (.error error, disk)
  | .ok (_, .directory) => (.error .isDirectory, disk)
  | .ok (location, _) =>
    match disk.removalRefusal? location with
    | some error => (.error error, disk)
    | none => (.ok (), disk.erase location)

/-- Makes a directory, unless something stands at its place. -/
def makeDirectory (disk : Disk) (path : String) : Disk :=
  match checkPath path, disk.walk (disk.start path) (Path.names path) with
  | .ok _, .ok location =>
    if (disk.node? location).isSome then disk else disk.put location .directory
  | _, _ => disk

/-- The names that lead from one location to another one below it. -/
def below? : Location → Location → Option Location
  | [], names => if names.isEmpty then none else some names
  | _ :: _, [] => none
  | name :: names, name' :: names' => if name = name' then below? names names' else none

/-- The paths of everything below the home directory, in ascending order; those of directories end in
    a slash. -/
def listing (disk : Disk) : List String :=
  let paths := disk.nodes.filterMap fun entry =>
    (below? disk.home entry.1).map fun names =>
      "/".intercalate names ++ if entry.2 = .directory then "/" else ""
  paths.mergeSort fun a b => decide (a ≤ b)

end Disk

end ExperimentCharts
