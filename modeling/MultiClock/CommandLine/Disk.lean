import MultiClock.CommandLine.Files

/-! Files in memory: one directory that holds files and no other directories. What was written last
under a name is what is read. Pictures are kept as they are, and encoded only when they are read. -/

namespace MultiClock.CommandLine

inductive DiskFile
  | bytes (data : Array UInt8)
  | picture (picture : Framebuffer)

def DiskFile.contents : DiskFile → Array UInt8
  | .bytes data => data
  | .picture content => Png.encode content

structure Disk where
  /-- The path of the directory, with a slash at its end. Paths without a slash in front start
  here. -/
  root : String
  /-- Names and contents, those written last first. -/
  files : List (String × DiskFile)

namespace Disk

def empty (root : String) : Disk := ⟨root, []⟩

/-- What a path adds to the directory. None if the path leads elsewhere. -/
def inside (root path : String) : Option (List Char) :=
  if root.toList.isPrefixOf path.toList then some (path.toList.drop root.length)
  else if "/".isPrefixOf path then none
  else some path.toList

/-- Whether a file can have this name. -/
def isFileName (name : List Char) : Bool :=
  name != ['.', '.'] && !name.contains '\x00' && (String.ofList name).utf8ByteSize ≤ 255

/-- The parts of a path inside the directory that lead anywhere, which doubled slashes and single
points do not. -/
def steps (parts : List (List Char)) : List (List Char) :=
  parts.filter fun part => part != [] && part != ['.']

/-- The name in the directory that a path leads to. Slashes and points at the end ask for a
directory instead. -/
def nameOf (root path : String) : Option String := do
  let parts := (← inside root path).splitOn '/'
  match steps parts with
  | [name] =>
    if parts.getLast? = some name && isFileName name then some (String.ofList name) else none
  | _ => none

/-- Whether a path leads to the directory itself or to one above it. -/
def isDirectory (root path : String) : Bool :=
  path != "" && (inside root path).any fun rest =>
    (steps (rest.splitOn '/')).all (· == ['.', '.'])

def find? (disk : Disk) (path : String) : Option DiskFile :=
  (nameOf disk.root path).bind fun name => disk.files.lookup name

/-- Puts a file in the directory. None if the path leads elsewhere. -/
def put (disk : Disk) (path : String) (file : DiskFile) : Option Disk :=
  (nameOf disk.root path).map fun name => { disk with files := (name, file) :: disk.files }

/-- Whether a file could be put in the directory. -/
def store (path : String) (file : DiskFile) : StateM Disk Bool := fun disk =>
  match disk.put path file with
  | some disk => (true, disk)
  | none => (false, disk)

def look (disk : Disk) (path : String) : Found :=
  match disk.find? path with
  | some file => .file file.contents
  | none => if isDirectory disk.root path then .directory else .nothing

/-- Access to the files of a disk. -/
def access : Files (StateM Disk) where
  read path := do return (← get).look path
  write path data := store path (.bytes data)
  writePicture path picture := store path (.picture picture)

end Disk
end MultiClock.CommandLine
