import MultiClock.Picture.Format

/-! The files that a run reads and writes, and the paths that lead to them. -/

namespace MultiClock.CommandLine

/-- What a path leads to. -/
inductive Found
  | nothing
  | directory
  | file (data : Array UInt8)

/-- The contents, if it is a file. -/
def Found.data? : Found → Option (Array UInt8)
  | file data => some data
  | nothing | directory => none

/-- Access to files by their paths. Writing yields whether it succeeded. -/
structure Files (m : Type → Type) where
  read : String → m Found
  write : String → Array UInt8 → m Bool
  writePicture : String → Framebuffer → m Bool

namespace Path

/-- The directories of a path, up to and including the last slash, and the name that follows.
Slashes at the end do not count. -/
def splitName (path : String) : List Char × List Char :=
  let backwards := path.toList.reverse.dropWhile (· == '/')
  ((backwards.dropWhile (· != '/')).reverse, (backwards.takeWhile (· != '/')).reverse)

/-- A name up to its last point, and the extension after it. A point in front of a name does not
begin an extension. -/
def splitExtension (name : List Char) : List Char × Option (List Char) :=
  let backwards := name.reverse
  let extension := (backwards.takeWhile (· != '.')).reverse
  match (backwards.dropWhile (· != '.')).drop 1 with
  | [] => (name, none)
  | stem => if name = ['.', '.'] then (name, none) else (stem.reverse, some extension)

/-- The path of the file next to another one, of the same name with another extension. Where the
name up to its last point stands for a directory, the path leads there and gets no extension. -/
def withExtension (extension path : String) : String :=
  let (directories, name) := splitName path
  let (stem, former) := splitExtension name
  if name = [] ∨ name = ['.', '.'] then path
  else if stem = ['.'] ∧ former.isSome then String.ofList (directories ++ ['.', '.'])
  else String.ofList (directories ++ stem ++ '.' :: extension.toList)

/-- The extension of a path's name, in small letters. -/
def extension (path : String) : Option String :=
  (splitExtension (splitName path).2).2.map fun extension =>
    String.ofList (extension.map Char.toLower)

end Path

/-- Writes a picture in the format that the extension names. For formats in which no picture is
written the file is left empty. -/
def Files.savePicture [Monad m] (files : Files m) (path : String) (picture : Framebuffer) :
    m Bool := do
  match Path.extension path with
  | none => return false
  | some extension =>
    match PictureFormat.ofExtension? extension with
    | some .png => files.writePicture path picture
    | some format => files.write path (format.encode picture)
    | none =>
      if PictureFormat.unfit.contains extension then
        let _ ← files.write path #[]
      return false

end MultiClock.CommandLine
