import PointCloud.Device.Memory
import PointCloud.Text.Separated

/-!
# Files in a folder

A file is named by a path, which is followed from a folder that holds files and
no other folders.  Around it there are folders too, of which nothing else is
known: a path gets there by a slash at its front or by two dots, and not back
in.  `Folder.locate` says which file a path names, or why it names none.  A file
that is to be written is created when the device is acquired, and what it held
before is gone.
-/

namespace PointCloud

/-- Files by name. -/
structure Folder where
  files : List (String × Octets)
  deriving Repr, DecidableEq

namespace Folder

/-- The content of a file. -/
def find? (f : Folder) (name : String) : Option Octets := f.files.lookup name

/-- The folder with a new content of a file. -/
def put (f : Folder) (name : String) (content : Octets) : Folder :=
  ⟨(name, content) :: f.files.filter fun entry => entry.1 != name⟩

/-- The longest file name, in octets. -/
def maxNameLength : Nat := 255

/-- The longest path, in octets. -/
def maxPathLength : Nat := 4095

/-- The name under which a file is kept.  One outside the folder has a slash in front, which is in
no name inside. -/
def keyOf (inside : Bool) (name : String) : String := if inside then name else "/" ++ name

/-- Follows the parts of a path to the name of a file, from the folder or from outside.  Empty parts
and dots stay where they are, two dots lead outside, and a slash behind the last name asks for a
folder. -/
def follow (f : Folder) (inside : Bool) : List (List Char) → Except DeviceFault String
  | [] => .error .isFolder
  | part :: rest =>
    let name := String.ofList part
    let isLast := rest.all (·.isEmpty)
    if name = "" ∨ name = "." then f.follow inside rest
    else if name = ".." then f.follow false rest
    else if isLast ∧ rest ≠ [] then .error .isFolder
    else if maxNameLength < name.utf8ByteSize then .error .nameTooLong
    else if isLast then .ok (keyOf inside name)
    else if (f.find? (keyOf inside name)).isSome then .error .notFolder
    else .error .noSuchFile

/-- The parts of a path. -/
def pathParts (path : String) : List (List Char) := Text.splitOn '/' path.toList

/-- The name of the file that a path leads to. -/
def locate (f : Folder) (path : String) : Except DeviceFault String :=
  let cs := path.toList
  if cs.contains '\x00' then .error .nulInName
  else if cs = [] then .error .noSuchFile
  else if maxPathLength < path.utf8ByteSize then .error .nameTooLong
  else f.follow (cs.head? ≠ some '/') (pathParts path)

end Folder

/-- A file on its way to being written: the folder, the path of the file, and the name and the
content of the file once it has been created. -/
structure FileDevice where
  folder : Folder
  path : String
  created : Option (String × Memory)
  deriving Repr, DecidableEq

namespace FileDevice

/-- The file of a path that is not yet created. -/
def named (folder : Folder) (path : String) : FileDevice := ⟨folder, path, none⟩

/-- Creates the file, or empties it if it exists. -/
def acquire (d : FileDevice) : Except DeviceFault Unit × FileDevice :=
  match d.folder.locate d.path with
  | .ok name =>
    (.ok (), { d with folder := d.folder.put name [], created := some (name, .unlimited [] 0) })
  | .error fault => (.error fault, d)

/-- The file with a new content. -/
def update (d : FileDevice) (name : String) (m : Memory) : FileDevice :=
  { d with folder := d.folder.put name m.content, created := some (name, m) }

/-- Writes octets to the file. -/
def store (bytes : Octets) (d : FileDevice) : Except DeviceFault Unit × FileDevice :=
  match d.created with
  | some (name, m) =>
    let (result, m) := m.store bytes
    (result, d.update name m)
  | none => (.error .noSuchFile, d)

/-- Moves to a place in the file. -/
def seek (place : Nat) (d : FileDevice) : Except DeviceFault Unit × FileDevice :=
  match d.created with
  | some (name, m) => (.ok (), d.update name (m.seek place))
  | none => (.error .noSuchFile, d)

/-- The place in the file. -/
def position (d : FileDevice) : Except DeviceFault Nat × FileDevice :=
  match d.created with
  | some (_, m) => (.ok m.place, d)
  | none => (.error .noSuchFile, d)

/-- The content of the file that the path names, if there is one. -/
def content? (d : FileDevice) : Option Octets :=
  match d.folder.locate d.path with
  | .ok name => d.folder.find? name
  | .error _ => none

instance : Device FileDevice where
  acquire := acquire
  notice d := [.debug s!"creating {d.path}"]
  position := position
  store := store
  seek := seek
  flush d := (.ok (), d)

end FileDevice

end PointCloud
