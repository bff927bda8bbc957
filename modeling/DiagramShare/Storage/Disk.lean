/-!
A directory tree with files. A path is a list of names below the root; it is followed name by name,
and each step needs a directory to start from and a name that is not too long.
-/
namespace DiagramShare.Storage

abbrev Path := List String
abbrev Bytes := List UInt8

def maxName : Nat := 255

/-- Directories other than the root, and files with their content. -/
structure Disk where
  directories : List Path
  files : List (Path × Bytes)
  deriving DecidableEq

namespace Disk

def empty : Disk := ⟨[], []⟩

inductive Fault where
  | missing
  | exists_
  | notDirectory
  | isDirectory
  | nameTooLong
  deriving DecidableEq, Repr

def Fault.message : Fault → String
  | missing => "No such file or directory (os error 2)"
  | exists_ => "File exists (os error 17)"
  | notDirectory => "Not a directory (os error 20)"
  | isDirectory => "Is a directory (os error 21)"
  | nameTooLong => "File name too long (os error 36)"

inductive Entry where
  | directory
  | file (content : Bytes)

def isDirectory (d : Disk) (path : Path) : Bool := path.isEmpty || d.directories.contains path

def file? (d : Disk) (path : Path) : Option Bytes := d.files.lookup path

def isTooLong (name : String) : Bool := maxName < name.utf8ByteSize

/-- Follows the names of `rest` from the directory `here`. -/
def follow (d : Disk) (here : Path) : Path → Except Fault Entry
  | [] => .ok .directory
  | name :: rest =>
    let next := here ++ [name]
    if isTooLong name then .error .nameTooLong
    else if d.isDirectory next then follow d next rest
    else match d.file? next with
      | some content => if rest.isEmpty then .ok (.file content) else .error .notDirectory
      | none => .error .missing

def entry (d : Disk) (path : Path) : Except Fault Entry := d.follow [] path

/-- Makes the directories of `rest` below the directory `here`, up to the first that fails. -/
def makeBelow (d : Disk) (here : Path) : Path → Disk × Option Fault
  | [] => (d, none)
  | name :: rest =>
    let next := here ++ [name]
    if isTooLong name then (d, some .nameTooLong)
    else if d.isDirectory next then makeBelow d next rest
    else if (d.file? next).isSome then
      (d, some (if rest.isEmpty then .exists_ else .notDirectory))
    else makeBelow { d with directories := d.directories ++ [next] } next rest

def makeDirectories (d : Disk) (path : Path) : Disk × Option Fault := d.makeBelow [] path

def without (files : List (Path × Bytes)) (path : Path) : List (Path × Bytes) :=
  files.filter fun f => f.1 != path

def write (d : Disk) (path : Path) (content : Bytes) : Disk :=
  { d with files := without d.files path ++ [(path, content)] }

def erase (d : Disk) (path : Path) : Disk := { d with files := without d.files path }

def create (d : Disk) (path : Path) : Except Fault Disk :=
  match d.entry path with
  | .ok .directory => .error .isDirectory
  | .ok (.file _) => .ok (d.write path [])
  | .error .missing => .ok (d.write path [])
  | .error fault => .error fault

/-- Moves a file over whatever file stands at another path. -/
def move (d : Disk) (source target : Path) : Except Fault Disk :=
  match d.file? source with
  | none => .error .missing
  | some content =>
    if d.isDirectory target then .error .isDirectory
    else .ok ((d.erase source).write target content)

def remove (d : Disk) (path : Path) : Except Fault Disk :=
  match d.entry path with
  | .ok .directory => .error .isDirectory
  | .ok (.file _) => .ok (d.erase path)
  | .error fault => .error fault

def read (d : Disk) (path : Path) : Except Fault Bytes :=
  match d.entry path with
  | .ok .directory => .error .isDirectory
  | .ok (.file content) => .ok content
  | .error fault => .error fault

def pathText (path : Path) : String := "/".intercalate path

def listing (d : Disk) : List (String × Nat) :=
  (d.files.map fun f => (pathText f.1, f.2.length)).mergeSort fun a b => a.1 ≤ b.1

end Disk

end DiagramShare.Storage
