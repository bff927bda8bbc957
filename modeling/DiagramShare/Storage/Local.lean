import DiagramShare.Log
import DiagramShare.Storage.Address
import DiagramShare.Storage.Failure
import DiagramShare.Storage.Transfer
import DiagramShare.Text.Hex

/-!
Storage in a directory tree. An object lies at the segments of its key. An upload first fills a
hidden file beside its destination and moves it there when it is complete, so that the destination
holds either its old content or the new one. `Local.states` lists what the tree goes through.
-/
namespace DiagramShare.Storage.Local

open DiagramShare.Text

def pathOf (key : String) : Path := (Key.pieces key.toList).map String.ofList

def tag (n : Nat) : String :=
  let digits := hexDigits (n % 18446744073709551616)
  String.ofList (List.replicate (16 - digits.length) '0' ++ digits)

/-- The hidden file that an upload of `name` fills. -/
def stagingName (name : String) (number : Nat) : String := s!".{name}.{tag number}.part"

def stagingPath (path : Path) (number : Nat) : Path :=
  path.dropLast ++ [stagingName (path.getLastD "") number]

def failure (key : String) : Disk.Fault → Failure
  | .missing => .missing key
  | fault => .io fault.message

/-- The trees that a file being filled piece by piece goes through. -/
def fill (d : Disk) (path : Path) (written : Bytes) : List Bytes → List Disk
  | [] => []
  | piece :: rest =>
    let written := written ++ piece
    d.write path written :: fill d path written rest

/-- Drops a staging file; the last tree of an upload that failed. -/
def dropStaging (d : Disk) (path : Path) : Disk := d.erase path

structure Upload where
  states : List Disk
  result : Except Failure Unit
  records : List LogRecord

def leftover (root : String) (staging : Path) (fault : Disk.Fault) : LogRecord :=
  ⟨.warn, s!"Failed to remove partial upload {root}/{Disk.pathText staging}: {fault.message}"⟩

/-- Fills the staging file, and moves it to its place if the content comes to its end. -/
def transfer (root : String) (d : Disk) (path staging : Path) (content : Content) : Upload :=
  match d.create staging with
  | .error fault =>
    ⟨[], .error (.io fault.message),
      if fault = .missing then [] else [leftover root staging fault]⟩
  | .ok created =>
    let filled := fill created staging [] content.pieces
    let last := filled.getLastD created
    let states := created :: filled
    let dropped (e : Failure) : Upload := ⟨states ++ [dropStaging last staging], .error e, []⟩
    match content.ending with
    | .broken text => dropped (.io text)
    | .cancelled => dropped .cancelled
    | .cancelledAtEnd => dropped .cancelled
    | .complete =>
      match last.move staging path with
      | .ok moved => ⟨states ++ [moved], .ok (), []⟩
      | .error fault => dropped (.io fault.message)

def uploadTo (root : String) (d : Disk) (path : Path) (number : Nat) (content : Content) : Upload :=
  match d.makeDirectories path.dropLast with
  | (made, some fault) => ⟨[made], .error (.io fault.message), []⟩
  | (made, none) =>
    let t := transfer root made path (stagingPath path number) content
    ⟨made :: t.states, t.result, t.records⟩

def canonical (key : String) : Except Failure String := (Key.normalize key).mapError .badKey

/-- The trees that an upload goes through, in order, and its result. -/
def uploadStates (root : String) (d : Disk) (key : String) (number : Nat) (content : Content) :
    Upload × String :=
  match canonical key with
  | .error e => (⟨[], .error e, []⟩, key)
  | .ok key =>
    if content.cancelledBefore then (⟨[], .error .cancelled, []⟩, key)
    else (uploadTo root d (pathOf key) number content, key)

def stored (root key : String) (size : Nat) : LogRecord :=
  ⟨.debug, s!"Stored {size} bytes at {root}/{key}"⟩

def upload (root : String) (d : Disk) (key : String) (number : Nat) (content : Content) :
    Disk × Except Failure String × List LogRecord :=
  let (done, key) := uploadStates root d key number content
  let last := done.states.getLastD d
  match done.result with
  | .ok () => (last, .ok key, [stored root key content.bytes.length])
  | .error e => (last, .error e, done.records)

def delete (d : Disk) (key : String) : Disk × Except Failure Unit :=
  match canonical key with
  | .error e => (d, .error e)
  | .ok key =>
    match d.remove (pathOf key) with
    | .ok d => (d, .ok ())
    | .error fault => (d, .error (failure key fault))

/-- Opens an object. What is opened need not be readable: a directory opens and then fails. -/
def open_ (d : Disk) (key : String) : Except Failure (Except Failure Bytes) := do
  let key ← canonical key
  match d.entry (pathOf key) with
  | .ok .directory => return .error (.io Disk.Fault.isDirectory.message)
  | .ok (.file content) => return .ok content
  | .error fault => throw (failure key fault)

/-- The size of an object. A directory is no object. -/
def size (d : Disk) (key : String) : Except Failure Nat := do
  let key ← canonical key
  match d.entry (pathOf key) with
  | .ok .directory => throw (.missing key)
  | .ok (.file content) => return content.length
  | .error fault => throw (failure key fault)

def url (publicUrl key : String) : Except Failure String := (canonical key).map (joinUrl publicUrl)

end DiagramShare.Storage.Local
