import DiagramShare.Storage.Remote

/-!
The storage that the settings choose. A tree of files answers every call; other machines are taken
not to answer, so that of them only addresses and checks remain. How files are sent to them, read,
measured and deleted there is left out.
-/
namespace DiagramShare.Storage

/-- A chosen storage. The root names the tree of files in the log. -/
structure Backend where
  settings : Settings.Storage
  root : String
  disk : Disk

namespace Backend

def driver (b : Backend) : Settings.Driver := b.settings.driver

def opened (settings : Settings.Storage) (root : String) : Backend × List LogRecord :=
  let first := match settings.driver with
    | .local => []
    | .ftp => [Sftp.opened settings.sftp]
    | .s3 => [S3.opened settings.s3]
  (⟨settings, root, Disk.empty⟩, first ++
    [⟨.info, s!"File storage initialized with '{settings.driver.name}' driver"⟩])

def url (b : Backend) (key : String) : Except Failure String :=
  match b.driver with
  | .local => Local.url b.settings.localStorage.publicUrl key
  | .ftp => Sftp.url b.settings.sftp key
  | .s3 => S3.url b.settings.s3 key

/-- A call that needs a server that does not answer. -/
def refused (b : Backend) (key : String) : Except Failure α :=
  match Local.canonical key with
  | .error e => .error e
  | .ok _ =>
    match b.driver with
    | .s3 => .error (.transport S3.refusedUpload.refusal)
    | _ => .error (.io Sftp.refusedUpload.refusal)

def upload (b : Backend) (key : String) (number : Nat) (content : Content) :
    Backend × Except Failure String × List LogRecord :=
  match b.driver with
  | .local =>
    let (disk, result, records) := Local.upload b.root b.disk key number content
    ({ b with disk := disk }, result, records)
  | driver =>
    match Local.canonical key with
    | .error e => (b, .error e, [])
    | .ok _ =>
      let failure := match driver with
        | .s3 => S3.refusedUpload content
        | _ => Sftp.refusedUpload content
      (b, .error failure, [])

def delete (b : Backend) (key : String) : Backend × Except Failure Unit :=
  match b.driver with
  | .local =>
    let (disk, result) := Local.delete b.disk key
    ({ b with disk := disk }, result)
  | _ => (b, b.refused key)

def open_ (b : Backend) (key : String) : Except Failure (Except Failure Bytes) :=
  match b.driver with
  | .local => Local.open_ b.disk key
  | _ => b.refused key

def size (b : Backend) (key : String) : Except Failure Nat :=
  match b.driver with
  | .local => Local.size b.disk key
  | _ => b.refused key

end Backend

end DiagramShare.Storage
