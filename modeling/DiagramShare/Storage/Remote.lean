import DiagramShare.Settings.Basic
import DiagramShare.Storage.Local

/-!
Storage on other machines: addresses, and what a caller learns when no server answers. A base
directory is dropped from a key only as whole leading segments.
-/
namespace DiagramShare.Storage

open DiagramShare.Text

namespace Sftp

def base (s : Settings.Sftp) : List Char := stripWhere (· == '/') s.baseDir.toList

def relative (s : Settings.Sftp) (key : String) : String :=
  if (base s).isEmpty then key
  else match dropStart? (base s ++ ['/']) key.toList with
    | some rest => String.ofList rest
    | none => key

def url (s : Settings.Sftp) (key : String) : Except Failure String :=
  (Local.canonical key).map fun key => joinUrl s.publicUrl (relative s key)

def opened (s : Settings.Sftp) : LogRecord :=
  ⟨.info, s!"SFTP storage targeting {s.user}@{s.host}:{s.port}{s.baseDir}"⟩

/-- What an upload ends in when nothing answers. Its content is read beside the connection. -/
def refusedUpload (content : Content) : Failure :=
  if content.cancelledBefore then .cancelled
  else match content.ending with
    | .broken text => .io text
    | .cancelled => .cancelled
    | _ => .io refusal
where
  /-- What the system says of a port that nobody listens on. -/
  refusal : String := "Connection refused (os error 111)"

end Sftp

namespace S3

def endpoint (s : Settings.S3) : String :=
  let cs := stripEndWhere (· == '/') s.endpoint.toList
  let text := String.ofList cs
  if (breakOn? [':', '/', '/'] cs).isSome then text
  else if s.useSsl then "https://" ++ text
  else "http://" ++ text

def url (s : Settings.S3) (key : String) : Except Failure String :=
  (Local.canonical key).map fun key => s!"{endpoint s}/{s.bucket}/{key}"

def opened (s : Settings.S3) : LogRecord :=
  ⟨.info, s!"S3 storage using bucket '{s.bucket}' at {endpoint s}"⟩

/-- What an upload ends in when nothing answers. Its content is read before the connection. -/
def refusedUpload (content : Content) : Failure :=
  if content.cancelledBefore then .cancelled
  else match content.ending with
    | .broken text => .io text
    | .cancelled => .cancelled
    | .cancelledAtEnd => .cancelled
    | .complete => .transport refusal
where
  /-- What is said of a server that does not answer. -/
  refusal : String := "dispatch failure"

end S3

end DiagramShare.Storage
