import DiagramShare.Http.Message
import DiagramShare.Log
import DiagramShare.Settings.Basic

/-!
Which pages of other origins may use the answers. A star among the settings lets every page use
them, but without credentials; named origins may use them with credentials; else none may.
-/
namespace DiagramShare.Http

inductive CorsPolicy where
  | nobody
  | anyone
  | origins (names : List (List UInt8))

namespace CorsPolicy

def isFieldValue (bytes : List UInt8) : Bool := bytes.all fun b => (32 ≤ b && b != 127) || b == 9

def ofSettings (s : Settings.Cors) : CorsPolicy :=
  if s.allowedOrigins.contains "*" then anyone
  else
    match (s.allowedOrigins.map Codec.Utf8.bytes).filter isFieldValue with
    | [] => nobody
    | names => origins names

def records (s : Settings.Cors) : List LogRecord :=
  if s.allowedOrigins.contains "*" then []
  else
    (s.allowedOrigins.filter fun name => !isFieldValue (Codec.Utf8.bytes name)).map fun name =>
      ⟨.warn, s!"Ignoring invalid CORS origin '{name}'"⟩

def allowedMethods : List Method := [.get, .post, .put, .delete, .options]

def allowedFields : List String := ["authorization", "content-type", "x-share-token"]

def originField (names : List (List UInt8)) (headers : Headers) : Headers :=
  match headers.first? "origin" with
  | some origin => if names.contains origin then [("access-control-allow-origin", origin)] else []
  | none => []

def fields (entries : List (String × String)) : Headers :=
  entries.map fun (name, value) => (name, Codec.Utf8.bytes value)

def preflight (p : CorsPolicy) (headers : Headers) : Headers :=
  match p with
  | nobody => []
  | anyone => fields [
      ("access-control-allow-origin", "*"), ("access-control-allow-methods", "*"),
      ("access-control-allow-headers", "*")]
  | origins names =>
    originField names headers ++ fields [
      ("access-control-allow-credentials", "true"),
      ("access-control-allow-methods", ",".intercalate (allowedMethods.map Method.name)),
      ("access-control-allow-headers", ",".intercalate allowedFields)]

def answerFields (p : CorsPolicy) (headers : Headers) : Headers :=
  match p with
  | nobody => []
  | anyone => fields [
      ("access-control-allow-origin", "*"), ("access-control-expose-headers", "*")]
  | origins names =>
    originField names headers ++ fields [("access-control-allow-credentials", "true")]

end CorsPolicy

end DiagramShare.Http
