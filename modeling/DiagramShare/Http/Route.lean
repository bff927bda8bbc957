import DiagramShare.Codec.Form
import DiagramShare.Http.Message
import DiagramShare.Text.Integer

/-!
What paths name. The parts of a path that stand for numbers and names are kept as they are written;
they are read once it is known who asks.
-/
namespace DiagramShare.Http

open DiagramShare.Text

structure Parameter where
  name : String
  text : String
  deriving DecidableEq

inductive Route where
  | health
  | ping
  | workspaces
  | workspace (id : Parameter)
  | workspaceDocuments (id : Parameter)
  | document (id : Parameter)
  | versions (id : Parameter)
  | version (id number : Parameter)
  | shares (id : Parameter)
  | share (id share : Parameter)
  | asset (id name : Parameter)
  | assetInfo (id name : Parameter)
  deriving DecidableEq

namespace Route

def idOf (text : String) : Parameter := ⟨"id", text⟩

/-- The route of the segments of a path, before it is seen whether the parts have a text. -/
def ofSegments? : List String → Option Route
  | ["", "health"] => some health
  | ["", "ping"] => some ping
  | ["", "api", "workspaces"] => some workspaces
  | ["", "api", "workspaces", id] => some (workspace (idOf id))
  | ["", "api", "workspaces", id, "documents"] => some (workspaceDocuments (idOf id))
  | ["", "api", "documents", id] => some (document (idOf id))
  | ["", "api", "documents", id, "versions"] => some (versions (idOf id))
  | ["", "api", "documents", id, "versions", number] =>
    some (version (idOf id) ⟨"number", number⟩)
  | ["", "api", "documents", id, "shares"] => some (shares (idOf id))
  | ["", "api", "documents", id, "shares", number] =>
    some (.share (idOf id) ⟨"share_id", number⟩)
  | ["", "api", "documents", id, "assets", name] => some (asset (idOf id) ⟨"name", name⟩)
  | ["", "api", "documents", id, "assets", name, "info"] =>
    some (assetInfo (idOf id) ⟨"name", name⟩)
  | _ => none

def parameters : Route → List Parameter
  | health | ping | workspaces => []
  | workspace id | workspaceDocuments id | document id | versions id | shares id => [id]
  | version id number => [id, number]
  | .share id number => [id, number]
  | asset id name | assetInfo id name => [id, name]

/-- The route of a path. No part of it may be empty. -/
def ofPath? (t : Target) : Option Route :=
  (ofSegments? t.segments).filter fun r => r.parameters.all fun p => !p.text.isEmpty

def methods : Route → List Method
  | health | ping | version .. | assetInfo .. => [.get, .head]
  | workspaces | workspaceDocuments _ | versions _ | shares _ => [.get, .head, .post]
  | workspace _ | document _ | asset .. => [.get, .head, .put, .delete]
  | .share .. => [.put, .delete]

end Route

/-- What is wrong with the parts of a path. -/
inductive PathFault where
  | notText (name : String)
  | notNumber (value kind : String)
  | notNumberAt (index : Nat) (value kind : String)
  deriving DecidableEq

def marked (s : String) : String := "\x60" ++ s ++ "\x60"

def PathFault.message : PathFault → String
  | notText name => "Invalid URL: Invalid UTF-8 in " ++ marked name
  | notNumber value kind => "Invalid URL: Cannot parse " ++ marked value ++ " to a " ++ marked kind
  | notNumberAt index value kind =>
    s!"Invalid URL: Cannot parse value at index {index} with value " ++ marked value ++ " to a " ++
      marked kind

namespace Parameter

def decoded (p : Parameter) : Except PathFault String :=
  match Codec.Utf8.text? (Codec.Form.percentDecode (Codec.Utf8.bytes p.text)) with
  | some text => .ok text
  | none => .error (.notText p.name)

end Parameter

structure IntKind where
  name : String
  lo : Int
  hi : Int

def IntKind.int64 : IntKind := ⟨"i64", -9223372036854775808, 9223372036854775807⟩
def IntKind.int32 : IntKind := ⟨"i32", -2147483648, 2147483647⟩

def IntKind.parse? (k : IntKind) (text : String) : Option Int :=
  (Integer.parse k.lo k.hi text.toList).toOption

namespace PathFault

def single (p : Parameter) : Except PathFault Int := do
  let text ← p.decoded
  match IntKind.int64.parse? text with
  | some n => return n
  | none => throw (.notNumber text IntKind.int64.name)

def numberAt (index : Nat) (kind : IntKind) (text : String) : Except PathFault Int :=
  match kind.parse? text with
  | some n => .ok n
  | none => .error (.notNumberAt index text kind.name)

def twoNumbers (p q : Parameter) (kind : IntKind) : Except PathFault (Int × Int) := do
  let first ← p.decoded
  let second ← q.decoded
  return (← numberAt 0 .int64 first, ← numberAt 1 kind second)

def numberAndName (p q : Parameter) : Except PathFault (Int × String) := do
  let first ← p.decoded
  let name ← q.decoded
  return (← numberAt 0 .int64 first, name)

end PathFault

end DiagramShare.Http
