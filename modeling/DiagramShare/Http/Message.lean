import DiagramShare.Http.Headers
import DiagramShare.Http.Target
import DiagramShare.Json.Value
import DiagramShare.Storage.Transfer

/-!
HTTP requests and responses. The body of a request comes in pieces, and it need not come to its
end: its transfer may fail, it may stop coming, or it may go beyond a limit set for it.
-/
namespace DiagramShare.Http

open DiagramShare.Storage (Bytes Content)

inductive Method where
  | get
  | head
  | post
  | put
  | delete
  | options
  | other (name : String)
  deriving DecidableEq

namespace Method

def name : Method → String
  | get => "GET"
  | head => "HEAD"
  | post => "POST"
  | put => "PUT"
  | delete => "DELETE"
  | options => "OPTIONS"
  | other name => name

def ofName (name : String) : Method :=
  if name = "GET" then get
  else if name = "HEAD" then head
  else if name = "POST" then post
  else if name = "PUT" then put
  else if name = "DELETE" then delete
  else if name = "OPTIONS" then options
  else other name

end Method

inductive BodyEnd where
  | complete
  | broken (reason : String)
  | stalled
  | beyondLimit
  deriving DecidableEq

structure Body where
  pieces : List Bytes
  ending : BodyEnd
  deriving DecidableEq

namespace Body

def empty : Body := ⟨[], .complete⟩

def limitText : String := "length limit exceeded"

def fitting (limit : Nat) : List Bytes → List Bytes × Bool
  | [] => ([], true)
  | piece :: rest =>
    if limit < piece.length then ([], false)
    else
      let (more, all) := fitting (limit - piece.length) rest
      (piece :: more, all)

/-- A body that is cut off at the first piece that does not fit. -/
def limited (limit : Nat) (b : Body) : Body :=
  match fitting limit b.pieces with
  | (_, true) => b
  | (pieces, false) => ⟨pieces, .beyondLimit⟩

/-- All bytes of a body, or why it cannot be had. One that stops coming is closed in the end. -/
def whole (b : Body) : Except String Bytes :=
  match b.ending with
  | .complete => .ok b.pieces.flatten
  | .broken reason => .error reason
  | .stalled => .error "connection closed"
  | .beyondLimit => .error limitText

/-- A body as a content to be stored. One that stops coming is cancelled at the deadline. -/
def content (b : Body) : Content :=
  match b.ending with
  | .complete => ⟨b.pieces, .complete, false⟩
  | .broken reason => ⟨b.pieces, .broken reason, false⟩
  | .stalled => ⟨b.pieces, .cancelled, false⟩
  | .beyondLimit => ⟨b.pieces, .broken limitText, false⟩

end Body

structure Request where
  method : Method
  target : Target
  headers : Headers
  body : Body

structure Response where
  status : Nat
  headers : Headers
  body : Bytes

namespace Response

def bare (status : Nat) : Response := ⟨status, [], []⟩

def typed (status : Nat) (mediaType : String) (body : Bytes) : Response :=
  ⟨status, [("content-type", Codec.Utf8.bytes mediaType)], body⟩

def json (status : Nat) (v : Json.Value) : Response :=
  typed status "application/json" (Codec.Utf8.bytes v.text)

def plain (status : Nat) (text : String) : Response :=
  typed status "text/plain; charset=utf-8" (Codec.Utf8.bytes text)

def withField (r : Response) (name value : String) : Response :=
  { r with headers := r.headers ++ [(name, Codec.Utf8.bytes value)] }

end Response

end DiagramShare.Http
