import DiagramShare.Codec.Form
import DiagramShare.Http.Headers
import DiagramShare.Identity.Bearer
import DiagramShare.Records.Basic
import DiagramShare.Text.Blank

/-!
Who makes a request. A bearer token in the Authorization field comes first; without that field the
configured cookie counts. A credential that is no good is refused and never passed over. The share
token is read beside it, from its own field or from the query.
-/
namespace DiagramShare.Identity

open DiagramShare.Codec
open DiagramShare.Http (Headers visibleText? lowerCase)
open DiagramShare.Text
open DiagramShare.Time (Instant)

def shareTokenField : String := "x-share-token"

def bearerToken (headers : Headers) : Except Failure (Option String) :=
  match headers.first? "authorization" with
  | none => .ok none
  | some value =>
    match visibleText? value with
    | none => .error .badFormat
    | some text =>
      match splitFirst? (· == ' ') text.toList with
      | none => .error .badFormat
      | some (scheme, token) =>
        let token := strip token
        if lowerCase (String.ofList scheme) = "bearer" ∧ token ≠ [] then
          .ok (some (String.ofList token))
        else .error .badFormat

/-- A name and a value of a cookie; either may have percent codes. -/
def cookiePair? (part : List Char) : Option (String × String) := do
  let (name, value) ← splitFirst? (· == '=') part
  let name := strip name
  if name.isEmpty then none
  else do
    let name ← Utf8.text? (Form.percentDecode (Utf8.encode name))
    let value ← Utf8.text? (Form.percentDecode (Utf8.encode (strip value)))
    return (name, value)

def cookies (headers : Headers) : List (String × String) :=
  (headers.all "cookie").flatMap fun value =>
    match Utf8.decode? value with
    | none => []
    | some cs => (splitWhere (· == ';') cs).filterMap cookiePair?

/-- The value of a cookie. Of several with one name the last counts; an empty one is none. -/
def cookie? (headers : Headers) (name : String) : Option String :=
  match ((cookies headers).filter fun c => c.1 == name).getLast? with
  | some (_, value) => if value.isEmpty then none else some value
  | none => none

/-- The token parameter of a query. Given twice it is none, and an empty one is none. -/
def queryToken? (query : List UInt8) : Option String :=
  match (Form.pairs query).filter fun p => p.1 == "token" with
  | [(_, value)] => if value.isEmpty then none else some value
  | _ => none

def shareToken? (headers : Headers) (query : List UInt8) : Option String :=
  let fromField := do
    let value ← headers.first? shareTokenField
    let text ← visibleText? value
    let token := trim text
    if token.isEmpty then none else some token
  fromField.orElse fun _ => queryToken? query

/-- The credential that a request shows, if it shows one. -/
def credential (cookieName : String) (headers : Headers) : Except Failure (Option String) := do
  match ← bearerToken headers with
  | some token => return some token
  | none => return cookie? headers cookieName

def caller (v : Verifier) (cookieName : String) (now : Instant) (headers : Headers)
    (query : List UInt8) : Except Failure Caller := do
  let user ← match ← credential cookieName headers with
    | none => .ok none
    | some token => (Bearer.user v now token).map some
  return ⟨user, shareToken? headers query⟩

end DiagramShare.Identity
