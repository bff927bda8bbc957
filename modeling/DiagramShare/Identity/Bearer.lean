import DiagramShare.Codec.Base64Url
import DiagramShare.Codec.Sha256
import DiagramShare.Codec.Utf8
import DiagramShare.Json.Decode
import DiagramShare.Json.Value
import DiagramShare.Text.Integer
import DiagramShare.Text.Split

/-!
Bearer tokens: a header, claims and a signature, each in base 64, with points between them. A token
is good if its signature is the keyed hash of what stands before it, it has not expired, and it
names the expected issuer and no audience. Its subject is then a user's number.
-/
namespace DiagramShare.Identity

open DiagramShare.Codec
open DiagramShare.Json DiagramShare.Json.Decode
open DiagramShare.Time (Instant)

inductive TokenFault where
  | notThreeParts
  | base64
  | json
  | algorithm
  | signature
  | missingClaim (name : String)
  | issuer
  | audience
  deriving DecidableEq

def TokenFault.message : TokenFault → String
  | notThreeParts => "InvalidToken"
  | base64 => "Base64 error"
  | json => "JSON error"
  | algorithm => "InvalidAlgorithm"
  | signature => "InvalidSignature"
  | missingClaim name => s!"Missing required claim: {name}"
  | issuer => "InvalidIssuer"
  | audience => "InvalidAudience"

inductive Failure where
  | badFormat
  | badToken (fault : TokenFault)
  | expired
  | badSubject
  deriving DecidableEq

namespace Failure

def message : Failure → String
  | badFormat => "invalid authorization format"
  | badToken fault => s!"invalid token: {fault.message}"
  | expired => "token expired"
  | badSubject => "token subject is not a user id"

def code : Failure → String
  | badFormat => "invalid_format"
  | badToken _ => "invalid_token"
  | expired => "token_expired"
  | badSubject => "invalid_subject"

end Failure

structure Claims where
  subject : String
  expiry : Int
  issuedAt : Option Int
  issuer : Option String
  deriving DecidableEq

/-- What tokens are checked against. -/
structure Verifier where
  secret : String
  issuer : Option String

def leeway : Int := 60

namespace Bearer

def algorithms : List String :=
  ["HS256", "HS384", "HS512", "ES256", "ES384", "RS256", "RS384", "RS512", "PS256", "PS384",
    "PS512", "EdDSA"]

def algorithm : Decoder String :=
  choice algorithms fun name => if algorithms.contains name then some name else none

def texts : Decoder (List String)
  | o, .array vs => vs.mapM (string o)
  | _, r => reject "a sequence" r

/-- Nothing but null: keys inside a token are not taken. -/
def onlyNull : Decoder Unit
  | _, r => reject "no key" r

def headerShape : Shape where
  name := "struct Header"
  fields := [
    field "typ" (nullable string), field "alg" algorithm, field "cty" (nullable string),
    field "jku" (nullable string), field "jwk" (nullable onlyNull),
    field "kid" (nullable string), field "x5u" (nullable string), field "x5c" (nullable texts),
    field "x5t" (nullable string), field "x5t#S256" (nullable string)]

def headerAlgorithm : Decoder String := fun o r => do
  let parts ← headerShape.parts o r
  parts.required "alg" algorithm

def claimsShape : Shape where
  name := "struct TokenClaims"
  fields := [
    field "sub" string, field "exp" int64, omissible "iat" (nullable int64),
    omissible "iss" (nullable string)]

def claims : Decoder Claims := fun o r => do
  let parts ← claimsShape.parts o r
  return {
    subject := ← parts.required "sub" string
    expiry := ← parts.required "exp" int64
    issuedAt := ← parts.optional "iat" int64
    issuer := ← parts.optional "iss" string }

/-- Whether a claim names an audience: a text or a list of texts. -/
def isAudience : Reading → Bool
  | .string (some _) => true
  | .array vs => vs.all fun
    | .string (some _) => true
    | _ => false
  | _ => false

/-- Whether the start of a number claim can be passed over: it is no container with content. -/
def isPassable : Reading → Bool
  | .array vs => vs.isEmpty
  | .object es => es.isEmpty
  | .number .outOfRange => false
  | .string none => false
  | _ => true

def claimsNamed (name : String) (entries : List (Reading × Reading)) : List Reading :=
  entries.filterMap fun
    | (.string (some key), v) => if key = name then some v else none
    | _ => none

/-- Whether the token is for someone, from the claims as a tree. A claim may stand once. -/
def audience (tree : Reading) : Except TokenFault Bool :=
  match tree with
  | .object entries =>
    let starts := claimsNamed "nbf" entries
    let audiences := claimsNamed "aud" entries
    if 1 < starts.length ∨ 1 < audiences.length ∨ !starts.all isPassable then .error .json
    else .ok (audiences.any isAudience)
  | _ => .error .json

/-- The header and the claims in one text with their point, then the signature. -/
def cut? (token : List Char) : Option (List Char × List Char × List Char) := do
  let (message, signature) ← Text.splitLast? (· == '.') token
  let (header, payload) ← Text.splitLast? (· == '.') message
  return (header, payload, signature)

def source (part : List Char) : Except TokenFault Source :=
  match Base64Url.decode? part with
  | some bs => .ok (Utf8.decode bs)
  | none => .error .base64

def signature (secret : String) (message : List Char) : List Char :=
  Base64Url.encode (Sha256.keyedHash (Utf8.bytes secret) (Utf8.encode message))

def signedClaims (v : Verifier) (token : String) : Except TokenFault (Claims × Bool) := do
  let (header, payload, given) ← match cut? token.toList with
    | some parts => .ok parts
    | none => .error .notThreeParts
  let algorithm ← (ofSource headerAlgorithm (← source header)).mapError fun _ => TokenFault.json
  if algorithm ≠ "HS256" then throw .algorithm
  if given ≠ signature v.secret (header ++ '.' :: payload) then throw .signature
  let body ← source payload
  let found ← (ofSource claims body).mapError fun _ => TokenFault.json
  return (found, ← audience (Reading.ofSource body).1)

/-- The claims of a token that is good at an instant. -/
def verify (v : Verifier) (now : Instant) (token : String) : Except Failure Claims := do
  let (found, hasAudience) ← (signedClaims v token).mapError .badToken
  if found.expiry < 0 then throw (.badToken (.missingClaim "exp"))
  if v.issuer.isSome && found.issuer.isNone then throw (.badToken (.missingClaim "iss"))
  if found.expiry < now.seconds - leeway then throw .expired
  if v.issuer.isSome && found.issuer != v.issuer then throw (.badToken .issuer)
  if hasAudience then throw (.badToken .audience)
  return found

def user (v : Verifier) (now : Instant) (token : String) : Except Failure Int := do
  let found ← verify v now token
  match Text.Integer.parse64 found.subject.toList with
  | .ok id => if 0 < id then return id else throw .badSubject
  | .error _ => throw .badSubject

end Bearer

end DiagramShare.Identity
