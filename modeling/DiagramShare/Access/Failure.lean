import DiagramShare.Access.Policy
import DiagramShare.Repository.Failure
import DiagramShare.Storage.Failure

/-!
Why a request is refused. Each refusal has a code for programs, a status for HTTP and a message for
people. What a backend reports is kept for the log and not shown to clients.
-/
namespace DiagramShare.Access

inductive Invalid where
  | blank (field : String)
  | tooLong (field : String) (max : Nat)
  | notPositive (field : String)
  | expired
  | slug (given : String)
  | noSlug
  | sharedWithOwner
  | key (fault : Storage.Key.Fault)
  | request (text : String)
  deriving DecidableEq

def Invalid.message : Invalid → String
  | blank field => s!"{field} is required"
  | tooLong field max => s!"{field} must be at most {max} characters"
  | notPositive field => s!"{field} must be a positive integer"
  | expired => "expires_at must be in the future"
  | slug given => s!"slug '{given}' must be lowercase letters and digits separated by single dashes"
  | noSlug => "title must contain a letter or digit to derive a slug"
  | sharedWithOwner => "the workspace owner already has full access"
  | key fault => fault.message
  | request text => text

inductive Clash where
  | workspaceName (name : String)
  | documentSlug (slug : String)
  | shareUser (document user : Int)
  | index (name : String)
  | stated (text : String)
  deriving DecidableEq

/-- The message for a row that a unique index refuses. -/
def indexMessage (name : String) : String :=
  if name = Repository.Index.workspaceName.name then "a workspace with this name already exists"
  else if name = Repository.Index.documentSlug.name then
    "a document with this slug already exists in the workspace"
  else if name = Repository.Index.shareUser.name then
    "the document is already shared with this user"
  else if name = Repository.Index.versionNumber.name then
    "a concurrent version was created, retry the request"
  else if name = Repository.Index.shareToken.name then "share token collision"
  else s!"duplicate record ({name})"

def Clash.message : Clash → String
  | workspaceName name => s!"a workspace named '{name}' already exists"
  | documentSlug slug => s!"slug '{slug}' is already used in this workspace"
  | shareUser document user => s!"document {document} is already shared with user {user}"
  | index name => indexMessage name
  | stated text => text

/-- What kept a request from being served. -/
inductive Outage where
  | backend (text : String)
  | storage (failure : Storage.Failure)
  | worker (text : String)
  | noToken
  deriving DecidableEq

def Outage.message : Outage → String
  | backend text => text
  | storage failure => failure.message
  | worker text => s!"worker task failed: {text}"
  | noToken => "could not allocate a unique share token"

inductive Failure where
  | notFound (what : String)
  | forbidden (what : String)
  | unauthenticated
  | conflict (clash : Clash)
  | invalid (cause : Invalid)
  | cancelled (what : String)
  | unavailable (cause : Outage)
  deriving DecidableEq

namespace Failure

def message : Failure → String
  | notFound what => s!"{what} not found"
  | forbidden what => s!"access denied: {what}"
  | unauthenticated => "authentication required"
  | conflict clash => clash.message
  | invalid cause => cause.message
  | cancelled what => s!"{what} cancelled"
  | unavailable cause => s!"service unavailable: {cause.message}"

def code : Failure → String
  | notFound _ => "not_found"
  | forbidden _ => "forbidden"
  | unauthenticated => "unauthenticated"
  | conflict _ => "conflict"
  | invalid _ => "validation"
  | cancelled _ => "cancelled"
  | unavailable _ => "unavailable"

def status : Failure → Nat
  | notFound _ => 404
  | forbidden _ => 403
  | unauthenticated => 401
  | conflict _ => 409
  | invalid _ => 400
  | cancelled _ => 408
  | unavailable _ => 503

/-- What a client is told. An outage says nothing of its cause. -/
def publicMessage : Failure → String
  | unavailable _ => "storage or database temporarily unavailable"
  | failure => failure.message

def ofRepository : Repository.Failure → Failure
  | .notFound => notFound "record"
  | .duplicate index => conflict (.index index)
  | .noConnection text => unavailable (.backend text)
  | .database text => unavailable (.backend text)

def ofLookup (what : String) : Repository.Failure → Failure
  | .notFound => notFound what
  | failure => ofRepository failure

def ofStorage : Storage.Failure → Failure
  | .missing key => notFound s!"file '{key}'"
  | .cancelled => cancelled "transfer"
  | .badKey fault => invalid (.key fault)
  | failure => unavailable (.storage failure)

end Failure

/-- The refusal that a decision on `what` means for a caller, if it means one. Who has shown nothing
is asked to sign in. -/
def Decision.refusal? (decision : Decision) (caller : Caller) (what : String) : Option Failure :=
  match decision with
  | .allowed => none
  | .notFound => some (.notFound what)
  | .forbidden => some (if caller.isAnonymous then .unauthenticated else .forbidden what)

end DiagramShare.Access
