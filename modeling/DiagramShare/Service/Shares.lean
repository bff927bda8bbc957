import DiagramShare.Records.Request
import DiagramShare.Service.Target

/-!
Shares of documents. A share names a user or is open to whoever presents its token. A user has at
most one live share of a document, and no two shares have ever had the same token.
-/
namespace DiagramShare.Service

open DiagramShare.Access

def tokenAttempts : Nat := 3

def shareOf (document share : Int) : Program Share := do
  let s ← Program.lookUp "share" (.findShare share)
  if s.document = document then .done s else .fail (.notFound "share")

def holderText : Option Int → String
  | none => "link holders"
  | some user => s!"user {user}"

/-- Stores a share under the first drawn token that no other share has. -/
def allocate (document : Int) (request : ShareRequest) (attempt : Nat) : Nat → Program Share
  | 0 => .fail (.unavailable .noToken)
  | left + 1 => do
    let token ← Program.freshToken
    .ask (.createShare ⟨document, request.user, token, request.permission, request.expiresAt⟩) fun
      | .ok s => do
        Program.note .info
          s!"Document {document} shared ({s.permission.name}) with {holderText s.user}"
        return s
      | .error (.duplicate index) =>
        if index = Repository.Index.shareToken.name then do
          Program.note .warn s!"Share token collision on attempt {attempt}"
          allocate document request (attempt + 1) left
        else .fail (.ofRepository (.duplicate index))
      | .error e => .fail (.ofRepository e)

def requireUser (d : Document) (w : Workspace) : Option Int → Program Unit
  | none => .done ()
  | some user => do
    let _ ← Program.obey (positiveId "user_id" user)
    Program.obey (if user = w.owner then .error .sharedWithOwner else .ok ())
    Program.query (.ensureUser user)
    let held ← Program.query (.findShareForUser d.id user)
    Program.refuseIf held.isSome (.shareUser d.id user)

def shareDocument (caller : Caller) (document : Int) (request : ShareRequest) :
    Program Share := do
  let (d, w) ← documentFor caller document .manage
  let now ← Program.clock
  Program.obey (futureExpiry request.expiresAt now)
  requireUser d w request.user
  allocate d.id request 1 tokenAttempts

def listShares (caller : Caller) (document : Int) (query : PageQuery) :
    Program (Listing Share) := do
  let (d, _) ← documentFor caller document .manage
  let page := query.normalize
  let data ← Program.query (.findShares d.id page.limit page.offset)
  let total ← Program.query (.countShares d.id)
  return ⟨data, total, page⟩

def updateShare (caller : Caller) (document share : Int) (request : ShareUpdate) :
    Program Share := do
  let _ ← documentFor caller document .manage
  let s ← shareOf document share
  let now ← Program.clock
  Program.obey (futureExpiry (request.expiresAt.bind fun t => t) now)
  Program.lookUp "share" (.updateShare s.id ⟨request.permission, request.expiresAt⟩)

def revokeShare (caller : Caller) (document share : Int) : Program Unit := do
  let _ ← documentFor caller document .manage
  let s ← shareOf document share
  let now ← Program.clock
  Program.lookUp "share" (.deleteShare s.id now)
  Program.note .info s!"Share {s.id} on document {document} revoked"

end DiagramShare.Service
