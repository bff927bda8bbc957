import DiagramShare.Access.Paging
import DiagramShare.Records.Changes
import DiagramShare.Repository.Failure

/-!
Rows of the four tables, in the order of their insertion, and the questions that are answered from
them alone.
-/
namespace DiagramShare.Repository

open DiagramShare.Time (Instant)

structure Tables where
  workspaces : List Workspace
  documents : List Document
  versions : List Version
  shares : List Share

/-- Puts the later row first; of two from one instant, the one with the greater number. -/
def isNewer (a b : Instant × Int) : Bool :=
  if a.1 = b.1 then b.2 ≤ a.2 else b.1 ≤ a.1

def newestFirst (key : α → Instant × Int) (rows : List α) : List α :=
  rows.mergeSort fun a b => isNewer (key a) (key b)

def window (limit offset : Int) (rows : List α) : List α :=
  let (limit, offset) := Access.clampWindow limit offset
  (rows.drop offset.toNat).take limit.toNat

def updateWhere (p : α → Bool) (f : α → α) (rows : List α) : List α :=
  rows.map fun r => if p r then f r else r

def orNotFound (row : Option α) : Except Failure α :=
  match row with
  | some r => .ok r
  | none => .error .notFound

namespace Tables

def empty : Tables := ⟨[], [], [], []⟩

def anyWorkspace? (t : Tables) (id : Int) : Option Workspace := t.workspaces.find? fun w => w.id == id

def workspace? (t : Tables) (id : Int) : Option Workspace :=
  t.workspaces.find? fun w => w.id == id && w.isLive

def owned (t : Tables) (owner : Int) : List Workspace :=
  t.workspaces.filter fun w => w.owner == owner && w.isLive

def ownedPage (t : Tables) (owner limit offset : Int) : List Workspace :=
  window limit offset (newestFirst (fun w => (w.createdAt, w.id)) (t.owned owner))

/-- Whether a live workspace of an owner has a name; one workspace may be left aside. -/
def nameExists (t : Tables) (owner : Int) (name : String) (except : Option Int) : Bool :=
  t.workspaces.any fun w => w.isLive && w.owner == owner && w.name == name && some w.id != except

def anyDocument? (t : Tables) (id : Int) : Option Document := t.documents.find? fun d => d.id == id

def document? (t : Tables) (id : Int) : Option Document :=
  t.documents.find? fun d => d.id == id && d.isLive

def documentsOf (t : Tables) (workspace : Int) : List Document :=
  t.documents.filter fun d => d.workspace == workspace && d.isLive

def documentPage (t : Tables) (workspace limit offset : Int) : List Document :=
  window limit offset (newestFirst (fun d => (d.createdAt, d.id)) (t.documentsOf workspace))

def slugExists (t : Tables) (workspace : Int) (slug : String) (except : Option Int) : Bool :=
  t.documents.any fun d => d.isLive && d.workspace == workspace && d.slug == slug &&
    some d.id != except

def versionsOf (t : Tables) (document : Int) : List Version :=
  t.versions.filter fun v => v.document == document

def versionPage (t : Tables) (document limit offset : Int) : List Version :=
  window limit offset ((t.versionsOf document).mergeSort fun a b => b.number ≤ a.number)

def version? (t : Tables) (document number : Int) : Option Version :=
  t.versions.find? fun v => v.document == document && v.number == number

def lastNumber (t : Tables) (document : Int) : Int :=
  ((t.versionsOf document).map Version.number).foldl max 0

def latestVersion? (t : Tables) (document : Int) : Option Version :=
  (t.versionsOf document).find? fun v => v.number == t.lastNumber document

def anyShare? (t : Tables) (id : Int) : Option Share := t.shares.find? fun s => s.id == id

def share? (t : Tables) (id : Int) : Option Share :=
  t.shares.find? fun s => s.id == id && s.isLive

def sharesOf (t : Tables) (document : Int) : List Share :=
  t.shares.filter fun s => s.document == document && s.isLive

def sharePage (t : Tables) (document limit offset : Int) : List Share :=
  window limit offset (newestFirst (fun s => (s.createdAt, s.id)) (t.sharesOf document))

def shareForUser? (t : Tables) (document user : Int) : Option Share :=
  t.shares.find? fun s => s.isLive && s.document == document && s.user == some user

def shareByToken? (t : Tables) (token : String) : Option Share :=
  t.shares.find? fun s => s.isLive && s.token == token

/-- The live shares of a document that name a user or carry a token. -/
def grants (t : Tables) (document : Int) (user : Option Int) (token : Option String) :
    List Share :=
  (t.sharesOf document).filter fun s =>
    (user.isSome && s.user == user) || token == some s.token

/-- Whether any share, deleted or not, carries a token. -/
def tokenExists (t : Tables) (token : String) : Bool := t.shares.any fun s => s.token == token

def addWorkspace (t : Tables) (w : Workspace) : Tables := { t with workspaces := t.workspaces ++ [w] }
def addDocument (t : Tables) (d : Document) : Tables := { t with documents := t.documents ++ [d] }
def addVersion (t : Tables) (v : Version) : Tables := { t with versions := t.versions ++ [v] }
def addShare (t : Tables) (s : Share) : Tables := { t with shares := t.shares ++ [s] }

/-- Takes a document out again, as if it had never been added. -/
def dropDocument (t : Tables) (id : Int) : Tables :=
  { t with documents := t.documents.filter fun d => d.id != id }

def setWorkspace (t : Tables) (w : Workspace) : Tables :=
  { t with workspaces := updateWhere (fun v => v.id == w.id) (fun _ => w) t.workspaces }

def setDocument (t : Tables) (d : Document) : Tables :=
  { t with documents := updateWhere (fun e => e.id == d.id) (fun _ => d) t.documents }

def setShare (t : Tables) (s : Share) : Tables :=
  { t with shares := updateWhere (fun r => r.id == s.id) (fun _ => s) t.shares }

def deleteSharesOf (t : Tables) (documents : List Int) (time : Instant) : Tables × Nat :=
  let isHit (s : Share) : Bool := documents.contains s.document && s.isLive
  ({ t with shares := updateWhere isHit (fun s => s.tombstone time) t.shares },
    t.shares.countP isHit)

def deleteDocumentsOf (t : Tables) (workspace : Int) (time : Instant) : Tables :=
  let isHit (d : Document) : Bool := d.workspace == workspace && d.isLive
  { t with documents := updateWhere isHit (fun d => d.tombstone time) t.documents }

def deleteDocumentsAmong (t : Tables) (ids : List Int) (time : Instant) : Tables × Nat :=
  let isHit (d : Document) : Bool := ids.contains d.id && d.isLive
  ({ t with documents := updateWhere isHit (fun d => d.tombstone time) t.documents },
    t.documents.countP isHit)

/-- Deletes a live workspace with its live documents and their live shares. -/
def deleteWorkspace (t : Tables) (id : Int) (time : Instant) : Option (Tables × CascadeSummary) :=
  match t.workspace? id with
  | none => none
  | some w =>
    let hit := t.documentsOf id
    let emptied := (t.setWorkspace (w.tombstone time)).deleteDocumentsOf id time
    let (t, shares) := emptied.deleteSharesOf (hit.map Document.id) time
    some (t, ⟨hit.length, shares⟩)

def deleteDocument (t : Tables) (id : Int) (time : Instant) : Option (Tables × CascadeSummary) :=
  match t.document? id with
  | none => none
  | some d =>
    let (t, shares) := (t.setDocument (d.tombstone time)).deleteSharesOf [id] time
    some (t, ⟨1, shares⟩)

def deleteShare (t : Tables) (id : Int) (time : Instant) : Option Tables :=
  (t.share? id).map fun s => t.setShare (s.tombstone time)

end Tables

end DiagramShare.Repository
