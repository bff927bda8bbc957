import DiagramShare.Records.Request
import DiagramShare.Service.Target

/-!
Documents. A slug is used once in each workspace. Who may write a document may change or delete it,
but its visibility is the owner's to change.
-/
namespace DiagramShare.Service

open DiagramShare.Access

structure DocumentDetail where
  document : Document
  latestVersion : Option Version

def firstNote : String := "Initial version"

/-- The slug of a new document: the given one, or one made from the title. -/
def slugFor (given : Option String) (title : String) : Except Invalid String :=
  match given with
  | some slug => givenSlug slug
  | none =>
    match Slug.ofTitle? title with
    | some slug => .ok slug
    | none => .error .noSlug

def freeSlug (workspace : Int) (slug : String) (except : Option Int) : Program Unit := do
  let taken ← Program.query (.documentSlugExists workspace slug except)
  Program.refuseIf taken (.documentSlug slug)

def createDocument (caller : Caller) (workspace : Int) (request : DocumentRequest) :
    Program DocumentDetail := do
  let w ← workspaceFor caller workspace .write
  let title ← Program.obey (requiredText "title" request.title maxNameLength)
  let slug ← Program.obey (slugFor request.slug title)
  freeSlug w.id slug none
  let first := request.content.map fun content =>
    ({ content := content, author := caller.user, note := some firstNote } : FirstVersion)
  let new : NewDocument := ⟨w.id, title, request.kind, slug, request.isPublic.getD false⟩
  let (document, version) ← Program.query (.createDocumentWithVersion new first)
  Program.note .info s!"Document {document.id} created in workspace {w.id}"
  return ⟨document, version⟩

def getDocument (caller : Caller) (id : Int) : Program DocumentDetail := do
  let (document, _) ← documentFor caller id .read
  let version ← Program.query (.latestVersion document.id)
  return ⟨document, version⟩

/-- The documents of a workspace, newest first. Who may read a workspace may read all of them. -/
def listDocuments (caller : Caller) (workspace : Int) (query : PageQuery) :
    Program (Listing Document) := do
  let w ← workspaceFor caller workspace .read
  let page := query.normalize
  let data ← Program.query (.findDocuments w.id page.limit page.offset)
  let total ← Program.query (.countDocuments w.id)
  return ⟨data, total, page⟩

def newTitle : Option String → Except Invalid (Option String)
  | none => .ok none
  | some title => (requiredText "title" title maxNameLength).map some

def newSlug : Option String → Except Invalid (Option String)
  | none => .ok none
  | some slug => (givenSlug slug).map some

def freeNewSlug (d : Document) (id : Int) : Option String → Program Unit
  | none => .done ()
  | some slug => if slug = d.slug then .done () else freeSlug d.workspace slug (some id)

def updateDocument (caller : Caller) (id : Int) (request : DocumentUpdate) : Program Document := do
  let kind : Kind := if request.isPublic.isSome then .manage else .write
  let (d, _) ← documentFor caller id kind
  let title ← Program.obey (newTitle request.title)
  let slug ← Program.obey (newSlug request.slug)
  freeNewSlug d id slug
  Program.lookUp "document" (.updateDocument id ⟨title, request.kind, slug, request.isPublic⟩)

/-- Deletes a document and its shares. Its versions stay. -/
def deleteDocument (caller : Caller) (id : Int) : Program CascadeSummary := do
  let _ ← documentFor caller id .write
  let now ← Program.clock
  let summary ← Program.lookUp "document" (.deleteDocument id now)
  Program.note .info
    s!"Document {id} deleted by user {userText caller.user}: {summary.shares} shares revoked"
  return summary

end DiagramShare.Service
