import DiagramShare.Repository.Call
import DiagramShare.Repository.Tables

/-!
A store in memory. One counter numbers the rows of all tables. Names, slugs, tokens and bound users
are kept unique; users must be known before they own or write anything.
-/
namespace DiagramShare.Repository

open DiagramShare.Time (Instant)

/-- The state of the store. Versions can be made to fail. -/
structure Memory where
  lastId : Nat
  users : List Int
  tables : Tables
  failVersions : Bool

namespace Memory

def empty : Memory := ⟨0, [], Tables.empty, false⟩

abbrev Action (α : Type) := Memory → Memory × Except Failure α

def unknownUser (id : Int) : Failure := .database s!"foreign key violation: user {id}"

def unknownWorkspace (id : Int) : Failure := .database s!"foreign key violation: workspace {id}"

def connectionLost : Failure := .database "connection reset"

def nextId (m : Memory) : Int := (m.lastId + 1 : Nat)

def take (m : Memory) (tables : Tables) : Memory :=
  { m with lastId := m.lastId + 1, tables := tables }

def ensureUser (id : Int) : Action Unit := fun m =>
  (if m.users.contains id then m else { m with users := m.users ++ [id] }, .ok ())

def createWorkspace (new : NewWorkspace) (now : Instant) : Action Workspace := fun m =>
  if !m.users.contains new.owner then (m, .error (unknownUser new.owner))
  else if m.tables.nameExists new.owner new.name none then
    (m, .error (.duplicate Index.workspaceName.name))
  else
    let row := new.row m.nextId now
    (m.take (m.tables.addWorkspace row), .ok row)

def updateWorkspace (id : Int) (changes : WorkspaceChanges) (now : Instant) : Action Workspace :=
  fun m =>
    match m.tables.workspace? id with
    | none => (m, .error .notFound)
    | some w =>
      if changes.name.any fun name => m.tables.nameExists w.owner name (some id) then
        (m, .error (.duplicate Index.workspaceName.name))
      else
        let row := w.change changes now
        ({ m with tables := m.tables.setWorkspace row }, .ok row)

def deleteWorkspace (id : Int) (time : Instant) : Action CascadeSummary := fun m =>
  match m.tables.deleteWorkspace id time with
  | none => (m, .error .notFound)
  | some (tables, summary) => ({ m with tables := tables }, .ok summary)

def createDocument (new : NewDocument) (now : Instant) : Action Document := fun m =>
  if (m.tables.anyWorkspace? new.workspace).isNone then
    (m, .error (unknownWorkspace new.workspace))
  else if m.tables.slugExists new.workspace new.slug none then
    (m, .error (.duplicate Index.documentSlug.name))
  else
    let row := new.row m.nextId now
    (m.take (m.tables.addDocument row), .ok row)

def createNextVersion (new : NewVersion) (now : Instant) : Action Version := fun m =>
  if m.failVersions then (m, .error connectionLost)
  else if (m.tables.document? new.document).isNone then (m, .error .notFound)
  else match new.author.filter fun author => !m.users.contains author with
    | some author => (m, .error (unknownUser author))
    | none =>
      let row := new.row m.nextId (m.tables.lastNumber new.document + 1) now
      (m.take (m.tables.addVersion row), .ok row)

/-- Creates a document and its first version, or neither; the document's number is used up. -/
def createDocumentWithVersion (new : NewDocument) (first : Option FirstVersion) (now : Instant) :
    Action (Document × Option Version) := fun m =>
  match createDocument new now m with
  | (m', .error e) => (m', .error e)
  | (m', .ok d) =>
    match first with
    | none => (m', .ok (d, none))
    | some first =>
      match createNextVersion (first.of d.id) now m' with
      | (m'', .ok v) => (m'', .ok (d, some v))
      | (m'', .error e) => ({ m'' with tables := m''.tables.dropDocument d.id }, .error e)

def updateDocument (id : Int) (changes : DocumentChanges) (now : Instant) : Action Document :=
  fun m =>
    match m.tables.document? id with
    | none => (m, .error .notFound)
    | some d =>
      if changes.slug.any fun slug => m.tables.slugExists d.workspace slug (some id) then
        (m, .error (.duplicate Index.documentSlug.name))
      else
        let row := d.change changes now
        ({ m with tables := m.tables.setDocument row }, .ok row)

def deleteDocument (id : Int) (time : Instant) : Action CascadeSummary := fun m =>
  match m.tables.deleteDocument id time with
  | none => (m, .error .notFound)
  | some (tables, summary) => ({ m with tables := tables }, .ok summary)

/-- What keeps a share from being stored. -/
def shareRefusal? (m : Memory) (new : NewShare) : Option Failure :=
  let userRefusal := new.user.bind fun user =>
    if !m.users.contains user then some (unknownUser user)
    else if (m.tables.shareForUser? new.document user).isSome then
      some (.duplicate Index.shareUser.name)
    else none
  userRefusal.orElse fun _ =>
    if m.tables.tokenExists new.token then some (.duplicate Index.shareToken.name) else none

def createShare (new : NewShare) (now : Instant) : Action Share := fun m =>
  match m.shareRefusal? new with
  | some e => (m, .error e)
  | none =>
    let row := new.row m.nextId now
    (m.take (m.tables.addShare row), .ok row)

def updateShare (id : Int) (changes : ShareChanges) (now : Instant) : Action Share := fun m =>
  match m.tables.share? id with
  | none => (m, .error .notFound)
  | some s =>
    let row := s.change changes now
    ({ m with tables := m.tables.setShare row }, .ok row)

def deleteShare (id : Int) (time : Instant) : Action Unit := fun m =>
  match m.tables.deleteShare id time with
  | none => (m, .error .notFound)
  | some tables => ({ m with tables := tables }, .ok ())

def read (f : Tables → Except Failure α) : Action α := fun m => (m, f m.tables)

def answer (now : Instant) : Call α → Action α
  | .ping => read fun _ => .ok ()
  | .ensureUser id => ensureUser id
  | .createWorkspace new => createWorkspace new now
  | .findWorkspace id => read fun t => orNotFound (t.workspace? id)
  | .findWorkspaceWithDeleted id => read fun t => orNotFound (t.anyWorkspace? id)
  | .findWorkspaces owner limit offset => read fun t => .ok (t.ownedPage owner limit offset)
  | .countWorkspaces owner => read fun t => .ok (t.owned owner).length
  | .updateWorkspace id changes => updateWorkspace id changes now
  | .deleteWorkspace id time => deleteWorkspace id time
  | .workspaceNameExists owner name except => read fun t => .ok (t.nameExists owner name except)
  | .createDocument new => createDocument new now
  | .createDocumentWithVersion new first => createDocumentWithVersion new first now
  | .findDocument id => read fun t => orNotFound (t.document? id)
  | .findDocumentWithDeleted id => read fun t => orNotFound (t.anyDocument? id)
  | .findDocuments workspace limit offset =>
    read fun t => .ok (t.documentPage workspace limit offset)
  | .countDocuments workspace => read fun t => .ok (t.documentsOf workspace).length
  | .updateDocument id changes => updateDocument id changes now
  | .deleteDocument id time => deleteDocument id time
  | .documentSlugExists workspace slug except =>
    read fun t => .ok (t.slugExists workspace slug except)
  | .createNextVersion new => createNextVersion new now
  | .findVersions document limit offset =>
    read fun t => .ok (t.versionPage document limit offset)
  | .countVersions document => read fun t => .ok (t.versionsOf document).length
  | .findVersion document number => read fun t => orNotFound (t.version? document number)
  | .latestVersion document => read fun t => .ok (t.latestVersion? document)
  | .createShare new => createShare new now
  | .findShare id => read fun t => orNotFound (t.share? id)
  | .findShareWithDeleted id => read fun t => orNotFound (t.anyShare? id)
  | .findShareForUser document user => read fun t => .ok (t.shareForUser? document user)
  | .findShareByToken token => read fun t => .ok (t.shareByToken? token)
  | .findGrants document user token => read fun t => .ok (t.grants document user token)
  | .findShares document limit offset => read fun t => .ok (t.sharePage document limit offset)
  | .countShares document => read fun t => .ok (t.sharesOf document).length
  | .updateShare id changes => updateShare id changes now
  | .deleteShare id time => deleteShare id time

end Memory

end DiagramShare.Repository
