import DiagramShare.Log
import DiagramShare.Repository.Call
import DiagramShare.Repository.Tables

/-!
A store in a relational database. Each table numbers its rows by a sequence of its own, which never
goes back. A call is refused for a text that cannot be stored before anything else; then a new row
takes its number; then unique indexes are asked, in the order of their creation, and then the rows
that it refers to. Times are kept to the microsecond. The clock of the database, which dates new rows, and
that of the service, which dates changes and deletions, are taken to be one.
-/
namespace DiagramShare.Repository

open DiagramShare.Time (Instant)

structure Sequences where
  workspaces : Nat
  documents : Nat
  versions : Nat
  shares : Nat

/-- The state of the database. -/
structure Relational where
  sequences : Sequences
  users : List Int
  tables : Tables

namespace Relational

def empty : Relational := ⟨⟨0, 0, 0, 0⟩, [], Tables.empty⟩

abbrev Action (α : Type) := Relational → Relational × Except Failure α

def invalidText : Failure := .database "invalid byte sequence for encoding \"UTF8\": 0x00"

def tooLong (max : Nat) : Failure :=
  .database s!"value too long for type character varying({max})"

def badInstant : Failure := .database "timestamp out of range"

/-- Whether a text can be sent at all: it has no NUL character. -/
def isSendable (s : String) : Bool := !s.toList.contains '\x00'

def send (texts : List String) : Except Failure Unit :=
  if texts.all isSendable then .ok () else .error invalidText

/-- A text in a column of `max` characters. What is too long by spaces only is cut. -/
def fit (max : Nat) (s : String) : Except Failure String :=
  if s.length ≤ max then .ok s
  else if (s.toList.drop max).all (· == ' ') then .ok (String.ofList (s.toList.take max))
  else .error (tooLong max)

def fit? (max : Nat) : Option String → Except Failure (Option String)
  | none => .ok none
  | some s => (fit max s).map some

def epoch2000 : Int := 946684800000000

/-- Microseconds since the start of 2000, cut toward it. -/
def micros (t : Instant) : Int := Int.tdiv (t.totalNanos - epoch2000 * 1000) 1000

def firstMicros : Int := -211813488000000000

/-- An instant as it comes back from the database. -/
def keep (t : Instant) : Instant := Instant.ofMicros (micros t + epoch2000)

def sendInstant (t : Instant) : Except Failure Instant :=
  if micros t < firstMicros then .error badInstant else .ok (keep t)

def sendInstant? : Option Instant → Except Failure (Option Instant)
  | none => .ok none
  | some t => (sendInstant t).map some

def foreignKey (table column : String) : Failure :=
  .database s!"insert or update on table \"{table}\" violates foreign key constraint \"{table}_{column}_fkey\""

def badUser : Failure :=
  .database "new row for relation \"users\" violates check constraint \"users_id_check\""

def require (holds : Bool) (failure : Failure) : Except Failure Unit :=
  if holds then .ok () else .error failure

def ensureUser (id : Int) : Action Unit := fun r =>
  if id ≤ 0 then (r, .error badUser)
  else (if r.users.contains id then r else { r with users := r.users ++ [id] }, .ok ())

def createWorkspace (new : NewWorkspace) (now : Instant) : Action Workspace := fun r =>
  let sent := do
    send (new.name :: new.description.toList)
    return { new with name := ← fit 255 new.name }
  match sent with
  | .error e => (r, .error e)
  | .ok new =>
    let number := r.sequences.workspaces + 1
    let r := { r with sequences := { r.sequences with workspaces := number } }
    let checked := do
      require (!r.tables.nameExists new.owner new.name none) (.duplicate Index.workspaceName.name)
      require (r.users.contains new.owner) (foreignKey "workspaces" "owner_id")
    match checked with
    | .error e => (r, .error e)
    | .ok () =>
      let row := new.row number (keep now)
      ({ r with tables := r.tables.addWorkspace row }, .ok row)

def updateWorkspace (id : Int) (changes : WorkspaceChanges) (now : Instant) : Action Workspace :=
  fun r =>
    let row := do
      send (changes.name.toList ++ (changes.description.bind fun d => d).toList)
      let changes := { changes with name := ← fit? 255 changes.name }
      let w ← orNotFound (r.tables.workspace? id)
      let row := w.change changes (keep now)
      require (!r.tables.nameExists row.owner row.name (some id))
        (.duplicate Index.workspaceName.name)
      return row
    match row with
    | .error e => (r, .error e)
    | .ok row => ({ r with tables := r.tables.setWorkspace row }, .ok row)

/-- Deletes a live workspace, then the live shares of its live documents and then the documents. The
documents are found again by their numbers. -/
def eraseWorkspace (t : Tables) (id : Int) (time : Instant) : Option (Tables × CascadeSummary) :=
  match t.workspace? id with
  | none => none
  | some w =>
    let closed := t.setWorkspace (w.tombstone time)
    let ids := (closed.documentsOf id).map Document.id
    let (unshared, shares) := closed.deleteSharesOf ids time
    let (emptied, documents) := unshared.deleteDocumentsAmong ids time
    some (emptied, ⟨documents, shares⟩)

def deleteWorkspace (id : Int) (time : Instant) : Action CascadeSummary := fun r =>
  match sendInstant time with
  | .error e => (r, .error e)
  | .ok time =>
    match eraseWorkspace r.tables id time with
    | none => (r, .error .notFound)
    | some (tables, summary) => ({ r with tables := tables }, .ok summary)

def createDocument (new : NewDocument) (now : Instant) : Action Document := fun r =>
  let sent := do
    send [new.title, new.slug]
    return { new with title := ← fit 255 new.title, slug := ← fit 255 new.slug }
  match sent with
  | .error e => (r, .error e)
  | .ok new =>
    let number := r.sequences.documents + 1
    let r := { r with sequences := { r.sequences with documents := number } }
    let checked := do
      require (!r.tables.slugExists new.workspace new.slug none) (.duplicate Index.documentSlug.name)
      require (r.tables.anyWorkspace? new.workspace).isSome (foreignKey "documents" "workspace_id")
    match checked with
    | .error e => (r, .error e)
    | .ok () =>
      let row := new.row number (keep now)
      ({ r with tables := r.tables.addDocument row }, .ok row)

def createNextVersion (new : NewVersion) (now : Instant) : Action Version := fun r =>
  let sent := do
    let _ ← orNotFound (r.tables.document? new.document)
    send (new.content :: new.note.toList)
    return { new with note := ← fit? 500 new.note }
  match sent with
  | .error e => (r, .error e)
  | .ok new =>
    let number := r.sequences.versions + 1
    let r := { r with sequences := { r.sequences with versions := number } }
    match require (new.author.all r.users.contains) (foreignKey "document_versions" "author_id") with
    | .error e => (r, .error e)
    | .ok () =>
      let row := new.row number (r.tables.lastNumber new.document + 1) (keep now)
      ({ r with tables := r.tables.addVersion row }, .ok row)

/-- Creates a document and its first version, or neither; numbers that were taken stay taken. -/
def createDocumentWithVersion (new : NewDocument) (first : Option FirstVersion) (now : Instant) :
    Action (Document × Option Version) := fun r =>
  match createDocument new now r with
  | (r', .error e) => (r', .error e)
  | (r', .ok d) =>
    match first with
    | none => (r', .ok (d, none))
    | some first =>
      match createNextVersion (first.of d.id) now r' with
      | (r'', .ok v) => (r'', .ok (d, some v))
      | (r'', .error e) => ({ r'' with tables := r.tables }, .error e)

def updateDocument (id : Int) (changes : DocumentChanges) (now : Instant) : Action Document :=
  fun r =>
    let row := do
      send (changes.title.toList ++ changes.slug.toList)
      let changes :=
        { changes with title := ← fit? 255 changes.title, slug := ← fit? 255 changes.slug }
      let d ← orNotFound (r.tables.document? id)
      let row := d.change changes (keep now)
      require (!r.tables.slugExists row.workspace row.slug (some id))
        (.duplicate Index.documentSlug.name)
      return row
    match row with
    | .error e => (r, .error e)
    | .ok row => ({ r with tables := r.tables.setDocument row }, .ok row)

def deleteDocument (id : Int) (time : Instant) : Action CascadeSummary := fun r =>
  match sendInstant time with
  | .error e => (r, .error e)
  | .ok time =>
    match r.tables.deleteDocument id time with
    | none => (r, .error .notFound)
    | some (tables, summary) => ({ r with tables := tables }, .ok summary)

def createShare (new : NewShare) (now : Instant) : Action Share := fun r =>
  let sent := do
    send [new.token]
    let expiry ← sendInstant? new.expiresAt
    return { new with token := ← fit 64 new.token, expiresAt := expiry }
  match sent with
  | .error e => (r, .error e)
  | .ok new =>
    let number := r.sequences.shares + 1
    let r := { r with sequences := { r.sequences with shares := number } }
    let checked := do
      require (!r.tables.tokenExists new.token) (.duplicate Index.shareToken.name)
      require (new.user.all fun user => (r.tables.shareForUser? new.document user).isNone)
        (.duplicate Index.shareUser.name)
      require (r.tables.anyDocument? new.document).isSome (foreignKey "shared_access" "document_id")
      require (new.user.all r.users.contains) (foreignKey "shared_access" "user_id")
    match checked with
    | .error e => (r, .error e)
    | .ok () =>
      let row := new.row number (keep now)
      ({ r with tables := r.tables.addShare row }, .ok row)

def sendExpiry? : Option (Option Instant) → Except Failure (Option (Option Instant))
  | none => .ok none
  | some t => (sendInstant? t).map some

def updateShare (id : Int) (changes : ShareChanges) (now : Instant) : Action Share := fun r =>
  let row := do
    let expiry ← sendExpiry? changes.expiresAt
    let s ← orNotFound (r.tables.share? id)
    return s.change { changes with expiresAt := expiry } (keep now)
  match row with
  | .error e => (r, .error e)
  | .ok row => ({ r with tables := r.tables.setShare row }, .ok row)

def deleteShare (id : Int) (time : Instant) : Action Unit := fun r =>
  match sendInstant time with
  | .error e => (r, .error e)
  | .ok time =>
    match r.tables.deleteShare id time with
    | none => (r, .error .notFound)
    | some tables => ({ r with tables := tables }, .ok ())

def read (texts : List String) (f : Tables → Except Failure α) : Action α := fun r =>
  (r, do
    send texts
    f r.tables)

def answer (now : Instant) : Call α → Action α
  | .ping => read [] fun _ => .ok ()
  | .ensureUser id => ensureUser id
  | .createWorkspace new => createWorkspace new now
  | .findWorkspace id => read [] fun t => orNotFound (t.workspace? id)
  | .findWorkspaceWithDeleted id => read [] fun t => orNotFound (t.anyWorkspace? id)
  | .findWorkspaces owner limit offset => read [] fun t => .ok (t.ownedPage owner limit offset)
  | .countWorkspaces owner => read [] fun t => .ok (t.owned owner).length
  | .updateWorkspace id changes => updateWorkspace id changes now
  | .deleteWorkspace id time => deleteWorkspace id time
  | .workspaceNameExists owner name except =>
    read [name] fun t => .ok (t.nameExists owner name except)
  | .createDocument new => createDocument new now
  | .createDocumentWithVersion new first => createDocumentWithVersion new first now
  | .findDocument id => read [] fun t => orNotFound (t.document? id)
  | .findDocumentWithDeleted id => read [] fun t => orNotFound (t.anyDocument? id)
  | .findDocuments workspace limit offset =>
    read [] fun t => .ok (t.documentPage workspace limit offset)
  | .countDocuments workspace => read [] fun t => .ok (t.documentsOf workspace).length
  | .updateDocument id changes => updateDocument id changes now
  | .deleteDocument id time => deleteDocument id time
  | .documentSlugExists workspace slug except =>
    read [slug] fun t => .ok (t.slugExists workspace slug except)
  | .createNextVersion new => createNextVersion new now
  | .findVersions document limit offset =>
    read [] fun t => .ok (t.versionPage document limit offset)
  | .countVersions document => read [] fun t => .ok (t.versionsOf document).length
  | .findVersion document number => read [] fun t => orNotFound (t.version? document number)
  | .latestVersion document => read [] fun t => .ok (t.latestVersion? document)
  | .createShare new => createShare new now
  | .findShare id => read [] fun t => orNotFound (t.share? id)
  | .findShareWithDeleted id => read [] fun t => orNotFound (t.anyShare? id)
  | .findShareForUser document user => read [] fun t => .ok (t.shareForUser? document user)
  | .findShareByToken token => read [token] fun t => .ok (t.shareByToken? token)
  | .findGrants document user token =>
    read token.toList fun t => .ok (t.grants document user token)
  | .findShares document limit offset => read [] fun t => .ok (t.sharePage document limit offset)
  | .countShares document => read [] fun t => .ok (t.sharesOf document).length
  | .updateShare id changes => updateShare id changes now
  | .deleteShare id time => deleteShare id time

def records : Call α → Except Failure α → List LogRecord
  | .deleteWorkspace id _, .ok summary =>
    [⟨.debug, s!"Workspace {id} tombstoned with {summary.documents} documents and {summary.shares} shares"⟩]
  | _, _ => []

end Relational

end DiagramShare.Repository
