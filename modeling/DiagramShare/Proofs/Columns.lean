import DiagramShare.Proofs.Bodies
import DiagramShare.Records.Changes
import DiagramShare.Text.Blank

/-! What a change makes of a row. Its columns have what the body of the request gives, and where the
body gives nothing they keep what they have. Two changes in a row make what one change makes that has
the fields of the later request before those of the earlier one. -/
namespace DiagramShare

open DiagramShare.Text (trim)
open DiagramShare.Time (Instant)

/-- A text without the blanks around it, if it has more than blanks. -/
def worded (text : String) : Option String :=
  if (trim text).isEmpty then none else some (trim text)

namespace WorkspaceUpdate

def changes (u : WorkspaceUpdate) : WorkspaceChanges :=
  ⟨u.name.map trim, u.description.map worded, u.isPublic⟩

/-- The fields of a later request, and where it has none those of an earlier one. -/
def upon (later earlier : WorkspaceUpdate) : WorkspaceUpdate :=
  ⟨later.name.or earlier.name, later.description.or earlier.description,
    later.isPublic.or earlier.isPublic⟩

theorem changes_upon (later earlier : WorkspaceUpdate) :
    (later.upon earlier).changes = ⟨later.changes.name.or earlier.changes.name,
      later.changes.description.or earlier.changes.description,
      later.changes.isPublic.or earlier.changes.isPublic⟩ := by
  simp only [changes, upon, Option.map_or]

theorem change_upon (ws : Workspace) (u v : WorkspaceUpdate) (now later : Instant) :
    ws.change (v.upon u).changes later = (ws.change u.changes now).change v.changes later := by
  simp only [Workspace.change, changes_upon, Option.getD_or]

end WorkspaceUpdate

namespace DocumentUpdate

def changes (u : DocumentUpdate) : DocumentChanges :=
  ⟨u.title.map trim, u.kind, u.slug.map trim, u.isPublic⟩

def upon (later earlier : DocumentUpdate) : DocumentUpdate :=
  ⟨later.title.or earlier.title, later.kind.or earlier.kind, later.slug.or earlier.slug,
    later.isPublic.or earlier.isPublic⟩

theorem changes_upon (later earlier : DocumentUpdate) :
    (later.upon earlier).changes = ⟨later.changes.title.or earlier.changes.title,
      later.changes.kind.or earlier.changes.kind, later.changes.slug.or earlier.changes.slug,
      later.changes.isPublic.or earlier.changes.isPublic⟩ := by
  simp only [changes, upon, Option.map_or]

theorem change_upon (d : Document) (u v : DocumentUpdate) (now later : Instant) :
    d.change (v.upon u).changes later = (d.change u.changes now).change v.changes later := by
  simp only [Document.change, changes_upon, Option.getD_or]

end DocumentUpdate

namespace ShareUpdate

def changes (u : ShareUpdate) : ShareChanges := ⟨u.permission, u.expiresAt⟩

def upon (later earlier : ShareUpdate) : ShareUpdate :=
  ⟨later.permission.or earlier.permission, later.expiresAt.or earlier.expiresAt⟩

theorem change_upon (s : Share) (u v : ShareUpdate) (now later : Instant) :
    s.change (v.upon u).changes later = (s.change u.changes now).change v.changes later := by
  simp only [Share.change, changes, upon, Option.getD_or]

end ShareUpdate

section Columns

open DiagramShare.Json (Reading)

variable {α β : Type}

/-- A column keeps what it has where nothing is given for it, and else has what is read from the
value that is given. -/
structure Column (given : Option Reading) (read : Reading → Option α) (old new : α) : Prop where
  kept : given = none → new = old
  taken : ∀ r, given = some r → read r = some new

theorem column_of {x : Option β} {given : Option Reading} {read : Reading → Option β} {f : β → α}
    {old : α} (said : x.map some = given.map read) :
    Column given (fun r => (read r).map f) old ((x.map f).getD old) := by
  constructor
  · rintro rfl
    cases Option.map_eq_none_iff.mp said
    rfl
  · rintro r rfl
    obtain ⟨b, rfl, same⟩ := Option.map_eq_some_iff.mp said
    rw [← same, Option.map_some, Option.getD_some]

theorem column_same {x : Option α} {given : Option Reading} {read : Reading → Option α} {old : α}
    (said : x.map some = given.map read) : Column given read old (x.getD old) := by
  have column : Column given (fun r => (read r).map id) old ((x.map id).getD old) := column_of said
  simpa only [Option.map_id, id] using column

/-- A workspace after a change has what a body gives, and else what it had. -/
structure Workspace.Rewritten (old : Workspace) (body : Reading) (row : Workspace) : Prop where
  name : Column (body.given? WorkspaceUpdate.fields "name") (fun r => r.text?.map trim)
    old.name row.name
  description : Column (body.given? WorkspaceUpdate.fields "description")
    (fun r => r.text?.map worded) old.description row.description
  isPublic : Column (body.given? WorkspaceUpdate.fields "is_public") Reading.flag?
    old.isPublic row.isPublic
  others : row = { old with
    name := row.name, description := row.description, isPublic := row.isPublic,
    updatedAt := row.updatedAt }

theorem WorkspaceUpdate.ReadFrom.rewritten {u : WorkspaceUpdate} {body : Reading}
    (read : u.ReadFrom body) (old : Workspace) (now : Instant) :
    old.Rewritten body (old.change u.changes now) :=
  ⟨column_of read.name, column_of read.description, column_same read.isPublic, rfl⟩

/-- A document after a change has what a body gives, and else what it had. -/
structure Document.Rewritten (old : Document) (body : Reading) (row : Document) : Prop where
  title : Column (body.given? DocumentUpdate.fields "title") (fun r => r.text?.map trim)
    old.title row.title
  kind : Column (body.given? DocumentUpdate.fields "type")
    (Reading.choice? DocumentKind.ofName?) old.kind row.kind
  slug : Column (body.given? DocumentUpdate.fields "slug") (fun r => r.text?.map trim)
    old.slug row.slug
  isPublic : Column (body.given? DocumentUpdate.fields "is_public") Reading.flag?
    old.isPublic row.isPublic
  others : row = { old with
    title := row.title, kind := row.kind, slug := row.slug, isPublic := row.isPublic,
    updatedAt := row.updatedAt }

theorem DocumentUpdate.ReadFrom.rewritten {u : DocumentUpdate} {body : Reading}
    (read : u.ReadFrom body) (old : Document) (now : Instant) :
    old.Rewritten body (old.change u.changes now) :=
  ⟨column_of read.title, column_same read.kind, column_of read.slug, column_same read.isPublic, rfl⟩

/-- A share after a change has what a body gives, and else what it had. An expiry is taken away by
null. -/
structure Share.Rewritten (old : Share) (body : Reading) (row : Share) : Prop where
  permission : Column (body.given? ShareUpdate.fields "permission")
    (Reading.choice? Permission.ofName?) old.permission row.permission
  expiresAt : Column (body.member? ShareUpdate.fields "expires_at") Reading.expiry?
    old.expiresAt row.expiresAt
  others : row = { old with
    permission := row.permission, expiresAt := row.expiresAt, updatedAt := row.updatedAt }

theorem ShareUpdate.ReadFrom.rewritten {u : ShareUpdate} {body : Reading}
    (read : u.ReadFrom body) (old : Share) (now : Instant) :
    old.Rewritten body (old.change u.changes now) :=
  ⟨column_same read.permission, column_same read.expiresAt, rfl⟩

end Columns

end DiagramShare
