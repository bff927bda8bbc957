import DiagramShare.Records.Basic

/-!
New rows before they are stored, and changes to stored rows. A change leaves what it does not name.
-/
namespace DiagramShare

open DiagramShare.Time (Instant)

structure NewWorkspace where
  name : String
  description : Option String
  owner : Int
  isPublic : Bool

structure WorkspaceChanges where
  name : Option String
  description : Option (Option String)
  isPublic : Option Bool

structure NewDocument where
  workspace : Int
  title : String
  kind : DocumentKind
  slug : String
  isPublic : Bool

structure DocumentChanges where
  title : Option String
  kind : Option DocumentKind
  slug : Option String
  isPublic : Option Bool

structure NewVersion where
  document : Int
  content : String
  author : Option Int
  note : Option String

/-- Content that becomes the first version of a new document. -/
structure FirstVersion where
  content : String
  author : Option Int
  note : Option String

def FirstVersion.of (v : FirstVersion) (document : Int) : NewVersion :=
  ⟨document, v.content, v.author, v.note⟩

structure NewShare where
  document : Int
  user : Option Int
  token : String
  permission : Permission
  expiresAt : Option Instant

structure ShareChanges where
  permission : Option Permission
  expiresAt : Option (Option Instant)

def NewWorkspace.row (new : NewWorkspace) (id : Int) (now : Instant) : Workspace :=
  ⟨id, new.name, new.description, new.owner, new.isPublic, now, now, none⟩

def NewDocument.row (new : NewDocument) (id : Int) (now : Instant) : Document :=
  ⟨id, new.workspace, new.title, new.kind, new.slug, new.isPublic, now, now, none⟩

def NewVersion.row (new : NewVersion) (id number : Int) (now : Instant) : Version :=
  ⟨id, new.document, new.content, number, new.author, new.note, now⟩

def NewShare.row (new : NewShare) (id : Int) (now : Instant) : Share :=
  ⟨id, new.document, new.user, new.token, new.permission, new.expiresAt, now, now, none⟩

def Workspace.change (w : Workspace) (c : WorkspaceChanges) (now : Instant) : Workspace :=
  { w with
    name := c.name.getD w.name
    description := c.description.getD w.description
    isPublic := c.isPublic.getD w.isPublic
    updatedAt := now }

def Document.change (d : Document) (c : DocumentChanges) (now : Instant) : Document :=
  { d with
    title := c.title.getD d.title
    kind := c.kind.getD d.kind
    slug := c.slug.getD d.slug
    isPublic := c.isPublic.getD d.isPublic
    updatedAt := now }

def Share.change (s : Share) (c : ShareChanges) (now : Instant) : Share :=
  { s with
    permission := c.permission.getD s.permission
    expiresAt := c.expiresAt.getD s.expiresAt
    updatedAt := now }

def Workspace.tombstone (w : Workspace) (time : Instant) : Workspace :=
  { w with deletedAt := some time, updatedAt := time }

def Document.tombstone (d : Document) (time : Instant) : Document :=
  { d with deletedAt := some time, updatedAt := time }

def Share.tombstone (s : Share) (time : Instant) : Share :=
  { s with deletedAt := some time, updatedAt := time }

end DiagramShare
