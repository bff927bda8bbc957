import DiagramShare.Time.Instant

/-!
The rows of the library: workspaces, their documents, the versions of a document and the shares
that open a document to others. A deleted row keeps its place and carries the time of its deletion.
-/
namespace DiagramShare

open DiagramShare.Time (Instant)

inductive DocumentKind where
  | mermaid
  | markdown
  deriving DecidableEq, Repr

namespace DocumentKind

def name : DocumentKind → String
  | mermaid => "mermaid"
  | markdown => "markdown"

def ofName? (s : String) : Option DocumentKind :=
  if s = "mermaid" then some mermaid else if s = "markdown" then some markdown else none

theorem ofName?_name (k : DocumentKind) : ofName? k.name = some k := by cases k <;> rfl

end DocumentKind

inductive Permission where
  | view
  | edit
  deriving DecidableEq, Repr

namespace Permission

def name : Permission → String
  | view => "view"
  | edit => "edit"

def ofName? (s : String) : Option Permission :=
  if s = "view" then some view else if s = "edit" then some edit else none

theorem ofName?_name (p : Permission) : ofName? p.name = some p := by cases p <;> rfl

end Permission

structure Workspace where
  id : Int
  name : String
  description : Option String
  owner : Int
  isPublic : Bool
  createdAt : Instant
  updatedAt : Instant
  deletedAt : Option Instant
  deriving DecidableEq

structure Document where
  id : Int
  workspace : Int
  title : String
  kind : DocumentKind
  slug : String
  isPublic : Bool
  createdAt : Instant
  updatedAt : Instant
  deletedAt : Option Instant
  deriving DecidableEq

/-- A snapshot of the content of a document. Snapshots are numbered from one. -/
structure Version where
  id : Int
  document : Int
  content : String
  number : Int
  author : Option Int
  note : Option String
  createdAt : Instant
  deriving DecidableEq

/-- A grant on a document, for one user or for whoever presents its token. -/
structure Share where
  id : Int
  document : Int
  user : Option Int
  token : String
  permission : Permission
  expiresAt : Option Instant
  createdAt : Instant
  updatedAt : Instant
  deletedAt : Option Instant
  deriving DecidableEq

def Workspace.isLive (w : Workspace) : Bool := w.deletedAt.isNone
def Document.isLive (d : Document) : Bool := d.deletedAt.isNone
def Share.isLive (s : Share) : Bool := s.deletedAt.isNone

/-- A share ends at its expiry, that instant included. -/
def Share.isExpired (s : Share) (now : Instant) : Bool := s.expiresAt.any (· ≤ now)

def Share.isUsable (s : Share) (now : Instant) : Bool := s.isLive && !s.isExpired now

/-- Who asks: a verified user, a presented share token, both or neither. -/
structure Caller where
  user : Option Int
  token : Option String
  deriving DecidableEq

namespace Caller

def anonymous : Caller := ⟨none, none⟩

def isAnonymous (c : Caller) : Bool := c.user.isNone && c.token.isNone

end Caller

/-- How many rows were deleted along with the row that was asked for. -/
structure CascadeSummary where
  documents : Nat
  shares : Nat
  deriving DecidableEq

end DiagramShare
