import DiagramShare.Records.Basic

/-!
Who may do what. The owner of a workspace may do everything in it. Others may read what is public,
and they may read or write a document through a share that applies to them. Only owners manage, and
only owners write a workspace. Deleted things are not found, for anyone.
-/
namespace DiagramShare.Access

open DiagramShare.Time (Instant)

/-- What is asked for. Managing means sharing, deleting a workspace and changing visibility. -/
inductive Kind where
  | read
  | write
  | manage
  deriving DecidableEq, Repr

inductive Decision where
  | allowed
  | forbidden
  | notFound
  deriving DecidableEq, Repr

inductive Resource where
  | workspace (w : Workspace)
  | document (d : Document) (w : Workspace)

namespace Resource

def owner : Resource → Int
  | workspace w => w.owner
  | document _ w => w.owner

/-- A document counts as present only in its own workspace, and only while both are live. -/
def isPresent : Resource → Bool
  | workspace w => w.isLive
  | document d w => d.isLive && w.isLive && d.workspace == w.id

end Resource

/-- Whether a share is in force for a caller on a document. -/
def applies (grant : Share) (document : Int) (caller : Caller) (now : Instant) : Bool :=
  grant.document == document && grant.isUsable now &&
    match grant.user with
    | some user => caller.user == some user
    | none => caller.token == some grant.token

def stronger : Permission → Permission → Permission
  | .view, .view => .view
  | _, _ => .edit

def permissionOf (document : Int) (caller : Caller) (grants : List Share) (now : Instant) :
    Option Permission :=
  ((grants.filter fun grant => applies grant document caller now).map Share.permission).foldl
    (fun best p => some (best.elim p (stronger · p))) none

/-- What others than the owner may do. -/
def isOpen (resource : Resource) (caller : Caller) (kind : Kind) (grants : List Share)
    (now : Instant) : Bool :=
  match resource, kind with
  | _, .manage => false
  | .workspace w, .read => w.isPublic
  | .workspace _, .write => false
  | .document d w, .read =>
    d.isPublic || w.isPublic || (permissionOf d.id caller grants now).isSome
  | .document d _, .write => permissionOf d.id caller grants now == some .edit

def authorize (resource : Option Resource) (caller : Caller) (kind : Kind) (grants : List Share)
    (now : Instant) : Decision :=
  match resource with
  | none => .notFound
  | some resource =>
    if !resource.isPresent then .notFound
    else if caller.user == some resource.owner then .allowed
    else if isOpen resource caller kind grants now then .allowed
    else .forbidden

end DiagramShare.Access
