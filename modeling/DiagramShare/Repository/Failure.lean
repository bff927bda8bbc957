/-!
How a call to the store fails: the row is not there, a unique index refuses it, no connection can
be had, or the database reports an error.
-/
namespace DiagramShare.Repository

/-- The unique indexes of the store, by what they keep unique. -/
inductive Index where
  | workspaceName
  | documentSlug
  | versionNumber
  | shareToken
  | shareUser
  deriving DecidableEq, Repr

def Index.name : Index → String
  | workspaceName => "idx_workspace_owner_name"
  | documentSlug => "idx_document_workspace_slug"
  | versionNumber => "idx_version_document_version"
  | shareToken => "idx_shared_access_token"
  | shareUser => "idx_shared_document_user"

inductive Failure where
  | notFound
  | duplicate (index : String)
  | noConnection (text : String)
  | database (text : String)
  deriving DecidableEq

def Failure.message : Failure → String
  | notFound => "record not found"
  | duplicate index => s!"unique constraint violated: {index}"
  | noConnection text => s!"connection pool error: {text}"
  | database text => s!"database error: {text}"

end DiagramShare.Repository
