import DiagramShare.Records.Changes

/-!
What can be asked of a store. Reads pass over deleted rows unless they say otherwise. A store never
asks who calls.
-/
namespace DiagramShare.Repository

open DiagramShare.Time (Instant)

/-- A call and the type of its answer. -/
inductive Call : Type → Type where
  | ping : Call Unit
  | ensureUser (id : Int) : Call Unit
  | createWorkspace (new : NewWorkspace) : Call Workspace
  | findWorkspace (id : Int) : Call Workspace
  | findWorkspaceWithDeleted (id : Int) : Call Workspace
  | findWorkspaces (owner limit offset : Int) : Call (List Workspace)
  | countWorkspaces (owner : Int) : Call Nat
  | updateWorkspace (id : Int) (changes : WorkspaceChanges) : Call Workspace
  | deleteWorkspace (id : Int) (time : Instant) : Call CascadeSummary
  | workspaceNameExists (owner : Int) (name : String) (except : Option Int) : Call Bool
  | createDocument (new : NewDocument) : Call Document
  | createDocumentWithVersion (new : NewDocument) (first : Option FirstVersion) :
    Call (Document × Option Version)
  | findDocument (id : Int) : Call Document
  | findDocumentWithDeleted (id : Int) : Call Document
  | findDocuments (workspace limit offset : Int) : Call (List Document)
  | countDocuments (workspace : Int) : Call Nat
  | updateDocument (id : Int) (changes : DocumentChanges) : Call Document
  | deleteDocument (id : Int) (time : Instant) : Call CascadeSummary
  | documentSlugExists (workspace : Int) (slug : String) (except : Option Int) : Call Bool
  | createNextVersion (new : NewVersion) : Call Version
  | findVersions (document limit offset : Int) : Call (List Version)
  | countVersions (document : Int) : Call Nat
  | findVersion (document number : Int) : Call Version
  | latestVersion (document : Int) : Call (Option Version)
  | createShare (new : NewShare) : Call Share
  | findShare (id : Int) : Call Share
  | findShareWithDeleted (id : Int) : Call Share
  | findShareForUser (document user : Int) : Call (Option Share)
  | findShareByToken (token : String) : Call (Option Share)
  | findGrants (document : Int) (user : Option Int) (token : Option String) : Call (List Share)
  | findShares (document limit offset : Int) : Call (List Share)
  | countShares (document : Int) : Call Nat
  | updateShare (id : Int) (changes : ShareChanges) : Call Share
  | deleteShare (id : Int) (time : Instant) : Call Unit

end DiagramShare.Repository
