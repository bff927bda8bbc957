import DiagramShare.Repository.Memory
import DiagramShare.Repository.Relational
import DiagramShare.Service.Assets
import DiagramShare.Service.Documents
import DiagramShare.Service.Shares
import DiagramShare.Service.Versions
import DiagramShare.Service.Workspaces

/-!
All that can be asked of the service, as data, and the stores that it works on.
-/
namespace DiagramShare.Service

open DiagramShare.Access

inductive Operation where
  | ping
  | createWorkspace (request : WorkspaceRequest)
  | getWorkspace (id : Int)
  | listWorkspaces (query : PageQuery)
  | updateWorkspace (id : Int) (request : WorkspaceUpdate)
  | deleteWorkspace (id : Int)
  | createDocument (workspace : Int) (request : DocumentRequest)
  | getDocument (id : Int)
  | listDocuments (workspace : Int) (query : PageQuery)
  | updateDocument (id : Int) (request : DocumentUpdate)
  | deleteDocument (id : Int)
  | createVersion (document : Int) (request : VersionRequest)
  | listVersions (document : Int) (query : PageQuery)
  | getVersion (document number : Int)
  | shareDocument (document : Int) (request : ShareRequest)
  | listShares (document : Int) (query : PageQuery)
  | updateShare (document share : Int) (request : ShareUpdate)
  | revokeShare (document share : Int)
  | uploadAsset (document : Int) (name : String) (content : Storage.Content)
  | openAsset (document : Int) (name : String)
  | assetUrl (document : Int) (name : String)
  | deleteAsset (document : Int) (name : String)

inductive Answer where
  | nothing
  | workspace (w : Workspace)
  | workspaces (page : Listing Workspace)
  | summary (s : CascadeSummary)
  | detail (d : DocumentDetail)
  | document (d : Document)
  | documents (page : Listing Document)
  | version (v : Version)
  | versions (page : Listing Version)
  | share (s : Share)
  | shares (page : Listing Share)
  | asset (info : AssetInfo)
  | content (bytes : Except Storage.Failure Storage.Bytes)

def Program.as (p : Program α) (wrap : α → Answer) : Program Answer := do
  let a ← p
  return wrap a

/-- The program of an operation that a caller asks for. -/
def serve (caller : Caller) : Operation → Program Answer
  | .ping => ping.as fun _ => .nothing
  | .createWorkspace request => (createWorkspace caller request).as .workspace
  | .getWorkspace id => (getWorkspace caller id).as .workspace
  | .listWorkspaces query => (listWorkspaces caller query).as .workspaces
  | .updateWorkspace id request => (updateWorkspace caller id request).as .workspace
  | .deleteWorkspace id => (deleteWorkspace caller id).as .summary
  | .createDocument workspace request => (createDocument caller workspace request).as .detail
  | .getDocument id => (getDocument caller id).as .detail
  | .listDocuments workspace query => (listDocuments caller workspace query).as .documents
  | .updateDocument id request => (updateDocument caller id request).as .document
  | .deleteDocument id => (deleteDocument caller id).as .summary
  | .createVersion document request => (createVersion caller document request).as .version
  | .listVersions document query => (listVersions caller document query).as .versions
  | .getVersion document number => (getVersion caller document number).as .version
  | .shareDocument document request => (shareDocument caller document request).as .share
  | .listShares document query => (listShares caller document query).as .shares
  | .updateShare document share request => (updateShare caller document share request).as .share
  | .revokeShare document share => (revokeShare caller document share).as fun _ => .nothing
  | .uploadAsset document name content => (uploadAsset caller document name content).as .asset
  | .openAsset document name => (openAsset caller document name).as .content
  | .assetUrl document name => (assetUrl caller document name).as .asset
  | .deleteAsset document name => (deleteAsset caller document name).as fun _ => .nothing

def inMemory : Store Repository.Memory :=
  ⟨fun now call => Repository.Memory.answer now call, fun _ _ => []⟩

def inDatabase : Store Repository.Relational :=
  ⟨fun now call => Repository.Relational.answer now call,
    fun call result => Repository.Relational.records call result⟩

end DiagramShare.Service
