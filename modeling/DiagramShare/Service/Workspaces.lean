import DiagramShare.Records.Request
import DiagramShare.Service.Target

/-!
Workspaces. A name is used once by each owner; deleting a workspace deletes what is in it.
-/
namespace DiagramShare.Service

open DiagramShare.Access

def createWorkspace (caller : Caller) (request : WorkspaceRequest) : Program Workspace := do
  let owner ← userOf caller
  let name ← Program.obey (requiredText "name" request.name maxNameLength)
  let description ←
    Program.obey (optionalText "description" request.description maxDescriptionLength)
  Program.query (.ensureUser owner)
  let taken ← Program.query (.workspaceNameExists owner name none)
  Program.refuseIf taken (.workspaceName name)
  let w ← Program.query
    (.createWorkspace ⟨name, description, owner, request.isPublic.getD false⟩)
  Program.note .info s!"User {owner} created workspace {w.id}"
  return w

def getWorkspace (caller : Caller) (id : Int) : Program Workspace := workspaceFor caller id .read

def listWorkspaces (caller : Caller) (query : PageQuery) : Program (Listing Workspace) := do
  let owner ← userOf caller
  let page := query.normalize
  let data ← Program.query (.findWorkspaces owner page.limit page.offset)
  let total ← Program.query (.countWorkspaces owner)
  return ⟨data, total, page⟩

def newName : Option String → Except Invalid (Option String)
  | none => .ok none
  | some name => (requiredText "name" name maxNameLength).map some

/-- A new description of a workspace; a blank one clears it. -/
def newDescription : Option String → Except Invalid (Option (Option String))
  | none => .ok none
  | some text => (optionalText "description" (some text) maxDescriptionLength).map some

def freeName (w : Workspace) (id : Int) : Option String → Program Unit
  | none => .done ()
  | some name =>
    if name = w.name then .done ()
    else do
      let taken ← Program.query (.workspaceNameExists w.owner name (some id))
      Program.refuseIf taken (.workspaceName name)

def updateWorkspace (caller : Caller) (id : Int) (request : WorkspaceUpdate) :
    Program Workspace := do
  let w ← workspaceFor caller id .manage
  let name ← Program.obey (newName request.name)
  let description ← Program.obey (newDescription request.description)
  freeName w id name
  Program.lookUp "workspace" (.updateWorkspace id ⟨name, description, request.isPublic⟩)

def deleteWorkspace (caller : Caller) (id : Int) : Program CascadeSummary := do
  let _ ← workspaceFor caller id .manage
  let now ← Program.clock
  let summary ← Program.lookUp "workspace" (.deleteWorkspace id now)
  Program.note .info
    s!"Workspace {id} deleted by user {userText caller.user}: {summary.documents} documents, {summary.shares} shares"
  return summary

end DiagramShare.Service
