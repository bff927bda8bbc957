import DiagramShare.Access.PageQuery
import DiagramShare.Http.MediaType
import DiagramShare.Http.Route
import DiagramShare.Identity.Caller
import DiagramShare.Service.Json
import DiagramShare.Service.Shares
import DiagramShare.Service.Versions
import DiagramShare.Service.Workspaces

/-!
Endpoints: what a route does with a request. First it is found out who asks, then the parts of the
path are read, then the query or the body; the first of these that is no good is answered.
-/
namespace DiagramShare.Http

open DiagramShare.Json
open DiagramShare.Service (Program)

def Response.ofFailure (e : Access.Failure) : Response :=
  json e.status (.object [("error", .string e.code), ("message", .string e.publicMessage)])

def failureRecords : Access.Failure → List LogRecord
  | .unavailable cause => [⟨.error, s!"Request failed: {cause.message}"⟩]
  | .cancelled what =>
    [⟨.warn, s!"Request cancelled: {(Access.Failure.cancelled what).message}"⟩]
  | _ => []

def Response.ofCredentials (e : Identity.Failure) : Response :=
  (json 401 (.object [("error", .string "unauthenticated"), ("message", .string e.message)])
    ).withField "www-authenticate" "Bearer"

def credentialRecords : Identity.Failure → List LogRecord
  | .badFormat => []
  | e => [⟨.debug, s!"Rejected credentials: {e.message}"⟩]

inductive PayloadFault where
  | notJson
  | unreadable (reason : String)
  | fault (f : Fault)

def PayloadFault.message : PayloadFault → String
  | notJson => "Expected request with " ++ marked "Content-Type: application/json"
  | unreadable reason => s!"Failed to buffer the request body: {reason}"
  | fault .malformed => "Failed to parse the request body as JSON"
  | fault (.mismatch path cause) =>
    "Failed to deserialize the JSON body into the target type: " ++
      (Fault.mismatch path cause).locatedMessage

def payload (decode : Decoder α) (r : Request) : Except PayloadFault α := do
  if !MediaType.saysJson r.headers then throw .notJson
  let bytes ← r.body.whole.mapError .unreadable
  (Decode.ofSource decode (Codec.Utf8.decode bytes)).mapError .fault

structure Visit where
  settings : Settings
  request : Request

namespace Visit

/-- Goes on once it is known who asks. -/
def asking (v : Visit) (f : Caller → Program Response) : Program Response :=
  .now fun t =>
    let auth := v.settings.auth
    match Identity.caller ⟨auth.secret, auth.issuer⟩ auth.cookieName t v.request.headers
        v.request.target.queryBytes with
    | .ok caller => f caller
    | .error e => (credentialRecords e).foldr .log (.done (.ofCredentials e))

def located (said : Except PathFault α) (f : α → Program Response) : Program Response :=
  match said with
  | .ok a => f a
  | .error e => .done (.plain 400 e.message)

def paged (v : Visit) (f : Access.PageQuery → Program Response) : Program Response :=
  match Access.PageQuery.ofQuery v.request.target.queryBytes with
  | .ok q => f q
  | .error e => .fail (.invalid (.request e.message))

def told (v : Visit) (decode : Decoder α) (f : α → Program Response) : Program Response :=
  match payload decode v.request with
  | .ok a => f a
  | .error e => .fail (.invalid (.request e.message))

end Visit

def reply (status : Nat) (write : α → Value) (p : Program α) : Program Response := do
  let a ← p
  return .json status (write a)

def replyEmpty (p : Program α) : Program Response := do
  let _ ← p
  return .bare 204

def serverVersion : String := "0.1.0"

/-- Whether the store can be reached; what keeps it from being reached is logged. -/
def isHealthy : Program Bool :=
  Service.ping.attempt.andThen fun
    | .ok () => .done true
    | .error e => .log ⟨.warn, s!"Health check failed: {e.message}"⟩ (.done false)

def health (settings : Settings) : Program Response := do
  let healthy ← isHealthy
  let driver ← Program.storing .driver
  return .json (if healthy then 200 else 503) (.object [
    ("status", .string (if healthy then "healthy" else "degraded")),
    ("service", .string settings.server.name), ("version", .string serverVersion),
    ("database", .boolean healthy), ("storage", .string driver.name)])

def download (p : Program (Except Storage.Failure Storage.Bytes)) : Program Response := do
  let content ← p
  return .typed 200 "application/octet-stream" (content.toOption.getD [])

/-- What a route does with a request. Any method but those that change something only reads. -/
def endpoint (v : Visit) : Route → Method → Program Response
  | .health, _ => health v.settings
  | .ping, _ =>
    .done (.json 200 (.object [("status", .string "ok"), ("version", .string serverVersion)]))
  | .workspaces, .post =>
    v.asking fun caller => v.told WorkspaceRequest.decode fun r =>
      reply 201 Workspace.toValue (Service.createWorkspace caller r)
  | .workspaces, _ =>
    v.asking fun caller => v.paged fun q =>
      reply 200 (Access.Listing.toValue Workspace.toValue) (Service.listWorkspaces caller q)
  | .workspace id, .put =>
    v.asking fun caller => Visit.located (PathFault.single id) fun id =>
      v.told WorkspaceUpdate.decode fun r =>
        reply 200 Workspace.toValue (Service.updateWorkspace caller id r)
  | .workspace id, .delete =>
    v.asking fun caller => Visit.located (PathFault.single id) fun id =>
      replyEmpty (Service.deleteWorkspace caller id)
  | .workspace id, _ =>
    v.asking fun caller => Visit.located (PathFault.single id) fun id =>
      reply 200 Workspace.toValue (Service.getWorkspace caller id)
  | .workspaceDocuments id, .post =>
    v.asking fun caller => Visit.located (PathFault.single id) fun id =>
      v.told DocumentRequest.decode fun r =>
        reply 201 Service.DocumentDetail.toValue (Service.createDocument caller id r)
  | .workspaceDocuments id, _ =>
    v.asking fun caller => Visit.located (PathFault.single id) fun id => v.paged fun q =>
      reply 200 (Access.Listing.toValue Document.toValue) (Service.listDocuments caller id q)
  | .document id, .put =>
    v.asking fun caller => Visit.located (PathFault.single id) fun id =>
      v.told DocumentUpdate.decode fun r =>
        reply 200 Document.toValue (Service.updateDocument caller id r)
  | .document id, .delete =>
    v.asking fun caller => Visit.located (PathFault.single id) fun id =>
      replyEmpty (Service.deleteDocument caller id)
  | .document id, _ =>
    v.asking fun caller => Visit.located (PathFault.single id) fun id =>
      reply 200 Service.DocumentDetail.toValue (Service.getDocument caller id)
  | .versions id, .post =>
    v.asking fun caller => Visit.located (PathFault.single id) fun id =>
      v.told VersionRequest.decode fun r =>
        reply 201 Version.toValue (Service.createVersion caller id r)
  | .versions id, _ =>
    v.asking fun caller => Visit.located (PathFault.single id) fun id => v.paged fun q =>
      reply 200 (Access.Listing.toValue Version.toValue) (Service.listVersions caller id q)
  | .version id number, _ =>
    v.asking fun caller => Visit.located (PathFault.twoNumbers id number .int32)
      fun (id, number) => reply 200 Version.toValue (Service.getVersion caller id number)
  | .shares id, .post =>
    v.asking fun caller => Visit.located (PathFault.single id) fun id =>
      v.told ShareRequest.decode fun r =>
        reply 201 Share.toValue (Service.shareDocument caller id r)
  | .shares id, _ =>
    v.asking fun caller => Visit.located (PathFault.single id) fun id => v.paged fun q =>
      reply 200 (Access.Listing.toValue Share.toValue) (Service.listShares caller id q)
  | .share id number, .delete =>
    v.asking fun caller => Visit.located (PathFault.twoNumbers id number .int64)
      fun (id, number) => replyEmpty (Service.revokeShare caller id number)
  | .share id number, _ =>
    v.asking fun caller => Visit.located (PathFault.twoNumbers id number .int64)
      fun (id, number) => v.told ShareUpdate.decode fun r =>
        reply 200 Share.toValue (Service.updateShare caller id number r)
  | .asset id name, .put =>
    v.asking fun caller => Visit.located (PathFault.numberAndName id name) fun (id, name) =>
      reply 201 Service.AssetInfo.toValue
        (Service.uploadAsset caller id name v.request.body.content)
  | .asset id name, .delete =>
    v.asking fun caller => Visit.located (PathFault.numberAndName id name) fun (id, name) =>
      replyEmpty (Service.deleteAsset caller id name)
  | .asset id name, _ =>
    v.asking fun caller => Visit.located (PathFault.numberAndName id name) fun (id, name) =>
      download (Service.openAsset caller id name)
  | .assetInfo id name, _ =>
    v.asking fun caller => Visit.located (PathFault.numberAndName id name) fun (id, name) =>
      reply 200 Service.AssetInfo.toValue (Service.assetUrl caller id name)

end DiagramShare.Http
