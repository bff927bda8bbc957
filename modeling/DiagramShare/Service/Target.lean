import DiagramShare.Access.Paging
import DiagramShare.Service.Program

/-!
Targets of requests. A request names a workspace or a document; the row is loaded, the caller is
checked against it, and only then does the program go on with it.
-/
namespace DiagramShare.Service

open DiagramShare.Access

def userOf (caller : Caller) : Program Int :=
  match caller.user with
  | some user => .done user
  | none => .fail .unauthenticated

def kindText : Kind → String
  | .read => "Read"
  | .write => "Write"
  | .manage => "Manage"

def decisionText : Decision → String
  | .allowed => "Allowed"
  | .forbidden => "Forbidden"
  | .notFound => "NotFound"

def userText : Option Int → String
  | none => "None"
  | some id => s!"Some({id})"

def noteDenial (decision : Decision) (caller : Caller) (kind : Kind) (what : String) (id : Int) :
    Program Unit :=
  if decision = .allowed then .done ()
  else .note .debug
    s!"{kindText kind} access to {what} {id} denied ({decisionText decision}) for user {userText caller.user}"

/-- Ends the program with the refusal that a decision means. -/
def heed (decision : Decision) (caller : Caller) (what : String) : Program Unit :=
  match decision.refusal? caller what with
  | none => .done ()
  | some e => .fail e

def present (what : String) : Option α → Program α
  | some a => .done a
  | none => .fail (.notFound what)

/-- Checks a caller against what was found and goes on with it, or ends with the refusal. -/
def letThrough (caller : Caller) (kind : Kind) (what : String) (id : Int) (found : Option α)
    (resource : α → Resource) (grants : List Share) : Program α := do
  let now ← Program.clock
  let decision := authorize (found.map resource) caller kind grants now
  noteDenial decision caller kind what id
  heed decision caller what
  present what found

def workspaceFor (caller : Caller) (id : Int) (kind : Kind) : Program Workspace := do
  let row ← Program.find? (.findWorkspace id)
  letThrough caller kind "workspace" id row .workspace []

/-- The shares that may matter. Owners need none, and who has shown nothing has none. -/
def grantsFor (caller : Caller) : Option (Document × Workspace) → Program (List Share)
  | none => .done []
  | some (d, w) =>
    if caller.isAnonymous || caller.user == some w.owner then .done []
    else Program.query (.findGrants d.id caller.user caller.token)

def workspaceOf : Option Document → Program (Option Workspace)
  | none => .done none
  | some d => Program.find? (.findWorkspace d.workspace)

def both : Option Document → Option Workspace → Option (Document × Workspace)
  | some d, some w => some (d, w)
  | _, _ => none

/-- The document with a number and its workspace, for a caller who may do this kind of thing. -/
def documentFor (caller : Caller) (id : Int) (kind : Kind) : Program (Document × Workspace) := do
  let d ← Program.find? (.findDocument id)
  let w ← workspaceOf d
  let target := both d w
  let grants ← grantsFor caller target
  letThrough caller kind "document" id target (fun (d, w) => .document d w) grants

def ping : Program Unit := Program.query .ping

end DiagramShare.Service
