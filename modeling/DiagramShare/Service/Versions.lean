import DiagramShare.Records.Request
import DiagramShare.Service.Target

/-!
Versions of documents. Versions are only ever added.
-/
namespace DiagramShare.Service

open DiagramShare.Access

def ensureAuthor (caller : Caller) : Program Unit :=
  match caller.user with
  | some user => Program.query (.ensureUser user)
  | none => .done ()

def createVersion (caller : Caller) (document : Int) (request : VersionRequest) :
    Program Version := do
  let (d, _) ← documentFor caller document .write
  let note ← Program.obey (optionalText "change_description" request.note maxNoteLength)
  ensureAuthor caller
  Program.lookUp "document" (.createNextVersion ⟨d.id, request.content, caller.user, note⟩)

def listVersions (caller : Caller) (document : Int) (query : PageQuery) :
    Program (Listing Version) := do
  let (d, _) ← documentFor caller document .read
  let page := query.normalize
  let data ← Program.query (.findVersions d.id page.limit page.offset)
  let total ← Program.query (.countVersions d.id)
  return ⟨data, total, page⟩

def getVersion (caller : Caller) (document number : Int) : Program Version := do
  let (d, _) ← documentFor caller document .read
  Program.lookUp "version" (.findVersion d.id number)

end DiagramShare.Service
