import DiagramShare.Service.Target

/-!
Attachments of documents. An attachment lies in the storage under a key made from the document's
number and the attachment's name.
-/
namespace DiagramShare.Service

open DiagramShare.Access

/-- Where an attachment lies and how long it is. -/
structure AssetInfo where
  key : String
  url : String
  size : Nat

def allow (caller : Caller) (document : Int) (kind : Kind) : Program Unit := do
  let _ ← documentFor caller document kind
  return ()

def describe (key : String) : Program AssetInfo := do
  let size ← Program.storing (.size key)
  let url ← Program.storing (.url key)
  return ⟨key, url, size⟩

/-- Stores an attachment in place of any with its name. -/
def uploadAsset (caller : Caller) (document : Int) (name : String) (content : Storage.Content) :
    Program AssetInfo := do
  allow caller document .write
  let key ← Program.storing (.upload (Storage.Key.ofAsset document name) content)
  let info ← describe key
  let driver ← Program.storing .driver
  Program.note .info s!"Stored asset {info.key} ({info.size} bytes) via {driver.name} storage"
  return info

def openAsset (caller : Caller) (document : Int) (name : String) :
    Program (Except Storage.Failure Storage.Bytes) := do
  allow caller document .read
  Program.storing (.open_ (Storage.Key.ofAsset document name))

def assetUrl (caller : Caller) (document : Int) (name : String) : Program AssetInfo := do
  allow caller document .read
  describe (Storage.Key.ofAsset document name)

/-- Removes an attachment. One that is not there counts as removed. -/
def deleteAsset (caller : Caller) (document : Int) (name : String) : Program Unit := do
  allow caller document .write
  .store (.delete (Storage.Key.ofAsset document name)) fun
    | .ok () => .done ()
    | .error (.missing key) => Program.note .debug s!"Asset {key} was already absent"
    | .error e => .fail (.ofStorage e)

end DiagramShare.Service
