import DiagramShare.Storage.Key

/-!
How a storage call fails.
-/
namespace DiagramShare.Storage

inductive Failure where
  | missing (key : String)
  | cancelled
  | badKey (fault : Key.Fault)
  | io (text : String)
  | transport (text : String)
  | settings (text : String)
  deriving DecidableEq

def Failure.message : Failure → String
  | missing key => s!"object not found: {key}"
  | cancelled => "transfer cancelled"
  | badKey fault => s!"invalid storage key: {fault.message}"
  | io text => s!"storage I/O error: {text}"
  | transport text => s!"storage transport error: {text}"
  | settings text => s!"storage configuration error: {text}"

end DiagramShare.Storage
