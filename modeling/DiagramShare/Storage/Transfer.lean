import DiagramShare.Storage.Disk

/-!
Contents on their way into the storage. A content comes in pieces and ends in one of four ways: it
is complete, its reading fails, it is cancelled and never goes on, or it is cancelled just as it
ends.
-/
namespace DiagramShare.Storage

inductive Ending where
  | complete
  | broken (text : String)
  | cancelled
  | cancelledAtEnd
  deriving DecidableEq

/-- A content to be stored. It may be cancelled before it starts. -/
structure Content where
  pieces : List Bytes
  ending : Ending
  cancelledBefore : Bool
  deriving DecidableEq

namespace Content

def bytes (c : Content) : Bytes := c.pieces.flatten

def whole? (c : Content) : Option Bytes :=
  if c.cancelledBefore then none
  else match c.ending with
    | .complete => some c.bytes
    | _ => none

def ofBytes (bs : Bytes) : Content := ⟨[bs], .complete, false⟩

end Content

end DiagramShare.Storage
