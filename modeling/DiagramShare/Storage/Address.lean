import DiagramShare.Text.Split
import DiagramShare.Text.Blank

/-!
Public addresses of stored objects: a base and a key with one slash between them.
-/
namespace DiagramShare.Storage

open DiagramShare.Text

/-- The address of `key` below `base`, whose slashes at the end do not count. -/
def joinUrl (base key : String) : String :=
  String.ofList (stripEndWhere (· == '/') base.toList) ++ "/" ++ key

end DiagramShare.Storage
