import DiagramShare.Records.Json
import DiagramShare.Service.Assets
import DiagramShare.Service.Documents

/-!
Results of the service as JSON.
-/
namespace DiagramShare

open DiagramShare.Json

def CascadeSummary.toValue (s : CascadeSummary) : Value :=
  .object [("documents", .nat s.documents), ("shares", .nat s.shares)]

def Access.Listing.toValue (write : α → Value) (l : Access.Listing α) : Value :=
  .object [
    ("data", .array (l.data.map write)), ("total", .int l.total), ("page", .int l.page.number),
    ("limit", .int l.page.limit)]

def Service.DocumentDetail.toValue (d : Service.DocumentDetail) : Value :=
  .object (d.document.toEntries ++
    [("latest_version", .optional Version.toValue d.latestVersion)])

def Service.AssetInfo.toValue (a : Service.AssetInfo) : Value :=
  .object [("key", .string a.key), ("url", .string a.url), ("size", .nat a.size)]

end DiagramShare
