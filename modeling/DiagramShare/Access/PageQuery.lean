import DiagramShare.Access.Paging
import DiagramShare.Codec.Form
import DiagramShare.Text.Integer

/-!
The page that a query string asks for. Names other than those of a page are passed over; a name may
be given once.
-/
namespace DiagramShare.Access.PageQuery

open DiagramShare.Codec
open DiagramShare.Text

inductive Fault where
  | duplicate (field : String)
  | number (field : String) (fault : Integer.Fault)

def Fault.message : Fault → String
  | duplicate field => "Failed to deserialize query string: duplicate field \x60" ++ field ++ "\x60"
  | number field fault => s!"Failed to deserialize query string: {field}: {fault.message}"

def ofPairs : PageQuery → List (String × String) → Except Fault PageQuery
  | q, [] => .ok q
  | q, (name, value) :: rest =>
    if name = "page" then do
      if q.page.isSome then throw (.duplicate name)
      let n ← (Integer.parse64 value.toList).mapError (.number name)
      ofPairs { q with page := some n } rest
    else if name = "limit" then do
      if q.limit.isSome then throw (.duplicate name)
      let n ← (Integer.parse64 value.toList).mapError (.number name)
      ofPairs { q with limit := some n } rest
    else ofPairs q rest

def ofQuery (query : List UInt8) : Except Fault PageQuery := ofPairs ⟨none, none⟩ (Form.pairs query)

end DiagramShare.Access.PageQuery
