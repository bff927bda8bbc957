import DiagramShare.Codec.Utf8
import DiagramShare.Text.Split

/-!
Targets of HTTP requests: a path and perhaps a query, after the scheme and host of an absolute
address and before a fragment, which is dropped.
-/
namespace DiagramShare.Http

open DiagramShare.Text

structure Target where
  origin : List Char
  path : List Char
  query : Option (List Char)
  deriving DecidableEq

namespace Target

def splitOrigin (cs : List Char) : List Char × List Char :=
  if cs.head? == some '/' then ([], cs)
  else match breakOn? "://".toList cs with
    | none => ([], cs)
    | some (scheme, rest) =>
      let host := rest.takeWhile fun c => c != '/' && c != '?'
      (scheme ++ "://".toList ++ host, rest.drop host.length)

/-- Reads a target. An absolute address without a path has the root for one. -/
def ofText (text : String) : Target :=
  let (origin, rest) := splitOrigin (text.toList.takeWhile (· != '#'))
  let (path, query) := match splitFirst? (· == '?') rest with
    | some (path, query) => (path, some query)
    | none => (rest, none)
  ⟨origin, if path.isEmpty && !origin.isEmpty then ['/'] else path, query⟩

def text (t : Target) : String :=
  let query := match t.query with
    | some query => '?' :: query
    | none => []
  String.ofList (t.origin ++ t.path ++ query)

def queryBytes (t : Target) : List UInt8 := Codec.Utf8.encode (t.query.getD [])

def segments (t : Target) : List String :=
  (splitWhere (· == '/') t.path).map String.ofList

end Target

end DiagramShare.Http
