import DiagramShare.Codec.Form
import DiagramShare.Http.FileType
import DiagramShare.Http.Message
import DiagramShare.Storage.Disk
import DiagramShare.Text.Blank
import DiagramShare.Text.Integer

/-!
Stored files, served as they are. A path names a file below the root; it cannot lead out of it. A
directory is answered with its index file, once the path ends in a slash. A part of a file can be
asked for.
-/
namespace DiagramShare.Http.Files

open DiagramShare.Storage
open DiagramShare.Text

def methods : List Method := [.get, .head]

def indexName : String := "index.html"

/-- The names below the root that a path spells, unless it would lead elsewhere. -/
def names? (path : List Char) : Option Path := do
  let bytes := Codec.Utf8.encode (path.dropWhile (· == '/'))
  let decoded ← Codec.Utf8.decode? (Codec.Form.percentDecode bytes)
  if decoded.head? == some '/' then failure
  let names := (splitWhere (· == '/') decoded).filter fun n => n ≠ [] ∧ n ≠ ['.']
  if names.contains ['.', '.'] then failure
  return names.map String.ofList

def isDirectory (d : Disk) (path : Path) : Bool :=
  match d.entry path with
  | .ok .directory => true
  | _ => false

inductive PartFault where
  | unusable
  | several
  deriving DecidableEq

def part? (size : Nat) (text : List Char) : Option (Nat × Nat) := do
  let number (ds : List Char) : Option Nat :=
    if ds.all Char.isDigit then
      (Integer.parse 0 18446744073709551615 ds).toOption.map Int.toNat
    else none
  let (first, last) ← splitFirst? (· == '-') text
  match first, last with
  | [], [] => none
  | [], count => do
    let count ← number count
    if count = 0 ∨ size < count then none else return (size - count, size - 1)
  | first, [] => do
    let first ← number first
    if first < size then return (first, size - 1) else none
  | first, last => do
    let first ← number first
    let last ← number last
    if first ≤ last ∧ first < size then return (first, min last (size - 1)) else none

def wantedPart (size : Nat) (text : String) : Except PartFault (Nat × Nat) :=
  match dropStart? "bytes=".toList text.toList with
  | none => .error .unusable
  | some rest =>
    let pieces := (splitWhere (· == ',') rest).map (stripWhere (· == ' '))
    match pieces.mapM (part? size) with
    | none => .error .unusable
    | some [range] => .ok range
    | some _ => .error .several

def fileResponse (name : String) (content : Bytes) (range : Option String) : Response :=
  let typed (status : Nat) (body : Bytes) : Response :=
    Response.typed status (FileType.ofName name) body
  match range.map (wantedPart content.length) with
  | none => typed 200 content
  | some (.ok (first, last)) => typed 206 ((content.drop first).take (last + 1 - first))
  | some (.error .several) =>
    typed 416 (Codec.Utf8.bytes "Cannot serve multipart range requests")
  | some (.error .unusable) => typed 416 []

def atPath (d : Disk) (path : Path) (range : Option String) : Response :=
  if path.any fun name => name.contains '\x00' then .bare 500
  else match d.entry path with
    | .ok (.file content) => fileResponse (path.getLastD "") content range
    | .ok .directory => .bare 404
    | .error .missing => .bare 404
    | .error .notDirectory => .bare 404
    | .error _ => .bare 500

/-- Answers a request for the files below the root; the target has lost the part of its path that
leads there. -/
def respond (d : Disk) (method : Method) (target : Target) (headers : Headers) : Response :=
  if !methods.contains method then
    (Response.bare 405).withField "allow" (",".intercalate (methods.map Method.name))
  else match names? target.path with
    | none => .bare 404
    | some path =>
      let range := (headers.first? "range").bind visibleText?
      if !isDirectory d path then atPath d path range
      else if target.path.getLast? == some '/' then atPath d (path ++ [indexName]) range
      else
        let location := { target with path := target.path ++ ['/'] }
        (Response.bare 307).withField "location" location.text

end DiagramShare.Http.Files
