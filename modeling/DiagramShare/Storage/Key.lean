import DiagramShare.Text.Blank
import DiagramShare.Text.Split

/-!
Storage keys. A key names a stored object by segments with slashes between them. `Key.normalize`
accepts exactly the texts that satisfy `Key.Acceptable` and returns their segments joined by single
slashes; `Key.segment` turns any file name into one segment.
-/
namespace DiagramShare.Storage.Key

open DiagramShare.Text

def maxBytes : Nat := 1024

def maxDepth : Nat := 16

inductive Fault where
  | empty
  | tooLong
  | absolute (key : String)
  | dangerous (key : String)
  | upward (key : String)
  | noSegments (key : String)
  | tooDeep
  | stated (text : String)
  deriving DecidableEq

def Fault.message : Fault → String
  | .empty => "empty key"
  | .tooLong => s!"key exceeds {maxBytes} bytes"
  | .absolute key => s!"absolute key: {key}"
  | .dangerous key => s!"unsafe key: {key}"
  | .upward key => s!"traversal in key: {key}"
  | .noSegments key => s!"no path segments in: {key}"
  | .tooDeep => s!"key nests deeper than {maxDepth} levels"
  | .stated text => text

/-- Spellings, in lower case, that could be taken for a separator or a dot after decoding. -/
def dangerousSpellings : List (List Char) :=
  [['\\'], ['%', '0', '0'], ['%', '2', 'e'], ['%', '2', 'f'], ['%', '5', 'c']]

def occursIn (part cs : List Char) : Bool := (breakOn? part cs).isSome

def isDangerous (cs : List Char) : Bool :=
  (dangerousSpellings.any fun part => occursIn part (cs.map Char.toLower)) || cs.any isControl

def pieces (cs : List Char) : List (List Char) := splitWhere (· == '/') cs

/-- The segments that count: neither empty nor a single dot. -/
def segments (cs : List Char) : List (List Char) :=
  (pieces cs).filter fun piece => !piece.isEmpty && piece != ['.']

/-- What a text must be to name an object. -/
structure Acceptable (cs : List Char) : Prop where
  nonempty : cs ≠ []
  short : (String.ofList cs).utf8ByteSize ≤ maxBytes
  relative : cs.head? ≠ some '/'
  harmless : isDangerous cs = false
  downward : ['.', '.'] ∉ pieces cs
  named : segments cs ≠ []
  shallow : (segments cs).length ≤ maxDepth

/-- The canonical spelling of a key: its segments joined by single slashes. -/
def normalize (key : String) : Except Fault String :=
  let cs := key.toList
  if cs.isEmpty then .error .empty
  else if maxBytes < key.utf8ByteSize then .error .tooLong
  else if cs.head? == some '/' then .error (.absolute key)
  else if isDangerous cs then .error (.dangerous key)
  else if (pieces cs).contains ['.', '.'] then .error (.upward key)
  else if (segments cs).isEmpty then .error (.noSegments key)
  else if maxDepth < (segments cs).length then .error .tooDeep
  else .ok (String.ofList (joinWith '/' (segments cs)))

def isReplaced (c : Char) : Bool :=
  c == '/' || c == '\\' || c == ':' || c == '*' || c == '?' || c == '"' || c == '<' || c == '>' ||
    c == '|' || isControl c

def unnamed : String := "unnamed"

def maxSegment : Nat := 255

/-- A single safe segment for any file name. -/
def segment (name : String) : String :=
  let replaced := name.toList.map fun c => if isReplaced c then '_' else c
  let trimmed := stripWhere (fun c => c == '.' || c == ' ') replaced
  if trimmed.isEmpty then unnamed else String.ofList (trimmed.take maxSegment)

/-- The key of an attachment of a document. -/
def ofAsset (document : Int) (name : String) : String := s!"documents/{document}/{segment name}"

end DiagramShare.Storage.Key
