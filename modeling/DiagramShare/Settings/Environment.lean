import DiagramShare.Json.Value
import DiagramShare.Text.Blank
import DiagramShare.Text.Integer
import DiagramShare.Text.Split

/-!
Settings in environment variables. A variable whose name starts with the server's name sets what
the rest of its name points to, with two underscores between sections. Its value is read as a
truth value, a number, a list, a table or a quoted text if the whole of it looks like one, and as
plain text otherwise.
-/
namespace DiagramShare.Settings

open DiagramShare.Json (Value Number)
open DiagramShare.Text

abbrev Environment := List (String × String)

namespace Environment

def namePart : String := "DIAGRAMSERVER_"

abbrev Reader (α : Type) := List Char → Option (α × List Char)

def isSpace (c : Char) : Bool :=
  c == ' ' || c == '\t' || c == '\n' || c == '\r' || c == '\x0c'

def skipSpaces (cs : List Char) : List Char := cs.dropWhile isSpace

def isSeparator (c : Char) : Bool :=
  c == ',' || c == '\x7b' || c == '\x7d' || c == '[' || c == ']'

def quotedChars : List Char → Option (List Char × List Char)
  | '"' :: rest => some ([], rest)
  | '\\' :: c :: rest => (quotedChars rest).map fun (cs, rest) => ('\\' :: c :: cs, rest)
  | c :: rest => (quotedChars rest).map fun (cs, rest) => (c :: cs, rest)
  | [] => none

def codePoint (ds : List Char) : Option Char := do
  let n ← ds.foldlM (fun n c => (hexValue? c).map fun d => n * 16 + d) 0
  if n.isValidChar then return Char.ofNat n else failure

def unescape : List Char → Option (List Char)
  | [] => some []
  | '\\' :: 'u' :: a :: b :: c :: d :: rest => do
    let ch ← codePoint [a, b, c, d]
    return ch :: (← unescape rest)
  | '\\' :: 'U' :: a :: b :: c :: d :: e :: f :: g :: h :: rest => do
    let ch ← codePoint [a, b, c, d, e, f, g, h]
    return ch :: (← unescape rest)
  | '\\' :: c :: rest => do
    let ch ← match c with
      | '"' => some '"'
      | '\\' => some '\\'
      | 'b' => some '\x08'
      | 'f' => some '\x0c'
      | 'n' => some '\n'
      | 'r' => some '\r'
      | 't' => some '\t'
      | _ => none
    return ch :: (← unescape rest)
  | c :: rest => do
    if c == '\\' || (c.toNat < 0x20 && c != '\t') || c.toNat == 0x7F then failure
    return c :: (← unescape rest)

def quotedText (cs : List Char) : Option (String × List Char) := do
  let (inner, rest) ← quotedChars cs
  let inner ← unescape inner
  return (String.ofList inner, rest)

def isKeyChar (c : Char) : Bool := c.isAlphanum || c == '_' || c == '-'

def key (cs : List Char) : Option (String × List Char) :=
  match cs with
  | '"' :: rest => quotedText rest
  | cs =>
    let name := cs.takeWhile isKeyChar
    if name.isEmpty then none else some (String.ofList name, cs.drop name.length)

def float? (cs : List Char) : Option Number := do
  let (isNegative, cs) := match cs with
    | '-' :: cs => (true, cs)
    | '+' :: cs => (false, cs)
    | cs => (false, cs)
  let (mantissa, power) ← match splitFirst? (fun c => c == 'e' || c == 'E') cs with
    | none => some (cs, none)
    | some (mantissa, power) =>
      let (down, ds) := match power with
        | '-' :: ds => (true, ds)
        | '+' :: ds => (false, ds)
        | ds => (false, ds)
      if ds.isEmpty || !ds.all Char.isDigit then none else some (mantissa, some (down, ds))
  let (whole, fraction) ← splitFirst? (· == '.') mantissa
  if (whole ++ fraction).isEmpty || !(whole ++ fraction).all Char.isDigit then failure
  return Number.ofDigits isNegative whole (some fraction) power

def plain (cs : List Char) : Value :=
  match (if cs.contains '.' then float? cs else none) with
  | some n => .number n
  | none =>
    match Integer.parse 0 18446744073709551615 cs with
    | .ok n => .int n
    | .error _ =>
      match Integer.parse64 cs with
      | .ok n => .int n
      | .error _ => .string (String.ofList cs)

mutual

def value : Nat → Reader Value
  | 0, _ => none
  | steps + 1, cs => do
    let cs := skipSpaces cs
    let (v, rest) ← match cs with
      | 't' :: 'r' :: 'u' :: 'e' :: rest => some (.boolean true, rest)
      | 'f' :: 'a' :: 'l' :: 's' :: 'e' :: rest => some (.boolean false, rest)
      | '\x7b' :: rest => (entries steps [] rest).map fun (es, rest) => (.object es, rest)
      | '[' :: rest => (items steps rest).map fun (vs, rest) => (.array vs, rest)
      | '"' :: rest => (quotedText rest).map fun (s, rest) => (.string s, rest)
      | '\'' :: c :: '\'' :: rest => some (.string (String.ofList [c]), rest)
      | '\'' :: _ => none
      | cs =>
        let text := cs.takeWhile fun c => !isSeparator c
        some (plain (strip text), cs.drop text.length)
    return (v, skipSpaces rest)

def items : Nat → Reader (List Value)
  | 0, _ => none
  | steps + 1, cs =>
    match cs with
    | ']' :: rest => some ([], rest)
    | cs => do
      let (v, rest) ← value steps cs
      match rest with
      | ',' :: rest =>
        let (more, rest) ← items steps rest
        return (v :: more, rest)
      | ']' :: rest => return ([v], rest)
      | _ => failure

def entries : Nat → List (String × Value) → Reader (List (String × Value))
  | 0, _, _ => none
  | steps + 1, done, cs =>
    match cs with
    | '\x7d' :: rest => some (done, rest)
    | cs => do
      let (name, rest) ← key (skipSpaces cs)
      let (v, rest) ← match skipSpaces rest with
        | '=' :: rest => value steps (skipSpaces rest)
        | _ => none
      let done := Value.insert name v done
      match rest with
      | ',' :: rest => entries steps done rest
      | '\x7d' :: rest => return (done, rest)
      | _ => failure

end

def meaning (text : String) : Value :=
  match value (text.length + 2) text.toList with
  | some (v, []) => v
  | _ => .string text

/-- The path that the name of a variable points to, if it names a setting. -/
def path? (name : String) : Option (List String) := do
  let cs := (strip name.toList).map Char.toLower
  let rest ← dropStart? (namePart.toList.map Char.toLower) cs
  let parts := splitWhere (· == '.') (separated rest.length rest)
  if parts.any List.isEmpty then none else some (parts.map String.ofList)
where
  /-- A point in place of two underscores. -/
  separated : Nat → List Char → List Char
  | 0, cs => cs
  | steps + 1, '_' :: '_' :: rest => '.' :: separated steps rest
  | steps + 1, c :: rest => c :: separated steps rest
  | _, [] => []

def nest (v : Value) : List String → Value
  | [] => v
  | name :: path => .object [(name, nest v path)]

def get? (env : Environment) (name : String) : Option String := env.lookup name

end Environment

end DiagramShare.Settings
