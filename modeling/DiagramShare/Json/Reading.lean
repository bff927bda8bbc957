import DiagramShare.Json.Number
import DiagramShare.Text.Hex

/-!
Reading JSON texts. What is read is a tree in which the text may break off: where it stops being
JSON stands `broken`, and nothing follows it. Who takes the tree apart in order meets the faults of
the text and the faults of its content in the order in which they stand.

A text is a list whose members are characters, or `none` for a byte that belongs to no character.
-/
namespace DiagramShare.Json

open DiagramShare.Text (hexValue?)

/-- A text that may hold bytes that belong to no character. -/
abbrev Source := List (Option Char)

/-- What has been read. A string without text is well formed but spells no characters. -/
inductive Reading where
  | null
  | boolean (b : Bool)
  | number (n : Number)
  | string (text : Option String)
  | array (items : List Reading)
  | object (entries : List (Reading × Reading))
  | broken

/-- What a reader has read, and the rest of the text unless it broke off. -/
abbrev Step := Reading × Option Source

namespace Reading

def isSpace (c : Option Char) : Bool :=
  c == some ' ' || c == some '\n' || c == some '\t' || c == some '\r'

def skipSpaces (s : Source) : Source := s.dropWhile isSpace

def dropWord : List Char → Source → Option Source
  | [], s => some s
  | c :: word, some d :: s => if c = d then dropWord word s else none
  | _ :: _, _ => none

def word (value : Reading) (letters : List Char) (s : Source) : Step :=
  match dropWord letters s with
  | some rest => (value, some rest)
  | none => (broken, none)

def digits : Source → List Char × Source
  | some c :: s =>
    if c.isDigit then
      let (more, rest) := digits s
      (c :: more, rest)
    else ([], some c :: s)
  | s => ([], s)

def fraction : Source → Option (Option (List Char) × Source)
  | some '.' :: s =>
    match digits s with
    | ([], _) => none
    | (ds, rest) => some (some ds, rest)
  | s => some (none, s)

def exponent (s : Source) : Option (Option (Bool × List Char) × Source) :=
  match s with
  | some 'e' :: s | some 'E' :: s =>
    let (down, s) := match s with
      | some '-' :: s => (true, s)
      | some '+' :: s => (false, s)
      | s => (false, s)
    match digits s with
    | ([], _) => none
    | (ds, rest) => some (some (down, ds), rest)
  | s => some (none, s)

/-- A number, after its sign. A zero has no further digits before the point. -/
def number? (isNegative : Bool) (s : Source) : Option (Number × Source) :=
  match digits s with
  | ([], _) => none
  | (whole, rest) =>
    if whole.head? = some '0' ∧ whole.length ≠ 1 then none
    else do
      let (places, rest) ← fraction rest
      let (power, rest) ← exponent rest
      return (Number.ofDigits isNegative whole places power, rest)

/-- A character of a string, or a code that spells none by itself. -/
inductive Unit where
  | char (c : Char)
  | high (n : Nat)
  | low (n : Nat)
  | stray

def fourDigits : Source → Option (Nat × Source)
  | some a :: some b :: some c :: some d :: rest => do
    let a ← hexValue? a
    let b ← hexValue? b
    let c ← hexValue? c
    let d ← hexValue? d
    return (((a * 16 + b) * 16 + c) * 16 + d, rest)
  | _ => none

def Unit.ofCode (n : Nat) : Unit :=
  if 0xD800 ≤ n ∧ n < 0xDC00 then .high n
  else if 0xDC00 ≤ n ∧ n < 0xE000 then .low n
  else .char (Char.ofNat n)

def escaped? : Char → Option Char
  | '"' => some '"'
  | '\\' => some '\\'
  | '/' => some '/'
  | 'b' => some '\x08'
  | 'f' => some '\x0c'
  | 'n' => some '\n'
  | 'r' => some '\r'
  | 't' => some '\t'
  | _ => none

def unit : Source → Option (Unit × Source)
  | some '\\' :: some 'u' :: rest => (fourDigits rest).map fun (n, rest) => (Unit.ofCode n, rest)
  | some '\\' :: some c :: rest => (escaped? c).map fun c => (.char c, rest)
  | some '\\' :: _ => none
  | some c :: rest => if c.toNat < 0x20 then none else some (.char c, rest)
  | none :: rest => some (.stray, rest)
  | [] => none

def units : Nat → Source → Option (List Unit × Source)
  | 0, _ => none
  | _ + 1, some '"' :: rest => some ([], rest)
  | steps + 1, s => do
    let (u, s) ← unit s
    let (more, s) ← units steps s
    return (u :: more, s)

/-- The characters that units spell; a pair of codes spells one. -/
def spell : List Unit → Option (List Char)
  | [] => some []
  | .char c :: rest => (spell rest).map (c :: ·)
  | .high h :: .low l :: rest =>
    (spell rest).map (Char.ofNat (0x10000 + (h - 0xD800) * 0x400 + (l - 0xDC00)) :: ·)
  | _ => none

def string? (s : Source) : Step :=
  match units (s.length + 1) s with
  | none => (broken, none)
  | some (us, rest) => (string ((spell us).map String.ofList), some rest)

mutual

/-- Reads one value. The number bounds how many values and members are still read. -/
def value : Nat → Source → Step
  | 0, _ => (broken, none)
  | steps + 1, s =>
    match skipSpaces s with
    | some 'n' :: rest => word null ['u', 'l', 'l'] rest
    | some 't' :: rest => word (boolean true) ['r', 'u', 'e'] rest
    | some 'f' :: rest => word (boolean false) ['a', 'l', 's', 'e'] rest
    | some '"' :: rest => string? rest
    | some '[' :: rest =>
      let (items, rest) := members steps true rest
      (array items, rest)
    | some '\x7b' :: rest =>
      let (entries, rest) := pairs steps true rest
      (object entries, rest)
    | some '-' :: rest =>
      match number? true rest with
      | some (n, rest) => (number n, some rest)
      | none => (broken, none)
    | rest =>
      match number? false rest with
      | some (n, rest) => (number n, some rest)
      | none => (broken, none)

def members : Nat → Bool → Source → List Reading × Option Source
  | 0, _, _ => ([broken], none)
  | steps + 1, first, s =>
    match first, skipSpaces s with
    | _, some ']' :: rest => ([], some rest)
    | true, rest => member steps rest
    | false, some ',' :: rest =>
      match skipSpaces rest with
      | some ']' :: _ => ([broken], none)
      | rest => member steps rest
    | false, _ => ([broken], none)

def member : Nat → Source → List Reading × Option Source
  | 0, _ => ([broken], none)
  | steps + 1, s =>
    match value steps s with
    | (v, none) => ([v], none)
    | (v, some rest) =>
      let (more, rest) := members steps false rest
      (v :: more, rest)

def pairs : Nat → Bool → Source → List (Reading × Reading) × Option Source
  | 0, _, _ => ([(broken, broken)], none)
  | steps + 1, first, s =>
    match first, skipSpaces s with
    | _, some '\x7d' :: rest => ([], some rest)
    | true, rest => pair steps rest
    | false, some ',' :: rest => pair steps rest
    | false, _ => ([(broken, broken)], none)

def pair : Nat → Source → List (Reading × Reading) × Option Source
  | 0, _ => ([(broken, broken)], none)
  | steps + 1, s =>
    match value steps s with
    | (key, none) => ([(key, broken)], none)
    | (key, some rest) =>
      match skipSpaces rest with
      | some ':' :: rest =>
        match value steps rest with
        | (v, none) => ([(key, v)], none)
        | (v, some rest) =>
          let (more, rest) := pairs steps false rest
          ((key, v) :: more, rest)
      | _ => ([(key, broken)], none)

end

def ofSource (s : Source) : Step := value (4 * s.length + 4) s

def ofText (s : String) : Step := ofSource (s.toList.map some)

mutual

/-- Whether a tree is whole: it broke off nowhere and its objects have strings as keys. -/
def isWhole : Reading → Bool
  | broken => false
  | array items => areWhole items
  | object entries => areWholeEntries entries
  | _ => true

def areWhole : List Reading → Bool
  | [] => true
  | r :: rest => r.isWhole && areWhole rest

def isWholeEntry : Reading × Reading → Bool
  | (.string _, v) => v.isWhole
  | _ => false

def areWholeEntries : List (Reading × Reading) → Bool
  | [] => true
  | e :: rest => isWholeEntry e && areWholeEntries rest

end

def isEnd (rest : Option Source) : Bool :=
  match rest with
  | some s => (skipSpaces s).isEmpty
  | none => false

end Reading

end DiagramShare.Json
