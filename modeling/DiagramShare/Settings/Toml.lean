import DiagramShare.Json.Value
import DiagramShare.Text.Hex
import DiagramShare.Text.Split
import DiagramShare.Time.Calendar

/-!
TOML documents. A document is read into a tree of tables and from there into one value. A table may
be opened by a header once; keys with points open tables on their way; what has a value is closed.

Readers take what they know from the front of the text and return it with the rest, or nothing
where the text is no TOML.
-/
namespace DiagramShare.Settings.Toml

open DiagramShare.Json (Value Number)
open DiagramShare.Text (hexValue?)
open DiagramShare.Time (Date)

abbrev Reader (α : Type) := List Char → Option (α × List Char)

def maxDepth : Nat := 79

/-- Something under a key. A table remembers whether a header opened it and whether a key with
points made it. -/
inductive Node where
  | leaf (v : Value)
  | table (entries : List (String × Node)) (opened dotted : Bool)
  | tables (all : List (List (String × Node)))

abbrev Entries := List (String × Node)

def put (key : String) (node : Node) : Entries → Entries
  | [] => [(key, node)]
  | (k, n) :: rest => if k = key then (k, node) :: rest else (k, n) :: put key node rest

/-- Changes the table at the end of a path. Headers pass through opened tables, keys do not. -/
def within (header : Bool) (change : Entries → Option Entries) : List String → Entries →
    Option Entries
  | [], entries => change entries
  | key :: path, entries =>
    match entries.lookup key with
    | none => do
      let inner ← within header change path []
      return put key (.table inner false (!header)) entries
    | some (.table inner opened dotted) => do
      if !header && opened then failure
      let inner ← within header change path inner
      return put key (.table inner opened dotted) entries
    | some (.tables all) => do
      let inner ← within header change path (all.getLastD [])
      return put key (.tables (all.dropLast ++ [inner])) entries
    | some (.leaf _) => none

def openTable (key : String) (entries : Entries) : Option Entries :=
  match entries.lookup key with
  | none => some (put key (.table [] true false) entries)
  | some (.table inner false false) => some (put key (.table inner true false) entries)
  | some _ => none

def addTable (key : String) (entries : Entries) : Option Entries :=
  match entries.lookup key with
  | none => some (put key (.tables [[]]) entries)
  | some (.tables all) => some (put key (.tables (all ++ [[]])) entries)
  | some _ => none

def addLeaf (key : String) (v : Value) (entries : Entries) : Option Entries :=
  match entries.lookup key with
  | none => some (put key (.leaf v) entries)
  | some _ => none

def atPath (header : Bool) (path : List String) (change : String → Entries → Option Entries)
    (entries : Entries) : Option Entries :=
  match path.getLast? with
  | none => none
  | some key => within header (change key) path.dropLast entries

mutual

def Node.value : Node → Value
  | .leaf v => v
  | .table entries _ _ => .object (fields entries)
  | .tables all => .array (tableValues all)

def fields : List (String × Node) → List (String × Value)
  | [] => []
  | e :: rest => entryValue e :: fields rest

def entryValue : String × Node → String × Value
  | (key, node) => (key, node.value)

def tableValues : List (List (String × Node)) → List Value
  | [] => []
  | entries :: rest => .object (fields entries) :: tableValues rest

end

def isSpace (c : Char) : Bool := c == ' ' || c == '\t'

def skipSpaces (cs : List Char) : List Char := cs.dropWhile isSpace

def isPlain (c : Char) : Bool := c == '\t' || (0x20 ≤ c.toNat && c.toNat != 0x7F)

def newline? : List Char → Option (List Char)
  | '\n' :: rest => some rest
  | '\r' :: '\n' :: rest => some rest
  | _ => none

def skipComment (cs : List Char) : List Char :=
  match cs with
  | '#' :: rest => rest.dropWhile isPlain
  | cs => cs

def lineEnd? (cs : List Char) : Option (List Char) :=
  match skipComment (skipSpaces cs) with
  | [] => some []
  | cs => newline? cs

def skipLines : Nat → List Char → List Char
  | 0, cs => cs
  | steps + 1, cs =>
    let rest := skipComment (skipSpaces cs)
    match newline? rest with
    | some rest => skipLines steps rest
    | none => rest

def skipAll (cs : List Char) : List Char := skipLines cs.length cs

def codePoint (digits : Nat) : Reader Char := fun cs =>
  let ds := cs.take digits
  if ds.length = digits then do
    let n ← ds.foldlM (fun n c => (hexValue? c).map fun d => n * 16 + d) 0
    if n.isValidChar then return (Char.ofNat n, cs.drop digits) else failure
  else none

def escape : Reader Char
  | 'b' :: rest => some ('\x08', rest)
  | 't' :: rest => some ('\t', rest)
  | 'n' :: rest => some ('\n', rest)
  | 'f' :: rest => some ('\x0c', rest)
  | 'r' :: rest => some ('\r', rest)
  | '"' :: rest => some ('"', rest)
  | '\\' :: rest => some ('\\', rest)
  | 'u' :: rest => codePoint 4 rest
  | 'U' :: rest => codePoint 8 rest
  | _ => none

def basic : Nat → Reader (List Char)
  | 0, _ => none
  | steps + 1, cs =>
    match cs with
    | '"' :: rest => some ([], rest)
    | '\\' :: rest => do
      let (c, rest) ← escape rest
      let (more, rest) ← basic steps rest
      return (c :: more, rest)
    | c :: rest => do
      if !isPlain c then failure
      let (more, rest) ← basic steps rest
      return (c :: more, rest)
    | [] => none

def literal : Reader (List Char)
  | '\'' :: rest => some ([], rest)
  | c :: rest => do
    if !isPlain c then failure
    let (more, rest) ← literal rest
    return (c :: more, rest)
  | [] => none

/-- The closing marks of a long string, of which up to two belong to it. -/
def closing (mark : Char) (cs : List Char) : Option (List Char × List Char) :=
  let n := (cs.takeWhile (· == mark)).length
  if n < 3 then none
  else
    let kept := min (n - 3) 2
    some (List.replicate kept mark, cs.drop (kept + 3))

def long (mark : Char) (escapes : Bool) : Nat → Reader (List Char)
  | 0, _ => none
  | steps + 1, cs =>
    match closing mark cs with
    | some done => some done
    | none =>
      match cs with
      | [] => none
      | '\r' :: '\n' :: rest => do
        let (more, rest) ← long mark escapes steps rest
        return ('\n' :: more, rest)
      | c :: rest =>
        if escapes && c == '\\' then
          match newline? (skipSpaces rest) with
          | some rest =>
            long mark escapes steps (rest.dropWhile fun c => isSpace c || c == '\n' || c == '\r')
          | none => do
            let (c, rest) ← escape rest
            let (more, rest) ← long mark escapes steps rest
            return (c :: more, rest)
        else do
          if !(isPlain c || c == '\n') then failure
          let (more, rest) ← long mark escapes steps rest
          return (c :: more, rest)

def afterOpening (cs : List Char) : List Char := (newline? cs).getD cs

def stringValue : Reader String := fun cs =>
  let steps := cs.length + 1
  let done := match cs with
    | '"' :: '"' :: '"' :: rest => long '"' true steps (afterOpening rest)
    | '"' :: rest => basic steps rest
    | '\'' :: '\'' :: '\'' :: rest => long '\'' false steps (afterOpening rest)
    | '\'' :: rest => literal rest
    | _ => none
  done.map fun (s, rest) => (String.ofList s, rest)

def isBareKey (c : Char) : Bool := c.isAlphanum || c == '_' || c == '-'

def simpleKey : Reader String
  | '"' :: rest =>
    (basic (rest.length + 1) rest).map fun (s, rest) => (String.ofList s, rest)
  | '\'' :: rest => (literal rest).map fun (s, rest) => (String.ofList s, rest)
  | cs =>
    let key := cs.takeWhile isBareKey
    if key.isEmpty then none else some (String.ofList key, cs.drop key.length)

def keys : Nat → Reader (List String)
  | 0, _ => none
  | steps + 1, cs => do
    let (key, rest) ← simpleKey (skipSpaces cs)
    match skipSpaces rest with
    | '.' :: rest =>
      let (more, rest) ← keys steps rest
      return (key :: more, rest)
    | rest => return ([key], rest)

def path? : Reader (List String) := fun cs => do
  let (path, rest) ← keys cs.length cs
  if maxDepth < path.length then failure
  return (path, rest)

/-- Digits, of which any two may have one underscore between them, without the underscores. -/
def spacedDigits (isDigit : Char → Bool) (cs : List Char) : Option (List Char) :=
  let pieces := Text.splitWhere (· == '_') cs
  if pieces.all fun p => !p.isEmpty && p.all isDigit then some pieces.flatten else none

def valueIn (base : Nat) (ds : List Char) : Nat :=
  ds.foldl (fun n c => n * base + (hexValue? c).getD 0) 0

def ranged (n : Int) : Option Value :=
  if -9223372036854775808 ≤ n ∧ n ≤ 9223372036854775807 then some (.int n) else none

def wholeDigits (cs : List Char) : Option (List Char) := do
  let ds ← spacedDigits Char.isDigit cs
  if ds.head? == some '0' && ds.length ≠ 1 then failure
  return ds

def integer? : List Char → Option Value
  | '0' :: 'x' :: ds => do ranged (valueIn 16 (← spacedDigits (fun c => (hexValue? c).isSome) ds))
  | '0' :: 'o' :: ds => do ranged (valueIn 8 (← spacedDigits (fun c => '0' ≤ c && c ≤ '7') ds))
  | '0' :: 'b' :: ds => do ranged (valueIn 2 (← spacedDigits (fun c => c == '0' || c == '1') ds))
  | '-' :: ds => do ranged (-(valueIn 10 (← wholeDigits ds) : Int))
  | '+' :: ds => do ranged (valueIn 10 (← wholeDigits ds))
  | ds => do ranged (valueIn 10 (← wholeDigits ds))

def exponentDigits (cs : List Char) : Option (Bool × List Char) :=
  match cs with
  | '-' :: ds => (spacedDigits Char.isDigit ds).map fun ds => (true, ds)
  | '+' :: ds => (spacedDigits Char.isDigit ds).map fun ds => (false, ds)
  | ds => (spacedDigits Char.isDigit ds).map fun ds => (false, ds)

/-- A number with a fraction or an exponent, or the name of one. One that is too great for a float
is refused; one that is too far below zero is not. -/
def float? (cs : List Char) : Option Value := do
  let (isNegative, cs) := match cs with
    | '-' :: cs => (true, cs)
    | '+' :: cs => (false, cs)
    | cs => (false, cs)
  if cs = ['i', 'n', 'f'] ∨ cs = ['n', 'a', 'n'] then return .number .outOfRange
  let (mantissa, power) ← match Text.splitFirst? (fun c => c == 'e' || c == 'E') cs with
    | none => some (cs, none)
    | some (mantissa, power) => (exponentDigits power).map fun p => (mantissa, some p)
  let (whole, fraction) ← match Text.splitFirst? (· == '.') mantissa with
    | none => some (mantissa, none)
    | some (whole, fraction) =>
      (spacedDigits Char.isDigit fraction).map fun f => (whole, some f)
  let whole ← wholeDigits whole
  if fraction.isNone && power.isNone then failure
  match Number.ofDigits isNegative whole fraction power with
  | .outOfRange => if isNegative then return .number .outOfRange else failure
  | n => return .number n

def fixed (digits hi : Nat) : Reader Nat := fun cs =>
  let ds := cs.take digits
  let n := valueIn 10 ds
  if ds.length = digits ∧ ds.all Char.isDigit ∧ n ≤ hi then some (n, cs.drop digits) else none

def mark (c : Char) (cs : List Char) : Option (List Char) :=
  match cs with
  | d :: rest => if c = d then some rest else none
  | [] => none

def date? (cs : List Char) : Option (List Char) := do
  let (year, cs) ← fixed 4 9999 cs
  let cs ← mark '-' cs
  let (month, cs) ← fixed 2 12 cs
  let cs ← mark '-' cs
  let (day, cs) ← fixed 2 31 cs
  guard (Date.Valid ⟨year, month, day⟩)
  return cs

def clock? (cs : List Char) : Option (List Char) := do
  let (_, cs) ← fixed 2 23 cs
  let cs ← mark ':' cs
  let (_, cs) ← fixed 2 59 cs
  let cs ← mark ':' cs
  let (_, cs) ← fixed 2 60 cs
  match cs with
  | '.' :: rest =>
    let ds := rest.takeWhile Char.isDigit
    if ds.isEmpty then failure else return rest.drop ds.length
  | cs => return cs

def offset? (cs : List Char) : Option (List Char) :=
  match cs with
  | [] => some []
  | 'Z' :: rest | 'z' :: rest => some rest
  | c :: rest => do
    if c ≠ '+' ∧ c ≠ '-' then failure
    let (_, rest) ← fixed 2 23 rest
    let rest ← mark ':' rest
    let (_, rest) ← fixed 2 59 rest
    return rest

def time? (cs : List Char) : Option Value := do
  let rest ← match date? cs with
    | none => clock? cs
    | some [] => some []
    | some (c :: rest) => do
      if c ≠ 'T' ∧ c ≠ 't' ∧ c ≠ ' ' then failure
      let rest ← clock? rest
      offset? rest
  if rest.isEmpty then return .object [("datetime", .string (String.ofList cs))] else failure

def isWordChar (c : Char) : Bool := c.isAlphanum || c == '_' || c == '+' || c == '-' ||
  c == '.' || c == ':'

def word (cs : List Char) : List Char × List Char :=
  let w := cs.takeWhile isWordChar
  let rest := cs.drop w.length
  match date? w, rest with
  | some [], ' ' :: c :: more =>
    if c.isDigit then
      let clock := (c :: more).takeWhile isWordChar
      (w ++ ' ' :: clock, (c :: more).drop clock.length)
    else (w, rest)
  | _, _ => (w, rest)

def scalar : Reader Value := fun cs =>
  let (w, rest) := word cs
  let v :=
    if w = ['t', 'r', 'u', 'e'] then some (.boolean true)
    else if w = ['f', 'a', 'l', 's', 'e'] then some (.boolean false)
    else (integer? w <|> float? w <|> time? w)
  v.map fun v => (v, rest)

mutual

/-- Reads a value. `depth` more values may stand around what is in it, and `steps` bounds how far
it reaches. -/
def value (depth : Nat) : Nat → Reader Value
  | 0, _ => none
  | steps + 1, cs =>
    match cs, depth with
    | '"' :: _, _ => (stringValue cs).map fun (s, rest) => (.string s, rest)
    | '\'' :: _, _ => (stringValue cs).map fun (s, rest) => (.string s, rest)
    | '[' :: _, 0 => none
    | '\x7b' :: _, 0 => none
    | '[' :: rest, depth + 1 => (items depth steps rest).map fun (vs, rest) => (.array vs, rest)
    | '\x7b' :: rest, depth + 1 =>
      match skipSpaces rest with
      | '\x7d' :: rest => some (.object [], rest)
      | rest =>
        (inlineEntries depth steps [] rest).map fun (es, rest) => (.object (fields es), rest)
    | cs, _ => scalar cs

def items (depth : Nat) : Nat → Reader (List Value)
  | 0, _ => none
  | steps + 1, cs =>
    match skipAll cs with
    | ']' :: rest => some ([], rest)
    | rest => do
      let (v, rest) ← value depth steps rest
      match skipAll rest with
      | ',' :: rest =>
        let (more, rest) ← items depth steps rest
        return (v :: more, rest)
      | ']' :: rest => return ([v], rest)
      | _ => failure

def inlineEntries (depth : Nat) : Nat → Entries → Reader Entries
  | 0, _, _ => none
  | steps + 1, done, cs => do
    let (path, rest) ← path? cs
    let rest ← mark '=' rest
    let (v, rest) ← value depth steps (skipSpaces rest)
    let done ← atPath false path (fun key => addLeaf key v) done
    match skipSpaces rest with
    | ',' :: rest => inlineEntries depth steps done rest
    | '\x7d' :: rest => return (done, rest)
    | _ => failure

end

def line (current : List String) (doc : Entries) (cs : List Char) :
    Option (List String × Entries × List Char) :=
  match skipSpaces cs with
  | '[' :: '[' :: rest => do
    let (path, rest) ← path? rest
    let rest ← mark ']' rest
    let rest ← mark ']' rest
    let doc ← atPath true path addTable doc
    return (path, doc, ← lineEnd? rest)
  | '[' :: rest => do
    let (path, rest) ← path? rest
    let rest ← mark ']' rest
    let doc ← atPath true path openTable doc
    return (path, doc, ← lineEnd? rest)
  | rest =>
    match lineEnd? rest with
    | some rest => some (current, doc, rest)
    | none => do
      let (path, after) ← path? rest
      let after ← mark '=' after
      let (v, after) ← value maxDepth (after.length + 1) (skipSpaces after)
      let doc ← within true (atPath false path (fun key => addLeaf key v)) current doc
      return (current, doc, ← lineEnd? after)

def lines : Nat → List String → Entries → List Char → Option Entries
  | 0, _, _, _ => none
  | _ + 1, _, doc, [] => some doc
  | steps + 1, current, doc, cs => do
    let (current, doc, rest) ← line current doc cs
    lines steps current doc rest

def document? (s : String) : Option Value :=
  let cs := match s.toList with
    | '\ufeff' :: cs => cs
    | cs => cs
  (lines (cs.length + 1) [] [] cs).map fun doc => .object (fields doc)

end DiagramShare.Settings.Toml
