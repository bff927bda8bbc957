import DiagramShare.Json.Reading

/-!
JSON values and their compact texts. The keys of an object are in increasing order when they come
from a reading, and a key that occurs twice keeps its last value.
-/
namespace DiagramShare.Json

open DiagramShare.Text (hexDigit)

inductive Value where
  | null
  | boolean (b : Bool)
  | number (n : Number)
  | string (s : String)
  | array (items : List Value)
  | object (entries : List (String × Value))

namespace Value

def int (n : Int) : Value := number (Number.ofInt n)

def nat (n : Nat) : Value := number (.natural n)

/-- The value of an optional thing; its absence is null. -/
def optional (write : α → Value) : Option α → Value
  | none => null
  | some a => write a

/-- Puts an entry in its place among entries with increasing keys, in place of one with its key. -/
def insert (key : String) (v : Value) : List (String × Value) → List (String × Value)
  | [] => [(key, v)]
  | (k, w) :: rest =>
    if key < k then (key, v) :: (k, w) :: rest
    else if key = k then (key, v) :: rest
    else (k, w) :: insert key v rest

def field? (v : Value) (key : String) : Option Value :=
  match v with
  | object entries => (entries.find? fun e => e.1 == key).map Prod.snd
  | _ => none

def charText (c : Char) : List Char :=
  if c = '"' then ['\\', '"']
  else if c = '\\' then ['\\', '\\']
  else if c = '\x08' then ['\\', 'b']
  else if c = '\x0c' then ['\\', 'f']
  else if c = '\n' then ['\\', 'n']
  else if c = '\r' then ['\\', 'r']
  else if c = '\t' then ['\\', 't']
  else if c.toNat < 0x20 then
    ['\\', 'u', '0', '0', hexDigit (c.toNat / 16), hexDigit (c.toNat % 16)]
  else [c]

def stringText (s : String) : List Char := '"' :: s.toList.flatMap charText ++ ['"']

mutual

def chars : Value → List Char
  | null => ['n', 'u', 'l', 'l']
  | boolean true => ['t', 'r', 'u', 'e']
  | boolean false => ['f', 'a', 'l', 's', 'e']
  | number n => n.text.toList
  | string s => stringText s
  | array items => '[' :: itemChars true items ++ [']']
  | object entries => '\x7b' :: entryChars true entries ++ ['\x7d']

def itemChars : Bool → List Value → List Char
  | _, [] => []
  | first, v :: rest => (if first then [] else [',']) ++ (v.chars ++ itemChars false rest)

def entryText : Bool → String × Value → List Char
  | first, (key, v) => (if first then [] else [',']) ++ stringText key ++ ':' :: v.chars

def entryChars : Bool → List (String × Value) → List Char
  | _, [] => []
  | first, e :: rest => entryText first e ++ entryChars false rest

end

def text (v : Value) : String := String.ofList v.chars

end Value

namespace Reading

mutual

/-- The value of a tree that is whole, whose strings have texts and whose numbers are in range. -/
def value? : Reading → Option Value
  | null => some .null
  | boolean b => some (.boolean b)
  | number .outOfRange => none
  | number n => some (.number n)
  | string (some s) => some (.string s)
  | string none => none
  | array items => (values? items).map .array
  | object entries => (entries? entries []).map .object
  | broken => none

def values? : List Reading → Option (List Value)
  | [] => some []
  | r :: rest => do
    let v ← r.value?
    let more ← values? rest
    return v :: more

def entry? : Reading × Reading → Option (String × Value)
  | (.string (some key), v) => v.value?.map fun v => (key, v)
  | _ => none

def entries? : List (Reading × Reading) → List (String × Value) → Option (List (String × Value))
  | [], done => some done
  | e :: rest, done => do
    let (key, v) ← entry? e
    entries? rest (Value.insert key v done)

end

end Reading

namespace Value

mutual

def reading : Value → Reading
  | null => .null
  | boolean b => .boolean b
  | number n => .number n
  | string s => .string (some s)
  | array items => .array (readings items)
  | object entries => .object (entryReadings entries)

def readings : List Value → List Reading
  | [] => []
  | v :: rest => v.reading :: readings rest

def entryReading : String × Value → Reading × Reading
  | (key, v) => (.string (some key), v.reading)

def entryReadings : List (String × Value) → List (Reading × Reading)
  | [] => []
  | e :: rest => entryReading e :: entryReadings rest

end

def ofText? (s : String) : Option Value :=
  let (tree, rest) := Reading.ofText s
  if Reading.isEnd rest then tree.value? else none

end Value

end DiagramShare.Json
