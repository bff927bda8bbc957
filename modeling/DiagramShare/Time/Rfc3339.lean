import DiagramShare.Text.Blank
import DiagramShare.Time.Calendar
import DiagramShare.Time.Instant

/-!
Instants as text. Writing gives RFC 3339 in universal time, with as many decimal places as needed
in steps of three and a sign before years of more than four digits. Reading also accepts missing
padding, blanks between the parts, an offset without its colon, and the word UTC.
-/
namespace DiagramShare.Time

open DiagramShare.Text

def padded (width n : Nat) : String :=
  let digits := toString n
  String.ofList (List.replicate (width - digits.length) '0') ++ digits

def yearText (y : Int) : String :=
  if 0 ≤ y ∧ y ≤ 9999 then padded 4 y.toNat
  else if y < 0 then "-" ++ padded 4 (-y).toNat
  else "+" ++ padded 4 y.toNat

def fractionText (nanos : Nat) : String :=
  if nanos = 0 then ""
  else if nanos % 1000000 = 0 then "." ++ padded 3 (nanos / 1000000)
  else if nanos % 1000 = 0 then "." ++ padded 6 (nanos / 1000)
  else "." ++ padded 9 nanos

/-- The written form of an instant. A leap second is second 60. -/
def Instant.toText (t : Instant) : String :=
  let day := Int.fdiv t.seconds 86400
  let ofDay := (Int.fmod t.seconds 86400).toNat
  let date := Date.ofDay day
  let second := ofDay % 60 + t.nanos / 1000000000
  yearText date.year ++ "-" ++ padded 2 date.month ++ "-" ++ padded 2 date.day ++ "T" ++
    padded 2 (ofDay / 3600) ++ ":" ++ padded 2 (ofDay / 60 % 60) ++ ":" ++ padded 2 second ++
    fractionText (t.nanos % 1000000000) ++ "Z"

namespace Rfc3339

def digitsValue (cs : List Char) : Nat :=
  cs.foldl (fun n c => n * 10 + (c.toNat - 48)) 0

def number? (width : Nat) (cs : List Char) : Option (Nat × List Char) :=
  let digits := (cs.take width).takeWhile Char.isDigit
  if digits.isEmpty then none else some (digitsValue digits, cs.drop digits.length)

/-- Any positive number of decimal digits. -/
def longNumber? (cs : List Char) : Option (Nat × List Char) :=
  number? cs.length cs

def skipBlanks (cs : List Char) : List Char := cs.dropWhile isBlank

def mark? (c : Char) (cs : List Char) : Option (List Char) :=
  match skipBlanks cs with
  | d :: rest => if d = c then some rest else none
  | [] => none

/-- Up to four digits, or a sign and any number of digits. -/
def year? (cs : List Char) : Option (Int × List Char) :=
  match skipBlanks cs with
  | '-' :: rest => (longNumber? rest).map fun (n, rest) => (-(n : Int), rest)
  | '+' :: rest => (longNumber? rest).map fun (n, rest) => ((n : Int), rest)
  | cs => (number? 4 cs).map fun (n, rest) => ((n : Int), rest)

def field? (lo hi : Nat) (cs : List Char) : Option (Nat × List Char) := do
  let (n, rest) ← number? 2 (skipBlanks cs)
  if lo ≤ n ∧ n ≤ hi then some (n, rest) else none

/-- Nanoseconds from the digits after a point; digits beyond the ninth are dropped. -/
def fraction? : List Char → Option (Nat × List Char)
  | '.' :: cs => do
    let digits := (cs.take 9).takeWhile Char.isDigit
    if digits.isEmpty then none
    else some (digitsValue (digits ++ List.replicate (9 - digits.length) '0'),
      (cs.drop digits.length).dropWhile Char.isDigit)
  | cs => some (0, cs)

def twoDigits? (top : Char) : List Char → Option (Nat × List Char)
  | a :: b :: rest =>
    if a.isDigit ∧ b.isDigit ∧ a ≤ top then some (digitsValue [a, b], rest) else none
  | _ => none

def signedOffset? (negative : Bool) (cs : List Char) : Option (Int × List Char) := do
  let (hours, cs) ← twoDigits? '9' cs
  let cs := cs.dropWhile fun c => c == ':' || isBlank c
  let (minutes, rest) ← twoDigits? '5' cs
  let seconds : Int := hours * 3600 + minutes * 60
  if 86400 ≤ seconds then none
  else some (if negative then -seconds else seconds, rest)

/-- The offset from universal time, in seconds: the word UTC, the letter Z, or a signed time. -/
def offset? (cs : List Char) : Option (Int × List Char) :=
  match cs with
  | a :: b :: c :: rest =>
    if [a, b, c].map Char.toUpper = ['U', 'T', 'C'] then some (0, rest) else plain cs
  | _ => plain cs
where
  /-- An offset other than the word UTC. -/
  plain : List Char → Option (Int × List Char)
  | 'Z' :: rest => some (0, rest)
  | 'z' :: rest => some (0, rest)
  | '+' :: rest => signedOffset? false rest
  | '-' :: rest => signedOffset? true rest
  | '\u2212' :: rest => signedOffset? true rest
  | _ => none

def yearInRange (y : Int) : Bool := -262143 ≤ y && y ≤ 262142

/-- An instant from a date, a time of day and an offset. -/
def assemble? (date : Date) (hour minute second nanos : Nat) (offset : Int) : Option Instant := do
  guard (date.Valid ∧ yearInRange date.year)
  let leap := if second = 60 then 1 else 0
  let seconds : Int :=
    date.toDay * 86400 + hour * 3600 + minute * 60 + ((second - leap : Nat) : Int) - offset
  guard (yearInRange (Date.ofDay (Int.fdiv seconds 86400)).year)
  if h : nanos + leap * 1000000000 < 2000000000 then
    return ⟨seconds, nanos + leap * 1000000000, h⟩
  else none

def parse? (cs : List Char) : Option Instant := do
  let (year, cs) ← year? cs
  let cs ← mark? '-' cs
  let (month, cs) ← field? 1 12 cs
  let cs ← mark? '-' cs
  let (day, cs) ← field? 1 31 cs
  let cs ← match cs with
    | 'T' :: rest | 't' :: rest | ' ' :: rest => some rest
    | _ => none
  let (hour, cs) ← field? 0 23 cs
  let cs ← mark? ':' cs
  let (minute, cs) ← field? 0 59 cs
  let cs ← mark? ':' cs
  let (second, cs) ← field? 0 60 cs
  let (nanos, cs) ← fraction? cs
  let (offset, cs) ← offset? (skipBlanks cs)
  guard (skipBlanks cs).isEmpty
  assemble? ⟨year, month, day⟩ hour minute second nanos offset

end Rfc3339

def Instant.ofText? (s : String) : Option Instant := Rfc3339.parse? s.toList

end DiagramShare.Time
