import DiagramShare.Json.Decimal

/-!
Numbers of JSON texts. A whole number that fits 64 bits keeps its value; any other is a
double-precision number made from its first digits and a power of ten, or out of range.
-/
namespace DiagramShare.Json

inductive Number where
  | natural (n : Nat)
  | negative (n : Int)
  | float (f : Float)
  | outOfRange

namespace Number

def naturalEnd : Nat := 18446744073709551616

def least : Int := -9223372036854775808

def ofInt (n : Int) : Number := if 0 ≤ n then natural n.toNat else negative n

/-- Digits taken into a whole part below `naturalEnd`, and how many digits were left over. -/
structure Significand where
  value : Nat
  taken : Nat
  left : Nat

def digitValue (c : Char) : Nat := c.toNat - 48

def Significand.takeDigits (value taken : Nat) : List Char → Significand
  | [] => ⟨value, taken, 0⟩
  | c :: rest =>
    let next := value * 10 + digitValue c
    if naturalEnd ≤ next then ⟨value, taken, rest.length + 1⟩
    else takeDigits next (taken + 1) rest

/-- Scales by a power of ten in steps that a double can hold. -/
def scale : Nat → Float → Int → Option Float
  | 0, f, _ => some f
  | steps + 1, f, e =>
    if e.natAbs ≤ 308 then
      let power := Float.ofScientific 1 false e.natAbs
      if 0 ≤ e then
        let product := f * power
        if product.isInf then none else some product
      else some (f / power)
    else if f == 0 then some f
    else if 0 ≤ e then none
    else scale steps (f / Float.ofScientific 1 false 308) (e + 308)

def signed (isNegative : Bool) (f : Float) : Float := if isNegative then -f else f

def ofParts (isNegative : Bool) (significand : Nat) (e : Int) : Number :=
  match scale (e.natAbs / 308 + 2) (Float.ofNat significand) e with
  | some f => float (signed isNegative f)
  | none => outOfRange

def maxExponent : Nat := 2147483647

def limited (e : Int) : Int := max (-(maxExponent : Int) - 1) (min maxExponent e)

/-- The number with a sign, digits before the point, digits after it if there is a point, and a
signed exponent if there is one. -/
def ofDigits (isNegative : Bool) (whole : List Char) (fraction : Option (List Char))
    (exponent : Option (Bool × List Char)) : Number :=
  let head := Significand.takeDigits 0 0 whole
  if fraction.isNone && exponent.isNone && head.left = 0 then
    if !isNegative then natural head.value
    else if head.value = 0 ∨ least > -(head.value : Int) then
      float (-(Float.ofNat head.value))
    else negative (-(head.value : Int))
  else
    let all := match fraction with
      | none => head
      | some digits =>
        let more := Significand.takeDigits head.value 0 digits
        ⟨more.value, more.taken, head.left⟩
    let scaleOf : Int := (head.left : Int) - (if fraction.isSome then (all.taken : Int) else 0)
    match exponent with
    | none => ofParts isNegative all.value scaleOf
    | some (down, digits) =>
      let n := digits.foldl (fun n c => n * 10 + digitValue c) 0
      if maxExponent < n then
        if all.value ≠ 0 ∧ !down then outOfRange else float (signed isNegative 0)
      else ofParts isNegative all.value
        (limited (if down then scaleOf - n else scaleOf + n))

def text : Number → String
  | natural n => toString n
  | negative n => toString n
  | float f => Decimal.text f
  | outOfRange => "null"

end Number

end DiagramShare.Json
