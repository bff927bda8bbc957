/-!
Digits of base sixteen, for single characters and for bytes.
-/
namespace DiagramShare.Text

def hexDigit (n : Nat) : Char :=
  if n < 10 then Char.ofNat (48 + n) else Char.ofNat (87 + n)

def hexValue? (c : Char) : Option Nat :=
  let n := c.toNat
  if 48 ≤ n ∧ n ≤ 57 then some (n - 48)
  else if 97 ≤ n ∧ n ≤ 102 then some (n - 87)
  else if 65 ≤ n ∧ n ≤ 70 then some (n - 55)
  else none

def hexDigits (n : Nat) : List Char :=
  go (n + 1) n []
where
  /-- Puts the digits of `n` in front of `acc`, at most `steps` of them. -/
  go : Nat → Nat → List Char → List Char
  | 0, _, acc => acc
  | steps + 1, n, acc =>
    let acc := hexDigit (n % 16) :: acc
    if n < 16 then acc else go steps (n / 16) acc

def hexByte (b : UInt8) : List Char := [hexDigit (b.toNat / 16), hexDigit (b.toNat % 16)]

def hexBytes (bs : List UInt8) : String := String.ofList (bs.flatMap hexByte)

def bytesOfHex? : List Char → Option (List UInt8)
  | [] => some []
  | [_] => none
  | a :: b :: rest => do
    let high ← hexValue? a
    let low ← hexValue? b
    let more ← bytesOfHex? rest
    return UInt8.ofNat (16 * high + low) :: more

end DiagramShare.Text
