import DiagramShare.Codec.Utf8
import DiagramShare.Text.Hex
import DiagramShare.Text.Split

/-!
Query strings: names and values with an equals sign between them, and ampersands between the pairs.
A plus sign is a space and a percent sign with two digits of base sixteen is a byte; any other
percent sign stands for itself.
-/
namespace DiagramShare.Codec.Form

open DiagramShare.Text

def digit? (b : UInt8) : Option Nat := hexValue? (Char.ofNat b.toNat)

def percentDecode : List UInt8 → List UInt8
  | [] => []
  | [a] => [a]
  | [a, b] => [a, b]
  | a :: b :: c :: rest =>
    match a == 0x25, digit? b, digit? c with
    | true, some high, some low => UInt8.ofNat (high * 16 + low) :: percentDecode rest
    | _, _, _ => a :: percentDecode (b :: c :: rest)

def piece (bs : List UInt8) : String :=
  Utf8.lossyText (percentDecode (bs.map fun b => if b == 0x2B then 0x20 else b))

/-- The pairs of a query string. Empty places between ampersands do not count. -/
def pairs (query : List UInt8) : List (String × String) :=
  ((splitWhere (· == 0x26) query).filter fun part => !part.isEmpty).map fun part =>
    match splitFirst? (· == 0x3D) part with
    | some (name, value) => (piece name, piece value)
    | none => (piece part, "")

end DiagramShare.Codec.Form
