/-!
Decimal integers as texts: an optional sign and at least one digit. The digits are taken from left
to right, and the first that is none, or that takes the number out of range, decides the fault.
-/
namespace DiagramShare.Text.Integer

inductive Fault where
  | empty
  | badDigit
  | tooLarge
  | tooSmall
  deriving DecidableEq, Repr

def Fault.message : Fault → String
  | empty => "cannot parse integer from empty string"
  | badDigit => "invalid digit found in string"
  | tooLarge => "number too large to fit in target type"
  | tooSmall => "number too small to fit in target type"

def addDigits (lo hi : Int) (isNegative : Bool) : Int → List Char → Except Fault Int
  | n, [] => .ok n
  | n, c :: rest =>
    if !c.isDigit then .error .badDigit
    else
      let digit : Int := c.toNat - 48
      let next := if isNegative then n * 10 - digit else n * 10 + digit
      if next < lo then .error .tooSmall
      else if hi < next then .error .tooLarge
      else addDigits lo hi isNegative next rest

def parse (lo hi : Int) : List Char → Except Fault Int
  | [] => .error .empty
  | ['+'] => .error .badDigit
  | ['-'] => .error .badDigit
  | '+' :: digits => addDigits lo hi false 0 digits
  | '-' :: digits => addDigits lo hi true 0 digits
  | digits => addDigits lo hi false 0 digits

def parse64 (cs : List Char) : Except Fault Int :=
  parse (-9223372036854775808) 9223372036854775807 cs

end DiagramShare.Text.Integer
