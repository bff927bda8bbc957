import DiagramShare.Codec.Utf8

/-!
Header fields of HTTP messages. Names are compared without regard to case; values are bytes.
-/
namespace DiagramShare.Http

/-- Fields in order. A name may occur more than once. -/
abbrev Headers := List (String × List UInt8)

def lowerCase (s : String) : String := String.ofList (s.toList.map Char.toLower)

namespace Headers

def all (headers : Headers) (name : String) : List (List UInt8) :=
  (headers.filter fun h => lowerCase h.1 == name).map Prod.snd

def first? (headers : Headers) (name : String) : Option (List UInt8) := (all headers name).head?

end Headers

def visibleText? (value : List UInt8) : Option String :=
  if value.all fun b => b == 9 || (32 ≤ b && b < 127) then
    some (String.ofList (value.map fun b => Char.ofNat b.toNat))
  else none

end DiagramShare.Http
