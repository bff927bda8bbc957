/-!
Blank characters and trimming. A text is trimmed by dropping the blank characters at both of its
ends; what remains is empty or starts and ends with a character that is not blank.
-/
namespace DiagramShare.Text

/-- The characters of Unicode's property White_Space. -/
def isBlank (c : Char) : Bool :=
  let n := c.toNat
  (9 ≤ n && n ≤ 13) || n == 0x20 || n == 0x85 || n == 0xA0 || n == 0x1680 ||
    (0x2000 ≤ n && n ≤ 0x200A) || n == 0x2028 || n == 0x2029 || n == 0x202F || n == 0x205F ||
    n == 0x3000

/-- The characters of Unicode's category Cc. -/
def isControl (c : Char) : Bool :=
  let n := c.toNat
  n < 0x20 || (0x7F ≤ n && n < 0xA0)

def stripWhere (p : Char → Bool) (cs : List Char) : List Char :=
  ((cs.dropWhile p).reverse.dropWhile p).reverse

def stripEndWhere (p : Char → Bool) (cs : List Char) : List Char :=
  (cs.reverse.dropWhile p).reverse

def strip (cs : List Char) : List Char := stripWhere isBlank cs

def trim (s : String) : String := String.ofList (strip s.toList)

end DiagramShare.Text
