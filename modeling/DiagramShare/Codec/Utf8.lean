/-!
UTF-8. Decoding never fails: bytes that belong to no character are kept as gaps, one for each
longest start of a character that breaks off.
-/
namespace DiagramShare.Codec.Utf8

/-- A character of which some bytes have been read: the bytes still to come, what the read ones
spell, and the range of the next byte. -/
structure Partial where
  left : Nat
  value : Nat
  lo : Nat
  hi : Nat

inductive Start where
  | char (c : Char)
  | more (p : Partial)
  | bad

/-- The first byte of a character. The range of the second excludes longer spellings than needed,
surrogates and numbers beyond the last character. -/
def start (b : UInt8) : Start :=
  let n := b.toNat
  if n < 0x80 then .char (Char.ofNat n)
  else if n < 0xC2 then .bad
  else if n < 0xE0 then .more ⟨1, n - 0xC0, 0x80, 0xBF⟩
  else if n = 0xE0 then .more ⟨2, 0, 0xA0, 0xBF⟩
  else if n = 0xED then .more ⟨2, 0xD, 0x80, 0x9F⟩
  else if n < 0xF0 then .more ⟨2, n - 0xE0, 0x80, 0xBF⟩
  else if n = 0xF0 then .more ⟨3, 0, 0x90, 0xBF⟩
  else if n < 0xF4 then .more ⟨3, n - 0xF0, 0x80, 0xBF⟩
  else if n = 0xF4 then .more ⟨3, 4, 0x80, 0x8F⟩
  else .bad

def go : Option Partial → List UInt8 → List (Option Char)
  | none, [] => []
  | some _, [] => [none]
  | none, b :: rest => fresh b (fun p => go p rest)
  | some p, b :: rest =>
    let n := b.toNat
    if p.lo ≤ n ∧ n ≤ p.hi then
      let value := p.value * 64 + (n - 0x80)
      if p.left ≤ 1 then some (Char.ofNat value) :: go none rest
      else go (some ⟨p.left - 1, value, 0x80, 0xBF⟩) rest
    else none :: fresh b (fun p => go p rest)
where
  /-- Reads on after a byte at the start of a character. -/
  fresh (b : UInt8) (next : Option Partial → List (Option Char)) : List (Option Char) :=
    match start b with
    | .char c => some c :: next none
    | .more p => next (some p)
    | .bad => none :: next none

def decode (bs : List UInt8) : List (Option Char) := go none bs

def decode? (bs : List UInt8) : Option (List Char) := (decode bs).mapM id

def text? (bs : List UInt8) : Option String := (decode? bs).map String.ofList

/-- The text of bytes, with the replacement character in each gap. -/
def lossyText (bs : List UInt8) : String :=
  String.ofList ((decode bs).map fun c => c.getD '\ufffd')

def encode (cs : List Char) : List UInt8 := cs.flatMap String.utf8EncodeChar

def bytes (s : String) : List UInt8 := encode s.toList

end DiagramShare.Codec.Utf8
