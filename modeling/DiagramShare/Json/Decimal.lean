import DiagramShare.Text.Blank

/-!
Decimal texts of double-precision numbers. `Decimal.shortest` takes the fewest digits that read
back as the number, and of those the nearest to it; `Decimal.text` writes them positionally below
`10 ^ 16` and from `10 ^ -5`, and with an exponent elsewhere.
-/
namespace DiagramShare.Json.Decimal

/-- A number `digits * 10 ^ exponent`. -/
structure Scientific where
  digits : Nat
  exponent : Int

/-- A positive double `mantissa * 2 ^ exponent`, with its fraction field zero or not. -/
structure Binary where
  mantissa : Nat
  exponent : Int
  lowerHalf : Bool

def signUnit : Nat := 1 <<< 63

def exponentUnit : Nat := 1 <<< 52

def Binary.ofBits (bits : UInt64) : Binary :=
  let n : Nat := bits.toNat % signUnit
  let field : Nat := n / exponentUnit
  let fraction : Nat := n % exponentUnit
  if field = 0 then ⟨fraction, -1074, false⟩
  else ⟨fraction + exponentUnit, Int.ofNat field - 1075, fraction == 0 && 1 < field⟩

def tenTo (n : Nat) : Nat := Nat.pow 10 n

def compareTo (a b n : Nat) (e : Int) : Ordering :=
  compare (a * tenTo (-e).toNat) (n * b * tenTo e.toNat)

def quotient (a b : Nat) (e : Int) : Nat :=
  (a * tenTo (-e).toNat) / (b * tenTo e.toNat)

def magnitude (a b : Nat) : Nat → Int → Int
  | 0, p => p
  | steps + 1, p => if compareTo a b 1 p = .lt then p else magnitude a b steps (p + 1)

/-- The fewest digits between the bounds `lo / b` and `hi / b`, from `places` on; `closed` says
whether the bounds themselves belong. -/
def fewest (lo a hi b : Nat) (closed : Bool) (p : Int) : Nat → Nat → Scientific
  | 0, places => ⟨quotient a b (p - places), p - places⟩
  | steps + 1, places =>
    let e := p - places
    let below := quotient a b e
    let above := below + 1
    let reaches (o : Ordering) (side : Ordering) : Bool := o == side || (closed && o == .eq)
    let lowOk := 0 < below && reaches (compareTo lo b below e) .lt
    let highOk := reaches (compareTo hi b above e) .gt
    let nearerBelow := (compareTo (2 * a) b (below + above) e).isLE
    if lowOk && (nearerBelow || !highOk) then ⟨below, e⟩
    else if highOk then ⟨above, e⟩
    else fewest lo a hi b closed p steps (places + 1)

/-- The fewest digits that read back as a positive double. -/
def shortest (x : Binary) : Scientific :=
  let up := 1 <<< x.exponent.toNat
  let b := 4 <<< (-x.exponent).toNat
  let a := 4 * x.mantissa * up
  let hi := (4 * x.mantissa + 2) * up
  let lo := (4 * x.mantissa - (if x.lowerHalf then 1 else 2)) * up
  let p := magnitude a b 700 (-330)
  fewest lo a hi b (x.mantissa % 2 == 0) p 17 1

def trimZeros : Nat → Scientific → Scientific
  | 0, s => s
  | steps + 1, s =>
    if s.digits % 10 = 0 ∧ s.digits ≠ 0 then trimZeros steps ⟨s.digits / 10, s.exponent + 1⟩ else s

def Scientific.text (s : Scientific) : String :=
  let digits := (toString s.digits).toList
  let count : Int := digits.length
  let point := count + s.exponent
  let zeros (n : Int) : List Char := List.replicate n.toNat '0'
  String.ofList <|
    if 0 ≤ s.exponent ∧ point ≤ 16 then digits ++ zeros s.exponent ++ ['.', '0']
    else if 0 < point ∧ point ≤ 16 then
      digits.take point.toNat ++ '.' :: digits.drop point.toNat
    else if -5 < point ∧ point ≤ 0 then ['0', '.'] ++ zeros (-point) ++ digits
    else
      let rest := digits.drop 1
      digits.take 1 ++ (if rest.isEmpty then [] else '.' :: rest) ++
        'e' :: (toString (point - 1)).toList

def text (f : Float) : String :=
  let bits := f.toBits
  let sign := if bits.toNat < signUnit then "" else "-"
  if bits.toNat % signUnit = 0 then sign ++ "0.0"
  else sign ++ (trimZeros 400 (shortest (Binary.ofBits bits))).text

end DiagramShare.Json.Decimal
