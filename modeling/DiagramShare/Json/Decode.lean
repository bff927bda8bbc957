import DiagramShare.Json.Fault
import DiagramShare.Time.Rfc3339

/-!
Taking readings apart into typed things. A record is read from an object, whose unknown keys are
passed over, or from an array of its fields in order. Faults are found in the order of the text.
-/
namespace DiagramShare.Json

open DiagramShare.Time (Instant)

/-- Where a reading comes from. A value has been read as a whole before, so that a text's faults
cannot be left in it. Settings come from several sources and pass over surplus items. -/
inductive Origin where
  | text
  | value
  | settings
  deriving DecidableEq

abbrev Decoder (α : Type) := Origin → Reading → Except Fault α

namespace Decode

def reject (expected : String) (r : Reading) : Except Fault α :=
  match Found.of? r with
  | none => .error .malformed
  | some found => .error (.mismatch [] (.wrongType found expected))

def boolean : Decoder Bool
  | _, .boolean b => .ok b
  | _, r => reject "a boolean" r

def string : Decoder String
  | _, .string (some s) => .ok s
  | _, r => reject "a string" r

def integer (lo hi : Int) (expected : String) : Decoder Int
  | _, .number (.natural n) => bounded n
  | _, .number (.negative n) => bounded n
  | _, r => reject expected r
where
  bounded (n : Int) : Except Fault Int :=
    if lo ≤ n ∧ n ≤ hi then .ok n
    else .error (.mismatch [] (.wrongValue (.integer n) expected))

def int64 : Decoder Int := integer (-9223372036854775808) 9223372036854775807 "i64"
def int32 : Decoder Int := integer (-2147483648) 2147483647 "i32"

def natural (bits : Nat) (expected : String) : Decoder Nat := fun o r =>
  (integer 0 (Int.ofNat (1 <<< bits) - 1) expected o r).map Int.toNat

def instant : Decoder Instant
  | _, .string (some s) =>
    match Instant.ofText? s with
    | some t => .ok t
    | none => .error (.mismatch [] .badInstant)
  | _, r => reject "an RFC 3339 formatted date and time string" r

def nullable (decode : Decoder α) : Decoder (Option α)
  | _, .null => .ok none
  | o, r => (decode o r).map some

def nothing (name : String) : Reading → Except Fault Unit
  | .null => .ok ()
  | r => (reject "unit" r).mapError (Fault.under (.field name))

/-- One of the names of a choice, or an object whose only key is such a name and whose value is
null. -/
def choice (known : List String) (ofName? : String → Option α) : Decoder α
  | _, .string (some name) => pick name
  | .value, .object [(.string (some name), v)] => do
    let a ← pick name
    nothing name v
    return a
  | .value, .object _ =>
    .error (.mismatch [] (.wrongValue .map "map with a single key"))
  | .value, r => reject "string or map" r
  | .text, .object ((.string (some name), v) :: rest) => do
    let a ← pick name
    nothing name v
    if rest.isEmpty then return a else throw .malformed
  | .text, .object ((key, _) :: _) => reject "variant identifier" key
  | _, _ => .error .malformed
where
  pick (name : String) : Except Fault α :=
    match ofName? name with
    | some a => .ok a
    | none => .error (.mismatch [] (.unknownVariant name known))

/-- A field of a record. One that is `omissible` may be left out at the end of an array. -/
structure Field where
  name : String
  check : Decoder Unit
  omissible : Bool

def field (name : String) (decode : Decoder α) : Field :=
  ⟨name, fun o r => (decode o r).map fun _ => (), false⟩

def omissible (name : String) (decode : Decoder α) : Field :=
  ⟨name, fun o r => (decode o r).map fun _ => (), true⟩

structure Shape where
  name : String
  fields : List Field

/-- Fields found in a reading, each with its value. -/
structure Parts where
  origin : Origin
  values : List (String × Reading)

namespace Shape

def entries (shape : Shape) (o : Origin) (seen : List String) :
    List (Reading × Reading) → Except Fault (List (String × Reading))
  | [] => .ok []
  | (.string (some name), v) :: rest =>
    match shape.fields.find? fun f => f.name == name with
    | none => if v.isWhole then entries shape o seen rest else .error .malformed
    | some f =>
      if seen.contains name then .error (.mismatch [] (.duplicate name))
      else do
        (f.check o v).mapError (Fault.under (.field name))
        let more ← entries shape o (name :: seen) rest
        return (name, v) :: more
  | _ :: _ => .error .malformed

def sizeText (shape : Shape) : String :=
  let n := shape.fields.length
  s!"{shape.name} with {n} element" ++ (if n = 1 then "" else "s")

def items (shape : Shape) (o : Origin) (total : Nat) (n : Nat) :
    List Field → List Reading → Except Fault (List (String × Reading))
  | [], [] => .ok []
  | [], _ :: _ =>
    match o with
    | .text => .error .malformed
    | .value => .error (.mismatch [] (.wrongLength total "fewer elements in array"))
    | .settings => .ok []
  | f :: fields, [] =>
    if f.omissible then items shape o total n fields []
    else .error (.mismatch [] (.wrongLength n shape.sizeText))
  | _ :: _, .broken :: _ => .error .malformed
  | f :: fields, v :: rest => do
    (f.check o v).mapError (Fault.under (.index n))
    let more ← items shape o total (n + 1) fields rest
    return (f.name, v) :: more

def parts (shape : Shape) (o : Origin) : Reading → Except Fault Parts
  | .object es => return ⟨o, ← shape.entries o [] es⟩
  | .array vs => return ⟨o, ← shape.items o vs.length 0 shape.fields vs⟩
  | r => reject shape.name r

end Shape

namespace Parts

def value? (parts : Parts) (name : String) : Option Reading := parts.values.lookup name

def required (parts : Parts) (name : String) (decode : Decoder α) : Except Fault α :=
  match parts.value? name with
  | some v => (decode parts.origin v).mapError (Fault.under (.field name))
  | none => .error (.mismatch [] (.missing name))

def optional (parts : Parts) (name : String) (decode : Decoder α) : Except Fault (Option α) :=
  match parts.value? name with
  | some v => (nullable decode parts.origin v).mapError (Fault.under (.field name))
  | none => .ok none

def withDefault (parts : Parts) (name : String) (decode : Decoder α) (default : α) :
    Except Fault α :=
  match parts.value? name with
  | some v => (decode parts.origin v).mapError (Fault.under (.field name))
  | none => .ok default

end Parts

/-- Reads a whole text: a value and nothing but spaces after it. -/
def ofSource (decode : Decoder α) (s : Source) : Except Fault α := do
  let (r, rest) := Reading.ofSource s
  let a ← decode .text r
  if Reading.isEnd rest then return a else throw .malformed

def ofText (decode : Decoder α) (s : String) : Except Fault α := ofSource decode (s.toList.map some)

end Decode

end DiagramShare.Json
