import DiagramShare.Json.Reading
import DiagramShare.Text.Quoted

/-!
Why a JSON text is not what was asked for: the text is malformed, or something in it is of another
kind than expected. The second carries the place where it stands.
-/
namespace DiagramShare.Json

inductive Found where
  | null
  | boolean (b : Bool)
  | integer (n : Int)
  | float (f : Float)
  | string (s : String)
  | sequence
  | map

/-- What a reading shows at first sight. Nothing, if the text is malformed there. -/
def Found.of? : Reading → Option Found
  | .null => some null
  | .boolean b => some (boolean b)
  | .number (.natural n) => some (integer n)
  | .number (.negative n) => some (integer n)
  | .number (.float f) => some (float f)
  | .number .outOfRange => none
  | .string (some s) => some (string s)
  | .string none => none
  | .array _ => some sequence
  | .object _ => some map
  | .broken => none

def ticked (s : String) : String := "\x60" ++ s ++ "\x60"

def Found.message : Found → String
  | null => "null"
  | boolean b => "boolean " ++ ticked (if b then "true" else "false")
  | integer n => "integer " ++ ticked (toString n)
  | float f => "floating point " ++ ticked (Decimal.text f)
  | string s => "string " ++ Text.quoted s
  | sequence => "sequence"
  | map => "map"

inductive Mismatch where
  | wrongType (found : Found) (expected : String)
  | wrongValue (found : Found) (expected : String)
  | wrongLength (length : Nat) (expected : String)
  | missing (field : String)
  | duplicate (field : String)
  | unknownVariant (name : String) (known : List String)
  | badInstant

def choiceText : List String → String
  | [] => "no variants"
  | [a] => ticked a
  | [a, b] => ticked a ++ " or " ++ ticked b
  | names => "one of " ++ ", ".intercalate (names.map ticked)

def Mismatch.message : Mismatch → String
  | wrongType found expected => s!"invalid type: {found.message}, expected {expected}"
  | wrongValue found expected => s!"invalid value: {found.message}, expected {expected}"
  | wrongLength length expected => s!"invalid length {length}, expected {expected}"
  | missing field => "missing field " ++ ticked field
  | duplicate field => "duplicate field " ++ ticked field
  | unknownVariant name known =>
    "unknown variant " ++ ticked name ++ ", expected " ++ choiceText known
  | badInstant => "invalid datetime"

inductive PathStep where
  | field (name : String)
  | index (n : Nat)

def pathText : List PathStep → String
  | [] => ""
  | step :: rest => stepText step ++ String.join (rest.map laterText)
where
  stepText : PathStep → String
  | .field name => name
  | .index n => s!"[{n}]"
  laterText : PathStep → String
  | .field name => "." ++ name
  | .index n => s!"[{n}]"

inductive Fault where
  | malformed
  | mismatch (path : List PathStep) (cause : Mismatch)

/-- The fault, seen from the value that the step starts from. -/
def Fault.under (step : PathStep) : Fault → Fault
  | malformed => malformed
  | mismatch path cause => mismatch (step :: path) cause

def Fault.locatedMessage : Fault → String
  | malformed => ""
  | mismatch [] cause => cause.message
  | mismatch path cause => pathText path ++ ": " ++ cause.message

end DiagramShare.Json
