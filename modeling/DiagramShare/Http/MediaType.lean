import DiagramShare.Http.Headers
import DiagramShare.Text.Split

/-!
Media types: a type, a slash, a subtype that may end in a plus sign and a suffix, and parameters
after semicolons. Letters count without regard to case.
-/
namespace DiagramShare.Http.MediaType

open DiagramShare.Text

def marks : List Char :=
  ['!', '#', '$', '%', '&', '\'', '+', '-', '.', '^', '_', '\x60', '|', '~']

def isTokenChar (c : Char) : Bool := c.isAlphanum || marks.contains c

def isQuotable (c : Char) : Bool := c.toNat ≥ 32 && c.toNat != 127

def afterQuoted : List Char → Option (List Char)
  | [] => none
  | c :: cs =>
    match splitFirst? (· == '"') cs with
    | some (value, rest) => if isQuotable c && value.all isQuotable then some rest else none
    | none => none

def nextParameter (cs : List Char) : Option (List Char) :=
  match cs.dropWhile (· == ' ') with
  | [] => some []
  | ';' :: rest => some rest
  | _ => none

/-- Whether a text is a list of parameters; at most one is read in each step. -/
def areParameters : Nat → List Char → Bool
  | 0, cs => cs.isEmpty
  | steps + 1, cs =>
    match cs.dropWhile (· == ' ') with
    | [] => true
    | cs =>
      match splitFirst? (· == '=') cs with
      | none => false
      | some (name, value) =>
        if name.isEmpty || !name.all isTokenChar then false
        else match value with
          | '"' :: value =>
            match (afterQuoted value).bind nextParameter with
            | some rest => areParameters steps rest
            | none => false
          | value =>
            match splitFirst? (· == ';') value with
            | none => value.all isTokenChar
            | some (value, rest) =>
              !value.isEmpty && value.all isTokenChar && areParameters steps rest

def parts? (text : String) : Option (String × String × Option String) := do
  let (kind, rest) ← splitFirst? (· == '/') (text.toList.map Char.toLower)
  if kind.isEmpty || !kind.all isTokenChar then failure
  let (subtype, parameters) := (splitFirst? (· == ';') rest).getD (rest, [])
  if rest.contains ';' && subtype.isEmpty then failure
  if !subtype.all isTokenChar then failure
  if !areParameters parameters.length parameters then failure
  match (splitLast? (· == '+') subtype).filter fun (before, _) => !before.isEmpty with
  | none => return (String.ofList kind, String.ofList subtype, none)
  | some (subtype, suffix) =>
    return (String.ofList kind, String.ofList subtype, some (String.ofList suffix))

def isJson (text : String) : Bool :=
  match parts? text with
  | some (kind, subtype, suffix) =>
    kind == "application" && (subtype == "json" || suffix == some "json")
  | none => false

def saysJson (headers : Headers) : Bool :=
  match (headers.first? "content-type").bind visibleText? with
  | some text => isJson text
  | none => false

end DiagramShare.Http.MediaType
