import DiagramShare.Access.Failure
import DiagramShare.Slug

/-!
Rules for the texts, numbers and times that requests carry. Texts are trimmed; their lengths count
characters.
-/
namespace DiagramShare.Access

open DiagramShare.Time (Instant)
open DiagramShare.Text (trim)

def maxNameLength : Nat := 255
def maxDescriptionLength : Nat := 1000
def maxNoteLength : Nat := 500

/-- A trimmed text of one to `max` characters. -/
def requiredText (field value : String) (max : Nat) : Except Invalid String :=
  let text := trim value
  if text.isEmpty then .error (.blank field)
  else if max < text.length then .error (.tooLong field max)
  else .ok text

/-- A trimmed text of at most `max` characters; a blank one counts as absent. -/
def optionalText (field : String) (value : Option String) (max : Nat) :
    Except Invalid (Option String) :=
  match value with
  | none => .ok none
  | some value =>
    let text := trim value
    if text.isEmpty then .ok none
    else if max < text.length then .error (.tooLong field max)
    else .ok (some text)

def positiveId (field : String) (id : Int) : Except Invalid Int :=
  if 0 < id then .ok id else .error (.notPositive field)

def futureExpiry (expiry : Option Instant) (now : Instant) : Except Invalid Unit :=
  match expiry with
  | none => .ok ()
  | some at_ => if at_ ≤ now then .error .expired else .ok ()

def givenSlug (text : String) : Except Invalid String :=
  match Slug.accept text with
  | .ok slug => .ok slug
  | .error text => .error (.slug text)

end DiagramShare.Access
