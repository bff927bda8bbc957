import DiagramShare.Text.Blank
import DiagramShare.Text.Split

/-!
Slugs: the short names of documents in addresses. A slug is one or more groups of lower-case ASCII
letters and digits with single dashes between them. `ofTitle?` derives one from a title, which one pass
over the title does too (`ofPass?`), and `accept` checks one that a client gives.
-/
namespace DiagramShare.Slug

open DiagramShare.Text

def maxLength : Nat := 255

def isWordChar (c : Char) : Bool := c.isAlphanum

def isSlugChar (c : Char) : Bool := c.isLower || c.isDigit

/-- The runs of letters and digits of a title, in order and in lower case. -/
def words (title : List Char) : List (List Char) :=
  ((splitWhere (fun c => !isWordChar c) title).filter fun run => !run.isEmpty).map
    fun run => run.map Char.toLower

/-- Keeps `maxLength` characters, and one more where the last of them would be a dash. -/
def cut (slug : List Char) : List Char :=
  if slug[maxLength - 1]? = some '-' then slug.take (maxLength + 1) else slug.take maxLength

/-- The slug of a title, if the title has a letter or a digit. -/
def ofTitle? (title : String) : Option String :=
  match words title.toList with
  | [] => none
  | runs => some (String.ofList (cut (joinWith '-' runs)))

/-- A slug in the making: what is written of it, and whether a dash is due before more is written. -/
structure Draft where
  written : List Char
  due : Bool

namespace Draft

def read (d : Draft) (c : Char) : Draft :=
  if c.isAlphanum then
    let start := if d.due && !d.written.isEmpty then d.written ++ ['-'] else d.written
    ⟨start ++ [c.toLower], false⟩
  else ⟨d.written, true⟩

def readAll (d : Draft) : List Char → Draft
  | [] => d
  | c :: rest =>
    if maxLength ≤ (d.read c).written.length then d.read c else (d.read c).readAll rest

end Draft

/-- The slug that one pass over a title writes, without a dash at its end. -/
def ofPass? (title : String) : Option String :=
  let slug := stripEndWhere (· == '-') (Draft.readAll ⟨[], false⟩ title.toList).written
  if slug.isEmpty then none else some (String.ofList slug)

def IsGroup (cs : List Char) : Prop := cs ≠ [] ∧ ∀ c ∈ cs, isSlugChar c = true

/-- The form of a slug, without its length: groups joined by single dashes. -/
def WellFormed (cs : List Char) : Prop :=
  ∃ groups : List (List Char), groups ≠ [] ∧ (∀ g ∈ groups, IsGroup g) ∧ cs = joinWith '-' groups

def isSlug (s : String) : Bool :=
  !s.isEmpty && s.utf8ByteSize ≤ maxLength &&
    (splitWhere (· == '-') s.toList).all fun group => !group.isEmpty && group.all isSlugChar

/-- The slug in a text with blanks around it, or the trimmed text if that is no slug. -/
def accept (given : String) : Except String String :=
  let slug := trim given
  if isSlug slug then .ok slug else .error slug

end DiagramShare.Slug
