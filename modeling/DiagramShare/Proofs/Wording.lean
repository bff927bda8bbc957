import DiagramShare.Proofs.Spellings
import Mathlib

/-! The form of the texts that the rules let through. A trimmed text is its own trimmed form, and a
slug, whether it is given or made from a title, is words of lower-case letters and digits with single
dashes between them. A slug that is made is not checked again: that it is short enough follows from
the length of the title. -/
namespace DiagramShare.Text

/-- A trimmed text of one to `max` characters, of which some are not blank. -/
structure IsLine (max : Nat) (s : String) : Prop where
  trimmed : trim s = s
  nonblank : ∃ c ∈ s.toList, isBlank c = false
  nonempty : 1 ≤ s.length
  short : s.length ≤ max

instance (max : Nat) (s : String) : Decidable (IsLine max s) :=
  have shown : (s.toList.any fun c => !isBlank c) = true ↔ ∃ c ∈ s.toList, isBlank c = false := by
    simp
  decidable_of_iff (trim s = s ∧ (s.toList.any fun c => !isBlank c) = true ∧ 1 ≤ s.length ∧
    s.length ≤ max)
    ⟨fun ⟨trimmed, nonblank, nonempty, short⟩ => ⟨trimmed, shown.mp nonblank, nonempty, short⟩,
      fun h => ⟨h.trimmed, shown.mpr h.nonblank, h.nonempty, h.short⟩⟩

theorem stripWhere_stripWhere (p : Char → Bool) (cs : List Char) :
    stripWhere p (stripWhere p cs) = stripWhere p cs := by
  have start : (stripWhere p cs).dropWhile p = stripWhere p cs := by
    cases kept : stripWhere p cs with
    | nil => rfl
    | cons c rest =>
      have first : p c = false := head_stripWhere (by rw [kept]; rfl)
      rw [List.dropWhile_cons_of_neg (by simp [first])]
  conv => lhs; rw [stripWhere, start]
  rw [stripWhere, List.reverse_reverse, List.dropWhile_idempotent]

theorem trim_trim (s : String) : trim (trim s) = trim s := by
  rw [trim, trim, String.toList_ofList, strip, strip, stripWhere_stripWhere]

theorem trim_nonblank {s : String} (some : (trim s).isEmpty = false) :
    ∃ c ∈ (trim s).toList, isBlank c = false := by
  cases kept : strip s.toList with
  | nil => simp [trim, kept] at some
  | cons c rest =>
    have head : (stripWhere isBlank s.toList).head? = .some c := by
      rw [← strip, kept]
      rfl
    exact ⟨c, by simp [trim, kept], head_stripWhere head⟩

theorem isLine_trim {s : String} {max : Nat} (some : (trim s).isEmpty = false)
    (short : (trim s).length ≤ max) : IsLine max (trim s) := by
  refine ⟨trim_trim s, trim_nonblank some, ?_, short⟩
  obtain ⟨c, there, _⟩ := trim_nonblank some
  rw [← String.length_toList]
  exact List.length_pos_of_mem there

theorem forall_ascii {P : Char → Prop} (each : ∀ n < 128, P (Char.ofNat n)) {c : Char}
    (ascii : c.toNat < 128) : P c := by
  have this := each c.toNat ascii
  rwa [Char.ofNat_toNat] at this

theorem utf8Size_of_ascii {c : Char} (ascii : c.toNat < 128) : c.utf8Size = 1 :=
  Char.utf8Size_eq_one_iff.mpr (UInt32.le_iff_toNat_le.mpr (Nat.le_of_lt_succ ascii))

end DiagramShare.Text

namespace DiagramShare.Slug

open DiagramShare.Text

theorem isWordChar_ascii {c : Char} (word : isWordChar c = true) : c.toNat < 128 := by
  simp only [isWordChar, Char.isAlphanum, Char.isAlpha, Char.isUpper, Char.isLower, Char.isDigit,
    Bool.or_eq_true, Bool.and_eq_true, decide_eq_true_eq, UInt32.le_iff_toNat_le, ge_iff_le] at word
  have value : c.toNat = c.val.toNat := rfl
  have upper : 'Z'.val.toNat = 90 := rfl
  have lower : 'z'.val.toNat = 122 := rfl
  have digit : '9'.val.toNat = 57 := rfl
  omega

theorem isSlugChar_isWordChar {c : Char} (h : isSlugChar c = true) : isWordChar c = true := by
  simp only [isSlugChar, Bool.or_eq_true] at h
  simp only [isWordChar, Char.isAlphanum, Char.isAlpha, Bool.or_eq_true]
  exact h.imp .inr id

theorem isSlugChar_toLower {c : Char} (word : isWordChar c = true) :
    isSlugChar c.toLower = true :=
  forall_ascii (P := fun c => isWordChar c = true → isSlugChar c.toLower = true)
    (by decide +kernel) (isWordChar_ascii word) word

/-- A slug: groups of lower-case letters and digits, at most `maxLength` bytes with their dashes. -/
structure IsSlug (s : String) : Prop where
  short : s.utf8ByteSize ≤ maxLength
  formed : WellFormed s.toList

theorem IsSlug.length_le {s : String} (h : IsSlug s) : s.length ≤ maxLength :=
  Nat.le_trans (length_le_utf8ByteSize s) h.short

theorem isSlug_iff {s : String} : isSlug s = true ↔ IsSlug s := by
  simp only [isSlug, Bool.and_eq_true, decide_eq_true_eq, List.all_eq_true, Bool.not_eq_true']
  constructor
  · rintro ⟨⟨_, short⟩, groups⟩
    refine ⟨short, _, splitWhere_ne_nil _ _, ?_, (joinWith_splitWhere '-' s.toList).symm⟩
    intro group listed
    obtain ⟨some, each⟩ := groups group listed
    exact ⟨by simpa using some, each⟩
  · rintro ⟨short, groups, some, formed, joined⟩
    have absent : ∀ group ∈ groups, '-' ∉ group := by
      intro group listed dash
      exact absurd ((formed group listed).2 _ dash) (by decide)
    have nonempty : s.isEmpty = false := by
      cases groups with
      | nil => exact absurd rfl some
      | cons group more =>
        have length := length_joinWith '-' some
        have first := List.length_pos_of_ne_nil (formed group List.mem_cons_self).1
        rw [← joined, spread, String.length_toList] at length
        rw [← Bool.not_eq_true, String.isEmpty_iff]
        rintro rfl
        rw [String.length_empty] at length
        omega
    rw [joined, splitWhere_joinWith absent some]
    exact ⟨⟨nonempty, short⟩, fun group listed => ⟨by simpa using (formed group listed).1,
      (formed group listed).2⟩⟩

theorem isGroup_of_mem_words {title group : List Char} (listed : group ∈ words title) :
    IsGroup group := by
  obtain ⟨run, kept, rfl⟩ := List.mem_map.mp listed
  obtain ⟨piece, some⟩ := List.mem_filter.mp kept
  refine ⟨by simpa using some, fun c hc => ?_⟩
  obtain ⟨d, hd, rfl⟩ := List.mem_map.mp hc
  exact isSlugChar_toLower (by simpa using (mem_splitWhere piece d hd).2)

theorem WellFormed.mem {cs : List Char} (formed : WellFormed cs) {c : Char} (hc : c ∈ cs) :
    c = '-' ∨ isSlugChar c = true := by
  obtain ⟨groups, _, each, rfl⟩ := formed
  rcases mem_joinWith hc with rfl | ⟨group, listed, hc⟩
  · exact .inl rfl
  · exact .inr ((each group listed).2 c hc)

theorem WellFormed.utf8ByteSize {cs : List Char} (formed : WellFormed cs) :
    (String.ofList cs).utf8ByteSize = cs.length := by
  refine utf8ByteSize_of_ascii fun c hc => ?_
  rcases formed.mem hc with rfl | slug
  · rfl
  · exact utf8Size_of_ascii (isWordChar_ascii (isSlugChar_isWordChar slug))

theorem cut_of_length_le {cs : List Char} (short : cs.length ≤ maxLength) : cut cs = cs := by
  rw [cut]
  split
  · exact List.take_of_length_le (Nat.le_succ_of_le short)
  · exact List.take_of_length_le short

theorem length_words_le {title : String} (some : words title.toList ≠ [])
    (short : title.length ≤ maxLength) :
    (joinWith '-' (words title.toList)).length ≤ maxLength := by
  have bound := words_spread_le title.toList
  have length := length_joinWith '-' some
  rw [String.length_toList] at bound
  omega

theorem ofTitle_isSlug {title slug : String} (made : ofTitle? title = some slug)
    (short : title.length ≤ maxLength) : IsSlug slug := by
  rw [ofTitle?] at made
  split at made
  · cases made
  · rename_i runs some
    have length := length_words_le some short
    rw [cut_of_length_le length] at made
    obtain rfl := Option.some.inj made
    have formed : WellFormed (joinWith '-' (words title.toList)) :=
      ⟨_, some, fun _ => isGroup_of_mem_words, rfl⟩
    refine ⟨?_, ?_⟩
    · rwa [formed.utf8ByteSize]
    · rwa [String.toList_ofList]

end DiagramShare.Slug

namespace DiagramShare.Access

open DiagramShare.Text

theorem requiredText_isLine {field value text : String} {max : Nat}
    (h : requiredText field value max = .ok text) : IsLine max text := by
  rw [requiredText] at h
  split at h
  · cases h
  · rename_i some
    split at h
    · cases h
    · rename_i short
      obtain rfl := Except.ok.inj h
      exact isLine_trim (Bool.not_eq_true _ ▸ some) (Nat.le_of_not_lt short)

theorem optionalText_isLine {field : String} {value text : Option String} {max : Nat}
    (h : optionalText field value max = .ok text) : ∀ line ∈ text, IsLine max line := by
  cases value with
  | none =>
    obtain rfl := Except.ok.inj h
    exact nofun
  | some value =>
    rw [optionalText] at h
    split at h
    · obtain rfl := Except.ok.inj h
      exact nofun
    · rename_i some
      split at h
      · cases h
      · rename_i short
        obtain rfl := Except.ok.inj h
        rintro line ⟨rfl⟩
        exact isLine_trim (Bool.not_eq_true _ ▸ some) (Nat.le_of_not_lt short)

theorem givenSlug_isSlug {given slug : String} (h : givenSlug given = .ok slug) :
    Slug.IsSlug slug := by
  rw [givenSlug, Slug.accept] at h
  cases accepted : Slug.isSlug (trim given) with
  | false => simp [accepted] at h
  | true =>
    obtain rfl : trim given = slug := by simpa [accepted] using h
    exact Slug.isSlug_iff.mp accepted

end DiagramShare.Access

namespace DiagramShare.Service

open DiagramShare.Access
open DiagramShare.Text (IsLine)

theorem newName_isLine {given name : Option String} (h : newName given = .ok name) :
    ∀ line ∈ name, IsLine maxNameLength line := by
  rintro line ⟨rfl⟩
  cases given with
  | none => cases h
  | some value =>
    rw [newName] at h
    exact requiredText_isLine (map_some_ok h)

theorem newDescription_isLine {given : Option String} {description : Option (Option String)}
    (h : newDescription given = .ok description) :
    ∀ text ∈ description, ∀ line ∈ text, IsLine maxDescriptionLength line := by
  rintro text ⟨rfl⟩
  cases given with
  | none => cases h
  | some value =>
    rw [newDescription] at h
    exact optionalText_isLine (map_some_ok h)

theorem newTitle_isLine {given title : Option String} (h : newTitle given = .ok title) :
    ∀ line ∈ title, IsLine maxNameLength line := by
  rintro line ⟨rfl⟩
  cases given with
  | none => cases h
  | some value =>
    rw [newTitle] at h
    exact requiredText_isLine (map_some_ok h)

theorem newSlug_isSlug {given slug : Option String} (h : newSlug given = .ok slug) :
    ∀ s ∈ slug, Slug.IsSlug s := by
  rintro s ⟨rfl⟩
  cases given with
  | none => cases h
  | some value =>
    rw [newSlug] at h
    exact givenSlug_isSlug (map_some_ok h)

theorem slugFor_isSlug {given : Option String} {title slug : String}
    (h : slugFor given title = .ok slug) (titled : IsLine maxNameLength title) :
    Slug.IsSlug slug := by
  cases given with
  | some value =>
    rw [slugFor] at h
    exact givenSlug_isSlug h
  | none =>
    simp only [slugFor] at h
    split at h
    · rename_i made
      obtain rfl := Except.ok.inj h
      exact Slug.ofTitle_isSlug made titled.short
    · cases h

theorem firstNote_isLine : IsLine maxNoteLength firstNote where
  trimmed := by decide
  nonblank := ⟨'I', by decide, by decide⟩
  nonempty := by decide
  short := by decide

end DiagramShare.Service
