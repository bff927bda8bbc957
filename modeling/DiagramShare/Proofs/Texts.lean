import DiagramShare.Access.Rules
import DiagramShare.Proofs.Results
import DiagramShare.Service.Documents
import DiagramShare.Service.Workspaces
import Mathlib.Data.List.Basic

/-! What the rules for texts let through. A text that is let through has no character that was not
given, and it is no longer than the rule says; a slug made from a title is no longer than the title,
and no slug has a NUL character. -/
namespace DiagramShare.Text

theorem stripWhere_subset (p : Char → Bool) (cs : List Char) : stripWhere p cs ⊆ cs := by
  intro c hc
  have hc := (List.dropWhile_suffix p).subset (List.mem_reverse.mp hc)
  exact (List.dropWhile_suffix p).subset (List.mem_reverse.mp hc)

theorem trim_subset (s : String) : (trim s).toList ⊆ s.toList := by
  rw [trim, String.toList_ofList]
  exact stripWhere_subset _ _

def spread : List (List α) → Nat
  | [] => 0
  | piece :: more => piece.length + 1 + spread more

theorem spread_splitWhere (p : α → Bool) (as : List α) :
    spread (splitWhere p as) = as.length + 1 := by
  induction as with
  | nil => rfl
  | cons a rest ih =>
    rw [splitWhere]
    split
    · rw [spread, ih, List.length_nil, List.length_cons]
      omega
    · split
      · rename_i none
        exact absurd none (splitWhere_ne_nil p rest)
      · rename_i piece more split
        rw [split, spread] at ih
        rw [spread, List.length_cons, List.length_cons]
        omega

theorem spread_map {f : List α → List α} (same : ∀ piece, (f piece).length = piece.length)
    (pieces : List (List α)) : spread (pieces.map f) = spread pieces := by
  induction pieces with
  | nil => rfl
  | cons piece more ih => rw [List.map_cons, spread, spread, same, ih]

theorem spread_filter_le (p : List α → Bool) (pieces : List (List α)) :
    spread (pieces.filter p) ≤ spread pieces := by
  induction pieces with
  | nil => exact Nat.le_refl _
  | cons piece more ih =>
    rw [List.filter_cons, spread]
    split
    · rw [spread]
      omega
    · omega

theorem length_joinWith (sep : α) {pieces : List (List α)} (some : pieces ≠ []) :
    (joinWith sep pieces).length + 1 = spread pieces := by
  induction pieces with
  | nil => exact absurd rfl some
  | cons piece more ih =>
    cases more with
    | nil => simp [joinWith, spread]
    | cons next more =>
      have rest := ih (List.cons_ne_nil _ _)
      rw [spread, ← rest, joinWith, List.length_append, List.length_cons]
      · omega
      · exact List.cons_ne_nil _ _

theorem mem_splitWhere {p : α → Bool} {as piece : List α} (h : piece ∈ splitWhere p as) :
    ∀ a ∈ piece, a ∈ as ∧ p a = false := by
  induction as generalizing piece with
  | nil =>
    obtain rfl : piece = [] := by simpa [splitWhere] using h
    exact fun a ha => absurd ha List.not_mem_nil
  | cons b rest ih =>
    rw [splitWhere] at h
    split at h
    · rcases List.mem_cons.mp h with rfl | h
      · exact fun a ha => absurd ha List.not_mem_nil
      · exact fun a ha => ⟨List.mem_cons_of_mem _ (ih h a ha).1, (ih h a ha).2⟩
    · rename_i kept
      split at h
      · rename_i none
        exact absurd none (splitWhere_ne_nil p rest)
      · rename_i first more split
        rcases List.mem_cons.mp h with rfl | h
        · intro a ha
          rcases List.mem_cons.mp ha with rfl | ha
          · exact ⟨List.mem_cons_self, by simpa using kept⟩
          · have inside := ih (split ▸ List.mem_cons_self) a ha
            exact ⟨List.mem_cons_of_mem _ inside.1, inside.2⟩
        · intro a ha
          have inside := ih (split ▸ List.mem_cons_of_mem _ h) a ha
          exact ⟨List.mem_cons_of_mem _ inside.1, inside.2⟩

theorem mem_splitWhere_of_mem {p : α → Bool} {as : List α} {a : α} (h : a ∈ as)
    (inside : p a = false) : ∃ piece ∈ splitWhere p as, a ∈ piece := by
  induction as with
  | nil => cases h
  | cons b rest ih =>
    rw [splitWhere]
    rcases List.mem_cons.mp h with rfl | h
    · rw [if_neg (by simp [inside])]
      split
      · exact ⟨[a], List.mem_singleton_self _, List.mem_singleton_self a⟩
      · exact ⟨_, List.mem_cons_self, List.mem_cons_self⟩
    · obtain ⟨piece, listed, there⟩ := ih h
      split
      · exact ⟨piece, List.mem_cons_of_mem _ listed, there⟩
      · split
        · rename_i none
          exact absurd none (splitWhere_ne_nil p rest)
        · rename_i first more split
          rw [split] at listed
          rcases List.mem_cons.mp listed with rfl | listed
          · exact ⟨_, List.mem_cons_self, List.mem_cons_of_mem _ there⟩
          · exact ⟨piece, List.mem_cons_of_mem _ listed, there⟩

theorem mem_joinWith {sep a : α} {pieces : List (List α)} (h : a ∈ joinWith sep pieces) :
    a = sep ∨ ∃ piece ∈ pieces, a ∈ piece := by
  induction pieces with
  | nil => cases h
  | cons piece more ih =>
    cases more with
    | nil => exact .inr ⟨piece, List.mem_singleton_self _, h⟩
    | cons next more =>
      rw [joinWith] at h
      · rcases List.mem_append.mp h with h | h
        · exact .inr ⟨piece, List.mem_cons_self, h⟩
        · rcases List.mem_cons.mp h with h | h
          · exact .inl h
          · rcases ih h with h | ⟨other, listed, h⟩
            · exact .inl h
            · exact .inr ⟨other, List.mem_cons_of_mem _ listed, h⟩
      · exact List.cons_ne_nil _ _

theorem length_le_utf8ByteSize (s : String) : s.length ≤ s.utf8ByteSize := by
  have counted : ∀ cs : List Char, cs.length ≤ (String.ofList cs).utf8ByteSize := by
    intro cs
    induction cs with
    | nil => exact Nat.zero_le _
    | cons c cs ih =>
      have size := c.utf8Size_pos
      rw [String.ofList_cons, String.utf8ByteSize_append, String.utf8ByteSize_singleton,
        List.length_cons]
      omega
  have bound := counted s.toList
  rwa [String.length_toList, String.ofList_toList] at bound

end DiagramShare.Text

namespace DiagramShare.Slug

open DiagramShare.Text

theorem words_spread_le (title : List Char) : spread (words title) ≤ title.length + 1 := by
  rw [words, spread_map fun run => List.length_map ..]
  exact Nat.le_trans (spread_filter_le _ _) (Nat.le_of_eq (spread_splitWhere _ _))

theorem ofTitle_length {title slug : String} (made : ofTitle? title = some slug) :
    slug.length ≤ title.length := by
  rw [ofTitle?] at made
  split at made
  · cases made
  · rename_i runs some
    obtain rfl := Option.some.inj made
    have bound := words_spread_le title.toList
    have joined := length_joinWith '-' some
    have cutting : (cut (joinWith '-' (words title.toList))).length ≤
        (joinWith '-' (words title.toList)).length := by
      rw [cut]
      split <;> exact List.length_take_le' _ _
    rw [String.length_ofList]
    rw [String.length_toList] at bound
    omega

theorem toLower_ne_nul {c : Char} (word : isWordChar c = true) : c.toLower ≠ '\x00' := by
  intro nul
  delta Char.toLower at nul
  split at nul
  · rename_i upper
    have sum : c.val + ('a'.val - 'A'.val) = 0 := congrArg Char.val nul
    have low : (65 : Nat) ≤ c.val.toNat := UInt32.le_iff_toNat_le.mp upper.1
    have high : c.val.toNat ≤ 90 := UInt32.le_iff_toNat_le.mp upper.2
    have sum := congrArg UInt32.toNat sum
    rw [UInt32.toNat_add] at sum
    have shift : ('a'.val - 'A'.val).toNat = 32 := rfl
    rw [shift] at sum
    have zero : (0 : UInt32).toNat = 0 := rfl
    omega
  · subst nul
    exact absurd word (by decide)

theorem ofTitle_plain {title slug : String} (made : ofTitle? title = some slug) :
    '\x00' ∉ slug.toList := by
  rw [ofTitle?] at made
  split at made
  · cases made
  · rename_i runs some
    obtain rfl := Option.some.inj made
    rw [String.toList_ofList]
    intro nul
    have joined : '\x00' ∈ joinWith '-' (words title.toList) := by
      rw [cut] at nul
      split at nul <;> exact List.mem_of_mem_take nul
    rcases mem_joinWith joined with dash | ⟨word, listed, nul⟩
    · exact absurd dash (by decide)
    · obtain ⟨run, kept, rfl⟩ := List.mem_map.mp listed
      obtain ⟨c, hc, lower⟩ := List.mem_map.mp nul
      have inside := (mem_splitWhere (List.mem_filter.mp kept).1 c hc).2
      exact toLower_ne_nul (by simpa using inside) lower

theorem isSlug_plain {s : String} (slug : isSlug s = true) : '\x00' ∉ s.toList := by
  intro nul
  simp only [isSlug, Bool.and_eq_true, List.all_eq_true] at slug
  obtain ⟨group, listed, there⟩ := mem_splitWhere_of_mem (p := (· == '-')) nul (by decide)
  exact absurd ((slug.2 group listed).2 _ there) (by decide)

end DiagramShare.Slug

namespace DiagramShare.Access

open DiagramShare.Text

theorem requiredText_ok {field value text : String} {max : Nat}
    (h : requiredText field value max = .ok text) :
    text.toList ⊆ value.toList ∧ text.length ≤ max := by
  rw [requiredText] at h
  split at h
  · cases h
  · split at h
    · cases h
    · rename_i short
      obtain rfl := Except.ok.inj h
      exact ⟨trim_subset value, Nat.le_of_not_lt short⟩

theorem optionalText_ok {field text : String} {value : Option String} {max : Nat}
    (h : optionalText field value max = .ok (some text)) :
    ∃ given, value = some given ∧ text.toList ⊆ given.toList ∧ text.length ≤ max := by
  cases value with
  | none => cases h
  | some given =>
    rw [optionalText] at h
    split at h
    · cases h
    · split at h
      · cases h
      · rename_i short
        obtain rfl := Option.some.inj (Except.ok.inj h)
        exact ⟨given, rfl, trim_subset given, Nat.le_of_not_lt short⟩

theorem givenSlug_ok {given slug : String} (h : givenSlug given = .ok slug) :
    '\x00' ∉ slug.toList ∧ slug.length ≤ Slug.maxLength := by
  rw [givenSlug, Slug.accept] at h
  cases accepted : Slug.isSlug (trim given) with
  | false => simp [accepted] at h
  | true =>
    obtain rfl : trim given = slug := by simpa [accepted] using h
    have plain := Slug.isSlug_plain accepted
    simp only [Slug.isSlug, Bool.and_eq_true, decide_eq_true_eq] at accepted
    exact ⟨plain, Nat.le_trans (length_le_utf8ByteSize _) accepted.1.2⟩

end DiagramShare.Access

namespace DiagramShare.Service

open DiagramShare.Access

theorem newName_ok {given : Option String} {name : String} (h : newName given = .ok (some name)) :
    ∃ value, given = some value ∧ name.toList ⊆ value.toList ∧ name.length ≤ maxNameLength := by
  cases given with
  | none => cases h
  | some value =>
    rw [newName] at h
    exact ⟨value, rfl, requiredText_ok (map_some_ok h)⟩

theorem newDescription_ok {given : Option String} {text : String}
    (h : newDescription given = .ok (some (some text))) :
    ∃ value, given = some value ∧ text.toList ⊆ value.toList := by
  cases given with
  | none => cases h
  | some value =>
    rw [newDescription] at h
    obtain ⟨text, given, inside, _⟩ := optionalText_ok (map_some_ok h)
    exact ⟨text, given, inside⟩

theorem newTitle_ok {given : Option String} {title : String}
    (h : newTitle given = .ok (some title)) :
    ∃ value, given = some value ∧ title.toList ⊆ value.toList ∧
      title.length ≤ maxNameLength := by
  cases given with
  | none => cases h
  | some value =>
    rw [newTitle] at h
    exact ⟨value, rfl, requiredText_ok (map_some_ok h)⟩

theorem newSlug_ok {given : Option String} {slug : String} (h : newSlug given = .ok (some slug)) :
    '\x00' ∉ slug.toList ∧ slug.length ≤ Slug.maxLength := by
  cases given with
  | none => cases h
  | some value =>
    rw [newSlug] at h
    exact givenSlug_ok (map_some_ok h)

theorem slugFor_ok {given : Option String} {title slug : String}
    (h : slugFor given title = .ok slug) (short : title.length ≤ Slug.maxLength) :
    '\x00' ∉ slug.toList ∧ slug.length ≤ Slug.maxLength := by
  cases given with
  | some value =>
    rw [slugFor] at h
    exact givenSlug_ok h
  | none =>
    simp only [slugFor] at h
    split at h
    · rename_i made
      obtain rfl := Except.ok.inj h
      exact ⟨Slug.ofTitle_plain made, Nat.le_trans (Slug.ofTitle_length made) short⟩
    · cases h

end DiagramShare.Service
