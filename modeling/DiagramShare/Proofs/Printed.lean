import DiagramShare.Json.Value
import Mathlib.Data.List.Basic

/-!
Values that are written and read back. What the compact text of a value is read as is the value
itself, and what follows the text is left unread, if it cannot continue a number. Doubles are left
out: the digits that are written of one are those of its shortest form.
-/
namespace DiagramShare.Json

open DiagramShare.Text (hexDigit hexValue?)

namespace Number

/-- A whole number of the range that texts can give back. A negative zero is no whole number. -/
inductive IsWhole : Number → Prop
  | natural {n : Nat} (below : n < naturalEnd) : IsWhole (.natural n)
  | negative {n : Int} (from_least : least ≤ n) (below : n < 0) : IsWhole (.negative n)

theorem le_ofDigitChars (v : Nat) (ds : List Char) : v ≤ Nat.ofDigitChars 10 ds v := by
  have grown : v ≤ 10 ^ ds.length * v := Nat.le_mul_of_pos_left v (Nat.pow_pos (by decide))
  rw [Nat.ofDigitChars_eq_ofDigitChars_zero]
  exact Nat.le_add_right_of_le grown

theorem takeDigits_eq {v : Nat} {ds : List Char} (below : Nat.ofDigitChars 10 ds v < naturalEnd)
    (taken : Nat) : Significand.takeDigits v taken ds =
      ⟨Nat.ofDigitChars 10 ds v, taken + ds.length, 0⟩ := by
  induction ds generalizing v taken with
  | nil => rfl
  | cons c rest ih =>
    have next : v * 10 + digitValue c = 10 * v + (c.toNat - '0'.toNat) := by
      rw [Nat.mul_comm]
      rfl
    rw [Nat.ofDigitChars_cons, ← next] at below ⊢
    have within := Nat.lt_of_le_of_lt (le_ofDigitChars _ rest) below
    rw [Significand.takeDigits, if_neg (Nat.not_le.mpr within), ih below, List.length_cons,
      Nat.add_assoc, Nat.add_comm 1]

theorem takeDigits_toDigits {n : Nat} (below : n < naturalEnd) :
    Significand.takeDigits 0 0 (Nat.toDigits 10 n) = ⟨n, (Nat.toDigits 10 n).length, 0⟩ := by
  have value : Nat.ofDigitChars 10 (Nat.toDigits 10 n) 0 = n :=
    Nat.ofDigitChars_toDigits (by decide) (by decide)
  rw [takeDigits_eq (value.symm ▸ below), value, Nat.zero_add]

theorem ofDigits_natural {n : Nat} (below : n < naturalEnd) :
    ofDigits false (Nat.toDigits 10 n) none none = natural n := by
  simp [ofDigits, takeDigits_toDigits below]

theorem ofDigits_negative {n : Nat} (positive : 0 < n) (from_least : least ≤ -(n : Int)) :
    ofDigits true (Nat.toDigits 10 n) none none = negative (-(n : Int)) := by
  have below : n < naturalEnd := by
    simp only [least, naturalEnd] at from_least ⊢
    omega
  have kept : ¬(n = 0 ∨ least > -(n : Int)) := by omega
  simp [ofDigits, takeDigits_toDigits below, kept]

end Number

namespace Reading

def Ends (rest : Source) : Prop :=
  ∀ c, rest.head? = some (some c) → c.isDigit = false ∧ c ≠ '.' ∧ c ≠ 'e' ∧ c ≠ 'E'

theorem ends_nil : Ends [] := by
  intro c h
  cases h

theorem ends_cons {c : Char} (digit : c.isDigit = false) (others : c ≠ '.' ∧ c ≠ 'e' ∧ c ≠ 'E')
    (rest : Source) : Ends (some c :: rest) := by
  intro d h
  cases h
  exact ⟨digit, others⟩

theorem digits_append {ds : List Char} {rest : Source} (all : ∀ c ∈ ds, c.isDigit = true)
    (ends : Ends rest) : digits (ds.map some ++ rest) = (ds, rest) := by
  induction ds with
  | nil =>
    match rest with
    | [] => rfl
    | none :: _ => rfl
    | some c :: _ => simp [digits, (ends c rfl).1]
  | cons c ds ih =>
    have first := all c List.mem_cons_self
    have more := ih fun d hd => all d (List.mem_cons_of_mem c hd)
    simp [digits, first, more]

theorem fraction_of_ends {rest : Source} (ends : Ends rest) :
    fraction rest = some (none, rest) := by
  match rest with
  | [] => rfl
  | none :: _ => rfl
  | some c :: _ =>
    have point := (ends c rfl).2.1
    rw [fraction]
    intro s h
    cases h
    exact point rfl

theorem exponent_of_ends {rest : Source} (ends : Ends rest) :
    exponent rest = some (none, rest) := by
  match rest with
  | [] => rfl
  | none :: _ => rfl
  | some c :: _ =>
    obtain ⟨-, -, lower, upper⟩ := ends c rfl
    unfold exponent
    split
    · rename_i h
      cases h
      exact absurd rfl lower
    · rename_i h
      cases h
      exact absurd rfl upper
    · rfl

theorem eq_zero_of_head? {n : Nat} (h : (Nat.toDigits 10 n).head? = some '0') : n = 0 := by
  induction n using Nat.strongRecOn with
  | _ n ih =>
    rw [Nat.toDigits_eq_if (by decide)] at h
    split at h
    · exact Nat.digitChar_eq_zero.mp (Option.some.inj h)
    · rw [List.head?_append_of_ne_nil _ Nat.toDigits_ne_nil] at h
      have := ih (n / 10) (by omega) h
      omega

theorem number?_toDigits (isNegative : Bool) (n : Nat) {rest : Source} (ends : Ends rest) :
    number? isNegative ((Nat.toDigits 10 n).map some ++ rest) =
      some (Number.ofDigits isNegative (Nat.toDigits 10 n) none none, rest) := by
  have all : ∀ c ∈ Nat.toDigits 10 n, c.isDigit = true := fun c hc =>
    Nat.isDigit_of_mem_toDigits (by decide) (by decide) hc
  have single : ¬((Nat.toDigits 10 n).head? = some '0' ∧ (Nat.toDigits 10 n).length ≠ 1) := by
    rintro ⟨zero, more⟩
    rw [eq_zero_of_head? zero] at more
    exact more rfl
  unfold number?
  rw [digits_append all ends]
  split
  · rename_i h
    exact absurd (congrArg Prod.fst h) Nat.toDigits_ne_nil
  · rename_i h
    cases h
    rw [if_neg single, fraction_of_ends ends]
    simp [exponent_of_ends ends]

theorem hexValue?_hexDigit : ∀ n < 16, hexValue? (hexDigit n) = some n := by decide

theorem unit_charText (c : Char) (rest : Source) :
    unit ((Value.charText c).map some ++ rest) = some (.char c, rest) := by
  unfold Value.charText
  split_ifs with quote slash back feed line carriage tab control
  · subst quote
    rfl
  · subst slash
    rfl
  · subst back
    rfl
  · subst feed
    rfl
  · subst line
    rfl
  · subst carriage
    rfl
  · subst tab
    rfl
  · have zero : hexValue? '0' = some 0 := rfl
    have high := hexValue?_hexDigit (c.toNat / 16) (by omega)
    have low := hexValue?_hexDigit (c.toNat % 16) (by omega)
    have code : c.toNat / 16 * 16 + c.toNat % 16 = c.toNat := by omega
    have itself : Unit.ofCode c.toNat = .char c := by
      rw [Unit.ofCode, if_neg (by omega), if_neg (by omega), Char.ofNat_toNat]
    simp [unit, fourDigits, zero, high, low, code, itself]
  · simp only [List.map_cons, List.map_nil, List.cons_append, List.nil_append]
    rw [unit.eq_def]
    split <;> simp_all

theorem charText_eq_cons (c : Char) : ∃ d more, Value.charText c = d :: more ∧ d ≠ '"' := by
  unfold Value.charText
  split_ifs with quote <;> exact ⟨_, _, rfl, by first | assumption | decide⟩

theorem units_text (cs : List Char) (steps : Nat) (rest : Source)
    (enough : (cs.flatMap Value.charText).length < steps) :
    units steps ((cs.flatMap Value.charText).map some ++ some '"' :: rest) =
      some (cs.map .char, rest) := by
  induction cs generalizing steps with
  | nil =>
    obtain ⟨n, rfl⟩ := Nat.exists_eq_succ_of_ne_zero (Nat.ne_of_gt enough)
    rfl
  | cons c cs ih =>
    obtain ⟨d, more, text, open_⟩ := charText_eq_cons c
    rw [List.flatMap_cons, List.length_append, text, List.length_cons] at enough
    obtain ⟨n, rfl⟩ : ∃ n, steps = n + 1 := ⟨steps - 1, by omega⟩
    have first := unit_charText c
      ((cs.flatMap Value.charText).map some ++ some '"' :: rest)
    rw [List.flatMap_cons, List.map_append, List.append_assoc, units]
    · rw [first]
      simp [ih n (by omega)]
    · intro s h
      rw [text] at h
      cases h
      exact open_ rfl

theorem spell_chars (cs : List Char) : spell (cs.map .char) = some cs := by
  induction cs with
  | nil => rfl
  | cons c cs ih => simp [spell, ih]

theorem string?_text (s : String) (rest : Source) :
    string? ((s.toList.flatMap Value.charText).map some ++ some '"' :: rest) =
      (.string (some s), some rest) := by
  have all := units_text s.toList
    (((s.toList.flatMap Value.charText).map some ++ some '"' :: rest).length + 1) rest
    (by simp only [List.length_append, List.length_map]; omega)
  rw [string?, all]
  simp [spell_chars]

theorem skipSpaces_cons {c : Option Char} (mark : isSpace c = false) (s : Source) :
    skipSpaces (c :: s) = c :: s := by
  simp [skipSpaces, mark]

end Reading

namespace Value

inductive IsPlain : Value → Prop
  | null : IsPlain .null
  | boolean (b : Bool) : IsPlain (.boolean b)
  | number {n : Number} (whole : n.IsWhole) : IsPlain (.number n)
  | string (s : String) : IsPlain (.string s)
  | array {items : List Value} (each : ∀ v ∈ items, IsPlain v) : IsPlain (.array items)
  | object {entries : List (String × Value)} (each : ∀ e ∈ entries, IsPlain e.2) :
      IsPlain (.object entries)

/-- The text of a value is read as the value, within twice as many steps as it has characters. -/
def ReadsBack (v : Value) : Prop :=
  ∀ (steps : Nat) (rest : Source), 2 * v.chars.length ≤ steps → Reading.Ends rest →
    Reading.value steps (v.chars.map some ++ rest) = (v.reading, some rest)

end Value

namespace Number

theorem toDigits_eq_cons (n : Nat) :
    ∃ c more, Nat.toDigits 10 n = c :: more ∧ c.isDigit = true := by
  obtain ⟨c, more, digits⟩ := List.exists_cons_of_ne_nil (Nat.toDigits_ne_nil (b := 10) (n := n))
  have among : c ∈ Nat.toDigits 10 n := digits ▸ List.mem_cons_self
  exact ⟨c, more, digits, Nat.isDigit_of_mem_toDigits (by decide) (by decide) among⟩

theorem IsWhole.text_cases {n : Number} (whole : n.IsWhole) :
    (∃ k, n = .natural k ∧ k < naturalEnd ∧ n.text.toList = Nat.toDigits 10 k) ∨
    (∃ k : Nat, n = .negative (-(k : Int)) ∧ 0 < k ∧ least ≤ -(k : Int) ∧
      n.text.toList = '-' :: Nat.toDigits 10 k) := by
  cases whole with
  | @natural k below => exact .inl ⟨k, rfl, below, Nat.toList_repr⟩
  | @negative k from_least below =>
    obtain ⟨m, rfl⟩ := Int.eq_negSucc_of_lt_zero below
    refine .inr ⟨m + 1, rfl, m.succ_pos, from_least, ?_⟩
    change ("-" ++ (m + 1).repr).toList = _
    rw [String.toList_append, Nat.toList_repr]
    rfl

end Number

namespace Reading

theorem isSpace_of_isDigit {c : Char} (digit : c.isDigit = true) : isSpace (some c) = false := by
  by_contra space
  simp only [isSpace, Bool.not_eq_false, Bool.or_eq_true, beq_iff_eq, Option.some.injEq] at space
  rcases space with ((rfl | rfl) | rfl) | rfl <;> exact absurd digit (by decide)

theorem value_digit {c : Char} (digit : c.isDigit = true) {steps : Nat} {s : Source} {n : Number}
    {rest : Source} (number : number? false (some c :: s) = some (n, rest)) :
    value (steps + 1) (some c :: s) = (.number n, some rest) := by
  rw [value, skipSpaces_cons (isSpace_of_isDigit digit)]
  split <;> simp_all

theorem members_last (first : Bool) (steps : Nat) (s : Source) :
    members (steps + 1) first (some ']' :: s) = ([], some s) := by
  cases first <;> rfl

theorem members_first {c : Char} (mark : isSpace (some c) = false) (closed : c ≠ ']') (steps : Nat)
    (s : Source) : members (steps + 1) true (some c :: s) = member steps (some c :: s) := by
  unfold members
  rw [skipSpaces_cons mark]
  split <;> simp_all

theorem members_next {c : Char} (mark : isSpace (some c) = false) (closed : c ≠ ']') (steps : Nat)
    (s : Source) :
    members (steps + 1) false (some ',' :: some c :: s) = member steps (some c :: s) := by
  unfold members
  rw [skipSpaces_cons rfl]
  simp only [skipSpaces_cons mark]
  split <;> simp_all

theorem pairs_last (first : Bool) (steps : Nat) (s : Source) :
    pairs (steps + 1) first (some '\x7d' :: s) = ([], some s) := by
  cases first <;> rfl

theorem pairs_first (steps : Nat) (s : Source) :
    pairs (steps + 1) true (some '"' :: s) = pair steps (some '"' :: s) := rfl

theorem pairs_next (steps : Nat) (s : Source) :
    pairs (steps + 1) false (some ',' :: s) = pair steps s := rfl

theorem pair_eq {steps : Nat} {s t u : Source} {key v : Reading}
    (isKey : value steps s = (key, some (some ':' :: t))) (isValue : value steps t = (v, some u)) :
    pair (steps + 1) s = ((key, v) :: (pairs steps false u).1, (pairs steps false u).2) := by
  simp only [pair, isKey, skipSpaces_cons (c := some ':') rfl, isValue]

end Reading

namespace Value

theorem chars_eq_cons {v : Value} (plain : v.IsPlain) :
    ∃ c more, v.chars = c :: more ∧ Reading.isSpace (some c) = false ∧ c ≠ ']' := by
  cases plain with
  | null => exact ⟨_, _, rfl, rfl, by decide⟩
  | boolean b => cases b <;> exact ⟨_, _, rfl, rfl, by decide⟩
  | number whole =>
    rw [chars]
    rcases whole.text_cases with ⟨k, -, -, text⟩ | ⟨k, -, -, -, text⟩
    · obtain ⟨c, more, start, digit⟩ := Number.toDigits_eq_cons k
      refine ⟨c, more, text.trans start, Reading.isSpace_of_isDigit digit, ?_⟩
      rintro rfl
      exact absurd digit (by decide)
    · exact ⟨_, _, text, rfl, by decide⟩
  | string s => exact ⟨_, _, rfl, rfl, by decide⟩
  | array each => exact ⟨_, _, rfl, rfl, by decide⟩
  | object each => exact ⟨_, _, rfl, rfl, by decide⟩

theorem length_chars_pos {v : Value} (plain : v.IsPlain) : 0 < v.chars.length := by
  obtain ⟨c, more, text, -, -⟩ := chars_eq_cons plain
  rw [text]
  exact Nat.succ_pos _

theorem readsBack_of_succ {v : Value} (plain : v.IsPlain)
    (read : ∀ (n : Nat) (rest : Source), 2 * v.chars.length ≤ n + 1 → Reading.Ends rest →
      Reading.value (n + 1) (v.chars.map some ++ rest) = (v.reading, some rest)) :
    v.ReadsBack := by
  intro steps rest enough ends
  have pos := length_chars_pos plain
  obtain ⟨n, rfl⟩ : ∃ n, steps = n + 1 := ⟨steps - 1, by omega⟩
  exact read n rest enough ends

theorem readsBack_number {n : Number} (whole : n.IsWhole) : ReadsBack (.number n) := by
  refine readsBack_of_succ (.number whole) fun steps rest _ ends => ?_
  rw [chars, reading]
  rcases whole.text_cases with ⟨k, rfl, below, text⟩ | ⟨k, rfl, positive, from_least, text⟩
  · obtain ⟨c, more, start, digit⟩ := Number.toDigits_eq_cons k
    have number := Reading.number?_toDigits false k ends
    rw [Number.ofDigits_natural below, start] at number
    rw [text, start]
    exact Reading.value_digit digit number
  · have number := Reading.number?_toDigits true k ends
    rw [Number.ofDigits_negative positive from_least] at number
    rw [text, List.map_cons, List.cons_append, Reading.value, Reading.skipSpaces_cons rfl]
    simp [number]

theorem readsBack_string (s : String) : ReadsBack (.string s) := by
  refine readsBack_of_succ (.string s) fun steps rest _ _ => ?_
  have read := Reading.string?_text s rest
  rw [chars, stringText, List.cons_append, List.map_cons, List.cons_append, Reading.value,
    Reading.skipSpaces_cons rfl]
  simpa [reading] using read

theorem ends_items (items : List Value) (rest : Source) :
    Reading.Ends ((itemChars false items).map some ++ some ']' :: rest) := by
  cases items with
  | nil => exact Reading.ends_cons (by decide) (by decide) _
  | cons v more =>
    rw [itemChars]
    exact Reading.ends_cons (by decide) (by decide) _

theorem members_items {items : List Value} (plain : ∀ v ∈ items, v.IsPlain)
    (each : ∀ v ∈ items, v.ReadsBack) (rest : Source) (first : Bool) (steps : Nat)
    (enough : 2 * (itemChars first items).length + 2 ≤ steps) :
    Reading.members steps first ((itemChars first items).map some ++ some ']' :: rest) =
      (readings items, some rest) := by
  induction items generalizing first steps with
  | nil =>
    obtain ⟨n, rfl⟩ : ∃ n, steps = n + 1 := ⟨steps - 1, by omega⟩
    exact Reading.members_last first n rest
  | cons v more ih =>
    have pos := length_chars_pos (plain v List.mem_cons_self)
    have size : v.chars.length + (itemChars false more).length ≤
        (itemChars first (v :: more)).length := by
      rw [itemChars, List.length_append, List.length_append]
      omega
    obtain ⟨n, rfl⟩ : ∃ n, steps = n + 2 := ⟨steps - 2, by omega⟩
    have item := each v List.mem_cons_self n _ (by omega) (ends_items more rest)
    have others := ih (fun w hw => plain w (List.mem_cons_of_mem v hw))
      (fun w hw => each w (List.mem_cons_of_mem v hw)) false n (by omega)
    have member : Reading.member (n + 1) (v.chars.map some ++
        ((itemChars false more).map some ++ some ']' :: rest)) =
        (readings (v :: more), some rest) := by
      simp only [Reading.member, item, others, readings]
    obtain ⟨c, text, start, mark, closed⟩ := chars_eq_cons (plain v List.mem_cons_self)
    rw [start] at member
    cases first with
    | true =>
      rw [itemChars, start]
      simpa [Reading.members_first mark closed] using member
    | false =>
      rw [itemChars, start]
      simpa [Reading.members_next mark closed] using member

theorem readsBack_array {items : List Value} (plain : ∀ v ∈ items, v.IsPlain)
    (each : ∀ v ∈ items, v.ReadsBack) : ReadsBack (.array items) := by
  refine readsBack_of_succ (.array plain) fun n rest enough _ => ?_
  rw [chars, List.length_append, List.length_cons, List.length_singleton] at enough
  have read := members_items plain each rest true n (by omega)
  rw [chars, List.cons_append, List.map_cons, List.cons_append, Reading.value,
    Reading.skipSpaces_cons rfl]
  simp [reading, read]

theorem ends_entries (entries : List (String × Value)) (rest : Source) :
    Reading.Ends ((entryChars false entries).map some ++ some '\x7d' :: rest) := by
  cases entries with
  | nil => exact Reading.ends_cons (by decide) (by decide) _
  | cons e more =>
    rw [entryChars, entryText]
    exact Reading.ends_cons (by decide) (by decide) _

theorem pairs_entries {entries : List (String × Value)} (each : ∀ e ∈ entries, e.2.ReadsBack)
    (rest : Source) (first : Bool) (steps : Nat)
    (enough : 2 * (entryChars first entries).length + 2 ≤ steps) :
    Reading.pairs steps first ((entryChars first entries).map some ++ some '\x7d' :: rest) =
      (entryReadings entries, some rest) := by
  induction entries generalizing first steps with
  | nil =>
    obtain ⟨n, rfl⟩ : ∃ n, steps = n + 1 := ⟨steps - 1, by omega⟩
    exact Reading.pairs_last first n rest
  | cons e more ih =>
    obtain ⟨key, v⟩ := e
    have size : (stringText key).length + v.chars.length + 1 + (entryChars false more).length ≤
        (entryChars first ((key, v) :: more)).length := by
      simp only [entryChars, entryText, List.length_append, List.length_cons]
      omega
    obtain ⟨n, rfl⟩ : ∃ n, steps = n + 2 := ⟨steps - 2, by omega⟩
    have itself : v.ReadsBack := each (key, v) List.mem_cons_self
    have isValue := itself n _ (by omega) (ends_entries more rest)
    have isKey := readsBack_string key n (some ':' :: (v.chars.map some ++
      ((entryChars false more).map some ++ some '\x7d' :: rest))) (by rw [chars]; omega)
      (Reading.ends_cons (by decide) (by decide) _)
    have others := ih (fun e he => each e (List.mem_cons_of_mem _ he)) false n (by omega)
    have pair := Reading.pair_eq isKey isValue
    rw [others] at pair
    cases first with
    | true =>
      simpa [entryChars, entryText, entryReadings, entryReading, reading, chars, stringText,
        Reading.pairs_first] using pair
    | false =>
      simpa [entryChars, entryText, entryReadings, entryReading, reading, chars, stringText,
        Reading.pairs_next] using pair

theorem readsBack_object {entries : List (String × Value)} (plain : ∀ e ∈ entries, e.2.IsPlain)
    (each : ∀ e ∈ entries, e.2.ReadsBack) : ReadsBack (.object entries) := by
  refine readsBack_of_succ (.object plain) fun n rest enough _ => ?_
  rw [chars, List.length_append, List.length_cons, List.length_singleton] at enough
  have read := pairs_entries each rest true n (by omega)
  rw [chars, List.cons_append, List.map_cons, List.cons_append, Reading.value,
    Reading.skipSpaces_cons rfl]
  simp [reading, read]

theorem IsPlain.readsBack {v : Value} (plain : v.IsPlain) : v.ReadsBack := by
  induction plain with
  | null => exact readsBack_of_succ .null fun _ _ _ _ => rfl
  | boolean b => exact readsBack_of_succ (.boolean b) fun _ _ _ _ => by cases b <;> rfl
  | number whole => exact readsBack_number whole
  | string s => exact readsBack_string s
  | array plain each => exact readsBack_array plain each
  | object plain each => exact readsBack_object plain each

theorem IsPlain.ofText_text {v : Value} (plain : v.IsPlain) :
    Reading.ofText v.text = (v.reading, some []) := by
  have read := plain.readsBack (4 * v.chars.length + 4) [] (by omega) Reading.ends_nil
  rw [List.append_nil] at read
  simpa [Reading.ofText, Reading.ofSource, text] using read

end Value

end DiagramShare.Json
