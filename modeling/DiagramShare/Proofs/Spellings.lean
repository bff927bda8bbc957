import DiagramShare.Proofs.Keys

/-! Spellings of keys. A key that is accepted has one canonical spelling, which is accepted as well and
is its own canonical spelling. Where an object lies says which canonical key it has. -/
namespace DiagramShare.Text

theorem splitWhere_eq (p : α → Bool) (as : List α) : splitWhere p as = as.splitOnP p := by
  induction as with
  | nil => rfl
  | cons a rest ih =>
    rw [List.splitOnP_cons_eq_if_modifyHead, splitWhere, ih]
    split
    · rfl
    · cases pieces : rest.splitOnP p with
      | nil => exact absurd pieces (List.splitOnP_ne_nil p rest)
      | cons piece more => rfl

theorem joinWith_eq (sep : α) (pieces : List (List α)) :
    joinWith sep pieces = [sep].intercalate pieces := by
  induction pieces with
  | nil => rfl
  | cons piece more ih =>
    cases more with
    | nil => simp [joinWith]
    | cons next more => simp [joinWith, ih, List.intercalate_cons_cons]

theorem joinWith_splitWhere [BEq α] [LawfulBEq α] (sep : α) (as : List α) :
    joinWith sep (splitWhere (· == sep) as) = as := by
  rw [joinWith_eq, splitWhere_eq]
  exact List.intercalate_splitOn sep

theorem splitWhere_joinWith [BEq α] [LawfulBEq α] {sep : α} {pieces : List (List α)}
    (absent : ∀ piece ∈ pieces, sep ∉ piece) (some : pieces ≠ []) :
    splitWhere (· == sep) (joinWith sep pieces) = pieces := by
  rw [joinWith_eq, splitWhere_eq]
  exact List.splitOn_intercalate sep absent some

theorem joinWith_cons (sep : α) (piece : List α) {more : List (List α)} (some : more ≠ []) :
    joinWith sep (piece :: more) = piece ++ sep :: joinWith sep more := by
  cases more with
  | nil => exact absurd rfl some
  | cons next more => rfl

theorem map_joinWith (f : α → β) (sep : α) (pieces : List (List α)) :
    (joinWith sep pieces).map f = joinWith (f sep) (pieces.map (List.map f)) := by
  induction pieces with
  | nil => rfl
  | cons piece more ih =>
    by_cases last : more = []
    · subst last
      rfl
    · rw [List.map_cons, joinWith_cons sep piece last, joinWith_cons (f sep) _ (by simpa using last),
        List.map_append, List.map_cons, ih]

theorem joinWith_sublist (sep : α) {few pieces : List (List α)} (among : few.Sublist pieces) :
    (joinWith sep few).Sublist (joinWith sep pieces) := by
  induction among with
  | slnil => exact .slnil
  | @cons few pieces piece rest ih =>
    by_cases some : pieces = []
    · subst some
      rw [List.eq_nil_of_sublist_nil rest]
      exact List.nil_sublist _
    · rw [joinWith_cons sep piece some]
      exact ih.trans ((List.sublist_cons_self _ _).trans (List.sublist_append_right _ _))
  | @cons_cons few pieces piece rest ih =>
    by_cases some : pieces = []
    · subst some
      rw [List.eq_nil_of_sublist_nil rest]
    · rw [joinWith_cons sep piece some]
      by_cases none : few = []
      · subst none
        exact List.sublist_append_left _ _
      · rw [joinWith_cons sep piece none]
        exact (List.Sublist.refl piece).append (ih.cons_cons sep)

theorem utf8ByteSize_sublist {few cs : List Char} (among : few.Sublist cs) :
    (String.ofList few).utf8ByteSize ≤ (String.ofList cs).utf8ByteSize := by
  induction among with
  | slnil => exact Nat.le_refl _
  | cons c _ ih =>
    rw [String.ofList_cons, String.utf8ByteSize_append]
    omega
  | cons_cons c _ ih =>
    rw [String.ofList_cons, String.ofList_cons, String.utf8ByteSize_append,
      String.utf8ByteSize_append]
    omega

theorem dropStart?_eq_some [BEq α] [LawfulBEq α] {start as rest : List α} :
    dropStart? start as = some rest ↔ as = start ++ rest := by
  induction start generalizing as with
  | nil => simp [dropStart?]
  | cons a start ih =>
    cases as with
    | nil => simp [dropStart?]
    | cons b as =>
      rw [dropStart?, List.cons_append, List.cons.injEq, ← ih]
      by_cases same : a = b
      · simp [same]
      · simp [same, Ne.symm same]

theorem dropStart?_isSome [BEq α] [LawfulBEq α] {start as : List α} :
    (dropStart? start as).isSome = true ↔ start <+: as := by
  rw [Option.isSome_iff_exists]
  exact exists_congr fun rest => dropStart?_eq_some.trans eq_comm

theorem breakOn?_isSome [BEq α] [LawfulBEq α] {part as : List α} :
    (breakOn? part as).isSome = true ↔ part <:+: as := by
  induction as with
  | nil =>
    rw [breakOn?, Option.isSome_map, dropStart?_isSome, List.prefix_nil, List.infix_nil]
  | cons a rest ih =>
    rw [breakOn?, List.infix_cons_iff, ← ih, ← dropStart?_isSome]
    cases dropStart? part (a :: rest) <;> simp

theorem prefix_append_cases {part as bs : List α} (within : part <+: as ++ bs) :
    part <+: as ∨ ∃ c tail, part = as ++ c :: tail ∧ c :: tail <+: bs := by
  rcases List.prefix_or_prefix_of_prefix within (List.prefix_append as bs) with short | ⟨tail, rfl⟩
  · exact .inl short
  · cases tail with
    | nil => exact .inl (by simp)
    | cons c tail => exact .inr ⟨c, tail, rfl, (List.prefix_append_right_inj as).mp within⟩

theorem infix_append_cons {part as bs : List α} {sep : α} (absent : sep ∉ part)
    (inside : part <:+: as ++ sep :: bs) : part <:+: as ∨ part <:+: bs := by
  have beginning : ∀ as, part <+: as ++ sep :: bs → part <+: as := by
    intro as within
    rcases prefix_append_cases within with short | ⟨c, tail, rfl, next⟩
    · exact short
    · rw [List.cons_prefix_cons] at next
      exact absurd (by simp [next.1]) absent
  induction as with
  | nil =>
    rcases List.infix_cons_iff.mp inside with first | rest
    · exact .inl (beginning [] first).isInfix
    · exact .inr rest
  | cons a as ih =>
    rcases List.infix_cons_iff.mp inside with first | rest
    · exact .inl (beginning (a :: as) first).isInfix
    · rcases ih rest with here | there
      · exact .inl (here.trans (List.suffix_cons a as).isInfix)
      · exact .inr there

theorem infix_joinWith {part : List α} {sep : α} {pieces : List (List α)} (absent : sep ∉ part)
    (some : part ≠ []) (inside : part <:+: joinWith sep pieces) :
    ∃ piece ∈ pieces, part <:+: piece := by
  induction pieces with
  | nil => exact absurd (List.infix_nil.mp inside) some
  | cons piece more ih =>
    by_cases last : more = []
    · subst last
      exact ⟨piece, List.mem_singleton_self _, inside⟩
    · rw [joinWith_cons sep piece last] at inside
      rcases infix_append_cons absent inside with here | there
      · exact ⟨piece, List.mem_cons_self, here⟩
      · obtain ⟨other, among, within⟩ := ih there
        exact ⟨other, List.mem_cons_of_mem _ among, within⟩

theorem infix_of_mem_splitWhere [BEq α] [LawfulBEq α] {sep : α} {as piece : List α}
    (listed : piece ∈ splitWhere (· == sep) as) : piece <:+: as := by
  have joined := joinWith_splitWhere sep as
  obtain ⟨before, after, whole⟩ := List.append_of_mem listed
  rw [← joined, whole]
  clear joined whole listed
  induction before with
  | nil =>
    rw [List.nil_append]
    by_cases last : after = []
    · subst last
      exact List.infix_rfl
    · rw [joinWith_cons sep piece last]
      exact (List.prefix_append _ _).isInfix
  | cons first before ih =>
    rw [List.cons_append, joinWith_cons sep first (by simp)]
    exact ih.trans ((List.suffix_cons _ _).trans (List.suffix_append _ _)).isInfix

end DiagramShare.Text

namespace DiagramShare.Storage.Key

open DiagramShare.Text

def canon (cs : List Char) : List Char := joinWith '/' (segments cs)

theorem normalize_ok {key canonical : String} :
    normalize key = .ok canonical ↔
      Acceptable key.toList ∧ canonical = String.ofList (canon key.toList) := by
  unfold normalize
  constructor
  · intro accepted
    simp only at accepted
    split at accepted
    · cases accepted
    rename_i nonempty
    split at accepted
    · cases accepted
    rename_i short
    split at accepted
    · cases accepted
    rename_i relative
    split at accepted
    · cases accepted
    rename_i harmless
    split at accepted
    · cases accepted
    rename_i downward
    split at accepted
    · cases accepted
    rename_i named
    split at accepted
    · cases accepted
    rename_i shallow
    refine ⟨?_, (Except.ok.inj accepted).symm⟩
    constructor
    · simpa using nonempty
    · simpa using short
    · simpa using relative
    · simpa using harmless
    · simpa using downward
    · simpa using named
    · simpa using shallow
  · rintro ⟨⟨nonempty, short, relative, harmless, downward, named, shallow⟩, rfl⟩
    rw [String.ofList_toList, ← Nat.not_lt] at short
    rw [← Nat.not_lt] at shallow
    simp [nonempty, short, relative, harmless, downward, named, shallow, canon]

theorem mem_segments {cs segment : List Char} (listed : segment ∈ segments cs) :
    segment ∈ pieces cs ∧ segment ≠ [] ∧ segment ≠ ['.'] ∧ '/' ∉ segment := by
  obtain ⟨among, counts⟩ := List.mem_filter.mp listed
  simp only [Bool.and_eq_true, Bool.not_eq_true', List.isEmpty_eq_false_iff, bne_iff_ne] at counts
  refine ⟨among, counts.1, counts.2, fun slash => ?_⟩
  have inside := (mem_splitWhere among '/' slash).2
  simp at inside

theorem pieces_canon {cs : List Char} (named : segments cs ≠ []) :
    pieces (canon cs) = segments cs :=
  splitWhere_joinWith (fun _ listed => (mem_segments listed).2.2.2) named

theorem segments_canon {cs : List Char} (named : segments cs ≠ []) :
    segments (canon cs) = segments cs := by
  rw [segments, pieces_canon named, List.filter_eq_self]
  intro segment listed
  obtain ⟨_, some, other, _⟩ := mem_segments listed
  simp [some, other]

theorem canon_canon {cs : List Char} (named : segments cs ≠ []) : canon (canon cs) = canon cs := by
  change joinWith '/' (segments (canon cs)) = canon cs
  rw [segments_canon named, canon]

theorem infix_canon {cs part : List Char} (f : Char → Char) (slash : f '/' = '/')
    (absent : '/' ∉ part) (some : part ≠ []) (inside : part <:+: (canon cs).map f) :
    part <:+: cs.map f := by
  rw [canon, map_joinWith, slash] at inside
  obtain ⟨piece, listed, within⟩ := infix_joinWith absent some inside
  obtain ⟨segment, among, rfl⟩ := List.mem_map.mp listed
  have part_of := infix_of_mem_splitWhere (mem_segments among).1
  exact within.trans (part_of.map f)

theorem canon_sublist (cs : List Char) : (canon cs).Sublist cs := by
  have fewer := joinWith_sublist '/' (List.filter_sublist (l := pieces cs)
    (p := fun piece => !piece.isEmpty && piece != ['.']))
  have whole : joinWith '/' (pieces cs) = cs := joinWith_splitWhere '/' cs
  rwa [whole] at fewer

theorem isDangerous_canon {cs : List Char} (harmless : isDangerous cs = false) :
    isDangerous (canon cs) = false := by
  simp only [isDangerous, Bool.or_eq_false_iff, List.any_eq_false] at harmless ⊢
  obtain ⟨spellings, controls⟩ := harmless
  constructor
  · intro part listed occurs
    have plain : ∀ part ∈ dangerousSpellings, '/' ∉ part ∧ part ≠ [] := by decide
    obtain ⟨absent, some⟩ := plain part listed
    have inside := infix_canon Char.toLower (by decide) absent some (breakOn?_isSome.mp occurs)
    exact spellings part listed (breakOn?_isSome.mpr inside)
  · intro c there
    exact controls c ((canon_sublist cs).subset there)

theorem Acceptable.canon {cs : List Char} (h : Acceptable cs) : Acceptable (canon cs) := by
  have head : ∃ c rest, Key.canon cs = c :: rest ∧ c ≠ '/' := by
    obtain ⟨first, more, list⟩ := List.exists_cons_of_ne_nil h.named
    obtain ⟨_, some, _, single⟩ := mem_segments (list ▸ List.mem_cons_self : first ∈ segments cs)
    obtain ⟨c, rest, rfl⟩ := List.exists_cons_of_ne_nil some
    have other : c ≠ '/' := fun same => single (same ▸ List.mem_cons_self)
    by_cases last : more = []
    · exact ⟨c, rest, by rw [Key.canon, list, last]; rfl, other⟩
    · exact ⟨c, _, by rw [Key.canon, list, joinWith_cons '/' _ last]; rfl, other⟩
  obtain ⟨c, rest, start, other⟩ := head
  constructor
  · simp [start]
  · exact Nat.le_trans (utf8ByteSize_sublist (canon_sublist cs)) h.short
  · simp [start, other]
  · exact isDangerous_canon h.harmless
  · rw [pieces_canon h.named]
    exact fun dots => h.downward (mem_segments dots).1
  · rw [segments_canon h.named]
    exact h.named
  · rw [segments_canon h.named]
    exact h.shallow

theorem normalize_canonical {key canonical : String} (accepted : normalize key = .ok canonical) :
    normalize canonical = .ok canonical := by
  obtain ⟨acceptable, rfl⟩ := normalize_ok.mp accepted
  refine normalize_ok.mpr ⟨?_, ?_⟩
  · rw [String.toList_ofList]
    exact acceptable.canon
  · rw [String.toList_ofList, canon_canon acceptable.named]

theorem pathOf_injective {key key' : String} (same : Local.pathOf key = Local.pathOf key') :
    key = key' := by
  have cut : pieces key.toList = pieces key'.toList := by
    have lists := congrArg (List.map String.toList) same
    simpa [Local.pathOf, Function.comp_def] using lists
  have joined := congrArg (joinWith '/') cut
  rw [pieces, pieces, joinWith_splitWhere, joinWith_splitWhere] at joined
  exact String.toList_inj.mp joined

theorem pathOf_ne_nil (key : String) : Local.pathOf key ≠ [] := by
  simp [Local.pathOf, pieces, splitWhere_ne_nil]

end DiagramShare.Storage.Key
