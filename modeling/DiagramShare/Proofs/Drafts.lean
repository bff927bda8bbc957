import DiagramShare.Proofs.Wording

/-! Slugs in the making. A text has its runs of letters and digits in one way only, and one pass over
the text writes them in lower case with single dashes between them. The pass does not look ahead when
it has written enough: it ends behind the letter that a dash was written for, where the slug is one
character longer than it may be. -/
namespace DiagramShare.Text

theorem joinWith_snoc (sep : α) {pieces : List (List α)} (some : pieces ≠ []) (last : List α) :
    joinWith sep (pieces ++ [last]) = joinWith sep pieces ++ sep :: last := by
  induction pieces with
  | nil => exact absurd rfl some
  | cons piece more ih =>
    by_cases single : more = []
    · subst single
      rfl
    · rw [List.cons_append, joinWith_cons sep piece (by simp), ih single, joinWith_cons sep piece single,
        List.append_assoc, List.cons_append]

theorem joinWith_append_last (sep : α) (pieces : List (List α)) (last more : List α) :
    joinWith sep (pieces ++ [last ++ more]) = joinWith sep (pieces ++ [last]) ++ more := by
  by_cases none : pieces = []
  · subst none
    rfl
  · rw [joinWith_snoc sep none, joinWith_snoc sep none, List.append_assoc, List.cons_append]

theorem joinWith_cons_cons (sep : α) (first second : List α) (more : List (List α)) :
    joinWith sep ((first ++ sep :: second) :: more) = joinWith sep (first :: second :: more) := by
  rw [joinWith_cons sep first (List.cons_ne_nil second more)]
  by_cases none : more = []
  · subst none
    rfl
  · rw [joinWith_cons sep _ none, joinWith_cons sep _ none, List.append_assoc, List.cons_append]

theorem filter_splitWhere_gap {p : α → Bool} {gap : List α} (all : ∀ a ∈ gap, p a = true)
    (rest : List α) : (splitWhere p (gap ++ rest)).filter (fun piece => !piece.isEmpty) =
      (splitWhere p rest).filter fun piece => !piece.isEmpty := by
  induction gap with
  | nil => rfl
  | cons a gap ih =>
    rw [List.cons_append, splitWhere, if_pos (all a List.mem_cons_self),
      List.filter_cons_of_neg (by simp)]
    exact ih fun b hb => all b (List.mem_cons_of_mem _ hb)

theorem stripWhere_none {p : Char → Bool} {cs : List Char} (none : ∀ c ∈ cs, p c = false) :
    stripWhere p cs = cs := by
  rw [stripWhere_of_head fun c first => none c (List.mem_of_mem_head? first), stripEndWhere_eq_self]
  exact fun c last => none c (List.mem_of_mem_getLast? last)

end DiagramShare.Text

namespace DiagramShare.Slug

open DiagramShare.Text

/-- The runs of letters and digits of a text, each as long as can be, in order. What stands before,
between and behind them are other characters. -/
inductive Runs : List Char → List (List Char) → Prop where
  | nil {gap : List Char} (other : ∀ c ∈ gap, c.isAlphanum = false) : Runs gap []
  | cons {gap run rest : List Char} {runs : List (List Char)}
      (other : ∀ c ∈ gap, c.isAlphanum = false) (some : run ≠ [])
      (word : ∀ c ∈ run, c.isAlphanum = true) (ends : ∀ c ∈ rest.head?, c.isAlphanum = false)
      (more : Runs rest runs) : Runs (gap ++ (run ++ rest)) (run :: runs)

variable {cs : List Char} {runs : List (List Char)} {c : Char}

theorem Runs.skip (h : Runs cs runs) (other : c.isAlphanum = false) : Runs (c :: cs) runs := by
  cases h with
  | nil gap => exact .nil (List.forall_mem_cons.mpr ⟨other, gap⟩)
  | cons gap some word ends more =>
    exact .cons (List.forall_mem_cons.mpr ⟨other, gap⟩) some word ends more

theorem Runs.front {run rest : List Char} (some : run ≠ []) (word : ∀ c ∈ run, c.isAlphanum = true)
    (ends : ∀ c ∈ rest.head?, c.isAlphanum = false) (more : Runs rest runs) :
    Runs (run ++ rest) (run :: runs) := by
  rw [← List.nil_append (run ++ rest)]
  exact .cons (List.forall_mem_nil _) some word ends more

theorem exists_runs (cs : List Char) : ∃ runs, Runs cs runs := by
  induction cs with
  | nil => exact ⟨[], .nil nofun⟩
  | cons c cs ih =>
    obtain ⟨runs, h⟩ := ih
    by_cases word : c.isAlphanum = true
    · have single : ∀ d ∈ [c], d.isAlphanum = true := List.forall_mem_singleton.mpr word
      cases h with
      | nil other =>
        refine ⟨[[c]], .front (List.cons_ne_nil c []) single ?_ (.nil other)⟩
        exact fun d hd => other d (List.mem_of_mem_head? hd)
      | @cons gap run rest runs other some each ends more =>
        cases gap with
        | nil =>
          refine ⟨(c :: run) :: runs, .front (List.cons_ne_nil c run) ?_ ends more⟩
          exact List.forall_mem_cons.mpr ⟨word, each⟩
        | cons d gap =>
          refine ⟨[c] :: run :: runs, .front (List.cons_ne_nil c []) single ?_
            (.cons other some each ends more)⟩
          rintro _ ⟨rfl⟩
          exact other _ List.mem_cons_self
    · exact ⟨runs, h.skip (Bool.not_eq_true _ ▸ word)⟩

theorem Runs.eq (h : Runs cs runs) :
    runs = (splitWhere (fun c => !isWordChar c) cs).filter fun run => !run.isEmpty := by
  have apart : ∀ {c : Char}, c.isAlphanum = false → (!isWordChar c) = true := by
    intro c other
    rw [isWordChar, other, Bool.not_false]
  induction h with
  | @nil gap other =>
    have alone := filter_splitWhere_gap (fun c hc => apart (other c hc)) []
    rw [List.append_nil] at alone
    rw [alone]
    rfl
  | @cons gap run rest runs other some word ends more ih =>
    have inside : ∀ c ∈ run, (!isWordChar c) = false := by
      intro c hc
      rw [isWordChar, word c hc, Bool.not_true]
    have kept : (!run.isEmpty) = true := by simpa using some
    rw [filter_splitWhere_gap fun c hc => apart (other c hc), ih]
    cases rest with
    | nil =>
      rw [List.append_nil, splitWhere_none inside, List.filter_cons, if_pos kept]
      rfl
    | cons sep rest =>
      have cut : (!isWordChar sep) = true := apart (ends sep rfl)
      rw [splitWhere_cons inside cut, List.filter_cons, if_pos kept, splitWhere, if_pos cut,
        List.filter_cons_of_neg (by simp)]

theorem Runs.words (h : Runs cs runs) : words cs = runs.map (List.map Char.toLower) := by
  rw [h.eq]
  rfl

theorem Runs.eq_nil_iff (h : Runs cs runs) : runs = [] ↔ ∀ c ∈ cs, c.isAlphanum = false := by
  cases h with
  | nil other => exact iff_of_true rfl other
  | @cons gap run rest runs other some word ends more =>
    obtain ⟨c, run, rfl⟩ := List.exists_cons_of_ne_nil some
    refine iff_of_false (List.cons_ne_nil _ _) fun none => ?_
    have letter := word c List.mem_cons_self
    rw [none c (by simp)] at letter
    cases letter

theorem runs_joinWith {groups : List (List Char)} (formed : ∀ g ∈ groups, IsGroup g) :
    Runs (joinWith '-' groups) groups := by
  induction groups with
  | nil => exact .nil nofun
  | cons group more ih =>
    obtain ⟨some, each⟩ := formed group List.mem_cons_self
    have word : ∀ c ∈ group, c.isAlphanum = true := fun c hc => isSlugChar_isWordChar (each c hc)
    have rest := ih fun g listed => formed g (List.mem_cons_of_mem _ listed)
    by_cases last : more = []
    · subst last
      have whole : Runs (group ++ []) [group] := .front some word nofun (.nil nofun)
      rwa [List.append_nil] at whole
    · rw [joinWith_cons '-' group last]
      refine .front some word ?_ (rest.skip (by decide))
      rintro _ ⟨rfl⟩
      decide

variable {d : Draft}

namespace Draft

theorem read_other (other : c.isAlphanum = false) : d.read c = ⟨d.written, true⟩ := by
  rw [read, other, if_neg Bool.false_ne_true]

theorem read_word (word : c.isAlphanum = true) (clear : d.due = false ∨ d.written = []) :
    d.read c = ⟨d.written ++ [c.toLower], false⟩ := by
  rcases clear with clear | clear <;> simp [read, word, clear]

theorem read_due (word : c.isAlphanum = true) (due : d.due = true) (some : d.written ≠ []) :
    d.read c = ⟨d.written ++ ['-', c.toLower], false⟩ := by
  simp [read, word, due, some]

theorem read_cases (d : Draft) (c : Char) :
    (d.read c).written = d.written ∨
      isSlugChar c.toLower = true ∧ ((d.read c).written = d.written ++ [c.toLower] ∨
        d.written ≠ [] ∧ (d.read c).written = d.written ++ ['-', c.toLower]) := by
  cases word : c.isAlphanum with
  | false => exact .inl (by rw [read_other word])
  | true =>
    refine .inr ⟨isSlugChar_toLower word, ?_⟩
    by_cases clear : d.due = false ∨ d.written = []
    · exact .inl (by rw [read_word word clear])
    · rw [not_or, Bool.not_eq_false] at clear
      exact .inr ⟨clear.2, by rw [read_due word clear.1 clear.2]⟩

theorem written_begins (d : Draft) (cs : List Char) : d.written <+: (cs.foldl read d).written := by
  induction cs generalizing d with
  | nil => exact List.prefix_rfl
  | cons c cs ih =>
    refine List.IsPrefix.trans ?_ (ih (d.read c))
    rcases read_cases d c with same | ⟨_, next | ⟨_, next⟩⟩
    · rw [same]
    · exact ⟨_, next.symm⟩
    · exact ⟨_, next.symm⟩

end Draft

theorem ne_dash (slug : isSlugChar c = true) : c ≠ '-' := by
  rintro rfl
  exact absurd slug (by decide)

theorem IsGroup.singleton (slug : isSlugChar c = true) : IsGroup [c] :=
  ⟨List.cons_ne_nil _ _, List.forall_mem_singleton.mpr slug⟩

theorem WellFormed.push (h : WellFormed cs) (slug : isSlugChar c = true) : WellFormed (cs ++ [c]) := by
  obtain ⟨groups, some, formed, rfl⟩ := h
  obtain ⟨front, last, rfl⟩ := (List.eq_nil_or_concat' groups).resolve_left some
  refine ⟨front ++ [last ++ [c]], by simp, ?_, (joinWith_append_last '-' front last [c]).symm⟩
  intro group listed
  rcases List.mem_append.mp listed with early | final
  · exact formed group (List.mem_append_left _ early)
  · obtain rfl := List.mem_singleton.mp final
    have grown := (formed last (by simp)).2
    refine ⟨by simp, fun d hd => ?_⟩
    rcases List.mem_append.mp hd with old | new
    · exact grown d old
    · rwa [List.mem_singleton.mp new]

theorem WellFormed.dash (h : WellFormed cs) (slug : isSlugChar c = true) :
    WellFormed (cs ++ ['-', c]) := by
  obtain ⟨groups, some, formed, rfl⟩ := h
  refine ⟨groups ++ [[c]], by simp, ?_, (joinWith_snoc '-' some [c]).symm⟩
  intro group listed
  rcases List.mem_append.mp listed with old | new
  · exact formed group old
  · rw [List.mem_singleton.mp new]
    exact .singleton slug

namespace Draft

/-- What holds of a draft at every step: what is written is a slug, and not longer than one that is
given may be until the last step, which may write two characters. -/
structure Sound (d : Draft) : Prop where
  formed : d.written = [] ∨ WellFormed d.written
  last : ∀ c ∈ d.written.getLast?, c ≠ '-'
  length : d.written.length ≤ maxLength + 1

theorem Sound.read (h : d.Sound) (short : d.written.length < maxLength) (c : Char) :
    (d.read c).Sound := by
  rcases read_cases d c with same | ⟨slug, next | ⟨some, next⟩⟩
  · constructor <;> rw [same]
    · exact h.formed
    · exact h.last
    · exact h.length
  · constructor <;> rw [next]
    · rcases h.formed with none | formed
      · rw [none]
        exact .inr ⟨[[c.toLower]], by simp, by simpa using .singleton slug, rfl⟩
      · exact .inr (formed.push slug)
    · simpa using ne_dash slug
    · rw [List.length_append, List.length_singleton]
      omega
  · constructor <;> rw [next]
    · exact .inr ((h.formed.resolve_left some).dash slug)
    · simpa using ne_dash slug
    · rw [List.length_append, List.length_cons, List.length_singleton]
      omega

theorem Sound.readAll (h : d.Sound) (short : d.written.length < maxLength) (cs : List Char) :
    (d.readAll cs).Sound := by
  induction cs generalizing d with
  | nil => exact h
  | cons c cs ih =>
    rw [Draft.readAll]
    split
    · exact h.read short c
    · rename_i more
      exact ih (h.read short c) (Nat.lt_of_not_le more)

end Draft

theorem cut_plain {front : List Char} (full : front.length + 1 = maxLength) (plain : c ≠ '-')
    (rest : List Char) : cut (front ++ [c] ++ rest) = front ++ [c] := by
  have place : (front ++ [c] ++ rest)[maxLength - 1]? = some c := by
    rw [← full, Nat.add_sub_cancel, List.append_assoc, List.getElem?_append_right (Nat.le_refl _),
      Nat.sub_self]
    rfl
  rw [cut, place, if_neg fun same => plain (Option.some.inj same)]
  exact List.take_left' (by rwa [List.length_append, List.length_singleton])

theorem cut_dash {front : List Char} (full : front.length + 1 = maxLength) (c : Char)
    (rest : List Char) : cut (front ++ ['-', c] ++ rest) = front ++ ['-', c] := by
  have place : (front ++ ['-', c] ++ rest)[maxLength - 1]? = some '-' := by
    rw [← full, Nat.add_sub_cancel, List.append_assoc, List.getElem?_append_right (Nat.le_refl _),
      Nat.sub_self]
    rfl
  rw [cut, if_pos place]
  exact List.take_left' (by rw [List.length_append, List.length_cons, List.length_singleton]; omega)

namespace Draft

/-- The step that writes enough writes what the cut leaves, whatever comes behind it. -/
theorem cut_read (short : d.written.length < maxLength)
    (full : maxLength ≤ (d.read c).written.length) {whole : List Char}
    (begun : (d.read c).written <+: whole) : cut whole = (d.read c).written := by
  obtain ⟨rest, rfl⟩ := begun
  rcases read_cases d c with same | ⟨slug, next | ⟨_, next⟩⟩
  · rw [same] at full
    omega
  · rw [next, List.length_append, List.length_singleton] at full
    rw [next]
    exact cut_plain (by omega) (ne_dash slug) rest
  · rw [next, List.length_append, List.length_cons, List.length_singleton] at full
    rw [next]
    by_cases early : d.written.length + 2 = maxLength
    · rw [List.append_cons]
      exact cut_plain (by rw [List.length_append, List.length_singleton]; omega) (ne_dash slug) rest
    · exact cut_dash (by omega) _ rest

theorem readAll_written (short : d.written.length < maxLength) (cs : List Char) :
    (d.readAll cs).written = cut (cs.foldl read d).written := by
  induction cs generalizing d with
  | nil => exact (cut_of_length_le (Nat.le_of_lt short)).symm
  | cons c cs ih =>
    rw [readAll, List.foldl_cons]
    split
    · rename_i full
      exact (cut_read short full (written_begins _ cs)).symm
    · rename_i more
      exact ih (Nat.lt_of_not_le more)

theorem foldl_gap (d : Draft) {gap : List Char} (other : ∀ c ∈ gap, c.isAlphanum = false) :
    gap.foldl read d = ⟨d.written, d.due || !gap.isEmpty⟩ := by
  induction gap generalizing d with
  | nil => simp
  | cons c gap ih =>
    rw [List.foldl_cons, read_other (other c List.mem_cons_self),
      ih _ fun c hc => other c (List.mem_cons_of_mem _ hc)]
    simp

theorem foldl_run (clear : d.due = false) {run : List Char}
    (word : ∀ c ∈ run, c.isAlphanum = true) :
    run.foldl read d = ⟨d.written ++ run.map Char.toLower, false⟩ := by
  induction run generalizing d with
  | nil => rw [List.foldl_nil, List.map_nil, List.append_nil, ← clear]
  | cons c run ih =>
    rw [List.foldl_cons, read_word (word c List.mem_cons_self) (.inl clear),
      ih rfl fun c hc => word c (List.mem_cons_of_mem _ hc), List.append_assoc]
    rfl

end Draft

theorem Runs.written_behind (h : Runs cs runs) (some : d.written ≠ [])
    (apart : d.due = true ∨ ∀ c ∈ cs.head?, c.isAlphanum = false) :
    (cs.foldl Draft.read d).written =
      joinWith '-' (d.written :: runs.map (List.map Char.toLower)) := by
  induction h generalizing d with
  | nil other =>
    rw [Draft.foldl_gap d other]
    rfl
  | @cons gap run rest runs other nonempty word ends more ih =>
    obtain ⟨c, run, rfl⟩ := List.exists_cons_of_ne_nil nonempty
    have first := word c List.mem_cons_self
    have due : (d.due || !gap.isEmpty) = true := by
      cases gap with
      | nil =>
        rcases apart with due | head
        · rw [due, Bool.true_or]
        · rw [head c rfl] at first
          cases first
      | cons _ _ => exact Bool.or_true _
    have begin : (⟨d.written, true⟩ : Draft).read c = ⟨d.written ++ ['-', c.toLower], false⟩ :=
      Draft.read_due first rfl some
    rw [List.foldl_append, List.foldl_append, Draft.foldl_gap d other, due, List.foldl_cons, begin,
      Draft.foldl_run rfl fun c hc => word c (List.mem_cons_of_mem _ hc), List.append_assoc]
    exact (ih (by simp) (.inr ends)).trans (joinWith_cons_cons '-' d.written _ _)

theorem Runs.written (h : Runs cs runs) : (cs.foldl Draft.read ⟨[], false⟩).written =
    joinWith '-' (runs.map (List.map Char.toLower)) := by
  cases h with
  | nil other =>
    rw [Draft.foldl_gap _ other]
    rfl
  | @cons gap run rest runs other nonempty word ends more =>
    obtain ⟨c, run, rfl⟩ := List.exists_cons_of_ne_nil nonempty
    rw [List.foldl_append, List.foldl_append, Draft.foldl_gap _ other, List.foldl_cons,
      Draft.read_word (word c List.mem_cons_self) (.inr rfl),
      Draft.foldl_run rfl fun c hc => word c (List.mem_cons_of_mem _ hc)]
    exact more.written_behind (by simp) (.inr ends)

end DiagramShare.Slug
