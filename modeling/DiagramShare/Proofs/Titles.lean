import DiagramShare.Proofs.Drafts

/-! Slugs of titles. One pass over a title writes its slug: the runs of letters and digits in the title,
in lower case and with single dashes between them. A title that is no longer than a slug may be has a
slug that is accepted; the slug of a longer title may be one character too long. -/
namespace DiagramShare.Slug

open DiagramShare.Text

variable {cs : List Char} {runs : List (List Char)} {title slug : String}

theorem written_eq (title : String) :
    (Draft.readAll ⟨[], false⟩ title.toList).written = cut (joinWith '-' (words title.toList)) := by
  obtain ⟨runs, parted⟩ := exists_runs title.toList
  rw [Draft.readAll_written (by decide), parted.written, parted.words]

theorem sound_pass (title : String) : (Draft.readAll ⟨[], false⟩ title.toList).Sound :=
  Draft.Sound.readAll ⟨.inl rfl, by simp, Nat.zero_le _⟩ (by decide) _

theorem cut_ne_nil (some : cs ≠ []) : cut cs ≠ [] := by
  rw [cut]
  split <;> simpa [maxLength] using some

theorem joinWith_words_ne_nil {title : List Char} (some : words title ≠ []) :
    joinWith '-' (words title) ≠ [] := by
  obtain ⟨word, more, list⟩ := List.exists_cons_of_ne_nil some
  have group := isGroup_of_mem_words (list ▸ List.mem_cons_self : word ∈ words title)
  rw [list]
  by_cases last : more = []
  · subst last
    exact group.1
  · rw [joinWith_cons '-' word last]
    exact List.append_ne_nil_of_left_ne_nil group.1 _

theorem ofTitle?_eq_ofPass? (title : String) : ofTitle? title = ofPass? title := by
  have last := (sound_pass title).last
  rw [written_eq] at last
  -- No dash is written without a letter or digit behind it, so none is taken off the end.
  have plain : stripEndWhere (· == '-') (cut (joinWith '-' (words title.toList))) =
      cut (joinWith '-' (words title.toList)) :=
    stripEndWhere_eq_self.mpr fun c final => beq_eq_false_iff_ne.mpr (last c final)
  simp only [ofPass?, written_eq, plain]
  rw [ofTitle?]
  split
  · rename_i none
    rw [none]
    rfl
  · rename_i some
    rw [if_neg (by simpa using cut_ne_nil (joinWith_words_ne_nil some))]

theorem ofTitle?_eq_some {title slug : String} (made : ofTitle? title = some slug) :
    slug.toList = cut (joinWith '-' (words title.toList)) ∧ WellFormed slug.toList ∧
      (∀ c ∈ slug.toList.getLast?, c ≠ '-') ∧ slug.utf8ByteSize ≤ maxLength + 1 := by
  have spelled : slug.toList = cut (joinWith '-' (words title.toList)) ∧ slug.toList ≠ [] := by
    rw [ofTitle?] at made
    split at made
    · cases made
    · rename_i some
      obtain rfl := Option.some.inj made
      rw [String.toList_ofList]
      exact ⟨rfl, cut_ne_nil (joinWith_words_ne_nil some)⟩
  obtain ⟨spelled, some⟩ := spelled
  obtain ⟨formed, last, length⟩ := sound_pass title
  rw [written_eq, ← spelled] at formed last length
  have formed := formed.resolve_left some
  refine ⟨spelled, formed, last, ?_⟩
  rwa [← String.ofList_toList (s := slug), formed.utf8ByteSize]

theorem WellFormed.trim {s : String} (formed : WellFormed s.toList) : trim s = s := by
  rw [Text.trim, strip, stripWhere_none, String.ofList_toList]
  intro c hc
  rcases formed.mem hc with rfl | slug
  · decide
  · exact forall_ascii (P := fun c => isSlugChar c = true → isBlank c = false) (by decide +kernel)
      (isWordChar_ascii (isSlugChar_isWordChar slug)) slug

theorem accept_ok {s : String} : accept s = .ok s ↔ IsSlug s := by
  constructor
  · intro accepted
    rw [accept] at accepted
    cases slug : isSlug (Text.trim s) with
    | false => simp [slug] at accepted
    | true =>
      have same : Text.trim s = s := by simpa [slug] using accepted
      rwa [same, isSlug_iff] at slug
  · intro slug
    simp [accept, slug.formed.trim, isSlug_iff.mpr slug]

theorem accept_wellFormed {s : String} (formed : WellFormed s.toList) :
    accept s = if s.utf8ByteSize ≤ maxLength then .ok s else .error s := by
  have slug : isSlug s = true ↔ s.utf8ByteSize ≤ maxLength :=
    isSlug_iff.trans ⟨IsSlug.short, fun short => ⟨short, formed⟩⟩
  simp only [accept, formed.trim, slug]

theorem IsGroup.lower {group : List Char} (h : IsGroup group) : group.map Char.toLower = group := by
  refine map_eq_self fun c hc => ?_
  exact forall_ascii (P := fun c => isSlugChar c = true → c.toLower = c) (by decide +kernel)
    (isWordChar_ascii (isSlugChar_isWordChar (h.2 c hc))) (h.2 c hc)

def lowered (run : List Char) : String := String.ofList (run.map Char.toLower)

theorem toList_lowered (runs : List (List Char)) :
    ("-".intercalate (runs.map lowered)).toList = joinWith '-' (runs.map (List.map Char.toLower)) := by
  have same : String.toList ∘ lowered = List.map Char.toLower :=
    funext fun run => String.toList_ofList
  rw [String.toList_intercalate, List.map_map, same, joinWith_eq]
  rfl

theorem lowered_injective {runs runs' : List (List Char)} :
    runs.map lowered = runs'.map lowered ↔
      runs.map (List.map Char.toLower) = runs'.map (List.map Char.toLower) := by
  have whole : ∀ runs : List (List Char),
      runs.map lowered = (runs.map (List.map Char.toLower)).map String.ofList :=
    fun runs => (List.map_map ..).symm
  rw [whole, whole]
  exact (List.map_injective_iff.mpr fun _ _ => String.ofList_injective).eq_iff

theorem Runs.ofTitle_eq (h : Runs title.toList runs) (short : title.length ≤ maxLength) :
    ofTitle? title = if runs = [] then none else some ("-".intercalate (runs.map lowered)) := by
  have spelled : String.ofList (joinWith '-' (runs.map (List.map Char.toLower))) =
      "-".intercalate (runs.map lowered) := by
    rw [← toList_lowered, String.ofList_toList]
  rw [ofTitle?]
  split
  · rename_i none
    rw [h.words, List.map_eq_nil_iff] at none
    rw [if_pos none]
  · rename_i some
    rw [cut_of_length_le (length_words_le some short)]
    rw [h.words, List.map_eq_nil_iff] at some
    rw [if_neg some, h.words, spelled]

theorem IsSlug.ofTitle_eq (h : IsSlug slug) : ofTitle? slug = some slug := by
  obtain ⟨groups, some, formed, joined⟩ := h.formed
  have parted : Runs slug.toList groups := joined ▸ runs_joinWith formed
  have lower : groups.map (List.map Char.toLower) = groups :=
    map_eq_self fun g listed => (formed g listed).lower
  rw [parted.ofTitle_eq h.length_le, if_neg some, ← String.ofList_toList
    (s := "-".intercalate (groups.map lowered)), toList_lowered, lower, ← joined, String.ofList_toList]

theorem Runs.intercalate_inj {cs' : List Char} {runs' : List (List Char)} (h : Runs cs runs)
    (h' : Runs cs' runs') (some : runs ≠ []) (some' : runs' ≠ []) :
    "-".intercalate (runs.map lowered) = "-".intercalate (runs'.map lowered) ↔
      runs.map lowered = runs'.map lowered := by
  have absent : ∀ {cs runs}, Runs cs runs →
      ∀ group ∈ runs.map (List.map Char.toLower), '-' ∉ group := by
    intro cs runs h group listed dash
    rw [← h.words] at listed
    exact ne_dash ((isGroup_of_mem_words listed).2 '-' dash) rfl
  constructor
  · intro same
    have joined := congrArg String.toList same
    rw [toList_lowered, toList_lowered] at joined
    have pieces := congrArg (splitWhere (· == '-')) joined
    rw [splitWhere_joinWith (absent h) (by simpa using some),
      splitWhere_joinWith (absent h') (by simpa using some')] at pieces
    exact lowered_injective.mpr pieces
  · intro same
    rw [same]

theorem utf8ByteSize_ofTitle? (made : ofTitle? title = some slug) (parted : Runs title.toList runs) :
    slug.utf8ByteSize = maxLength + 1 ↔
      ("-".intercalate (runs.map lowered)).toList[maxLength - 1]? = some '-' := by
  obtain ⟨spelled, formed, last, _⟩ := ofTitle?_eq_some made
  rw [toList_lowered, ← parted.words]
  generalize joinWith '-' (words title.toList) = joined at spelled
  have size : slug.utf8ByteSize = (cut joined).length := by
    rw [← spelled, ← formed.utf8ByteSize, String.ofList_toList]
  rw [size]
  by_cases dash : joined[maxLength - 1]? = some '-'
  · have filled : maxLength - 1 < joined.length := (List.getElem?_eq_some_iff.mp dash).1
    refine iff_of_true ?_ dash
    rw [cut, if_pos dash, List.length_take]
    refine Nat.min_eq_left (Nat.lt_of_le_of_ne (by omega) fun ends => ?_)
    rw [cut_of_length_le (Nat.le_of_eq ends.symm)] at spelled
    rw [spelled, List.getLast?_eq_getElem?, ← ends] at last
    exact last '-' dash rfl
  · refine iff_of_false ?_ dash
    rw [cut, if_neg dash, List.length_take]
    omega

/-- The slug of a title is groups of lower-case letters and digits with single dashes between them. It
is accepted when it is given in its turn, unless it is 256 characters long; that is so just where the
255th character of the title's joined runs is a dash, and never for a title of up to 255 characters. -/
theorem ofTitle?_accept (made : ofTitle? title = some slug) (parted : Runs title.toList runs) :
    WellFormed slug.toList ∧ slug.utf8ByteSize ≤ 256 ∧
      (accept slug = if slug.utf8ByteSize ≤ 255 then .ok slug else .error slug) ∧
      (slug.utf8ByteSize = 256 ↔ ("-".intercalate (runs.map lowered)).toList[254]? = some '-') ∧
      (title.length ≤ 255 → accept slug = .ok slug) := by
  obtain ⟨_, formed, _, length⟩ := ofTitle?_eq_some made
  refine ⟨formed, length, accept_wellFormed formed, utf8ByteSize_ofTitle? made parted, ?_⟩
  exact fun short => accept_ok.mpr (ofTitle_isSlug made short)

def overfull (between : Char) : String := String.ofList (List.replicate 254 'a' ++ [between, 'b'])

theorem runs_overfull {between : Char} (other : between.isAlphanum = false) :
    Runs (overfull between).toList [List.replicate 254 'a', ['b']] := by
  have word : ∀ c ∈ List.replicate 254 'a', c.isAlphanum = true := by
    intro c hc
    rw [List.eq_of_mem_replicate hc]
    rfl
  have last : Runs (['b'] ++ []) [['b']] := .front (by simp) (by simp) nofun (.nil nofun)
  rw [overfull, String.toList_ofList]
  refine .front (List.cons_ne_nil 'a' (List.replicate 253 'a')) word ?_ (last.skip other)
  rintro _ ⟨rfl⟩
  exact other

theorem ofTitle?_overfull : ofTitle? (overfull ' ') = some (overfull '-') := by
  have spelled : words (overfull ' ').toList = [List.replicate 254 'a', ['b']] := by
    rw [(runs_overfull rfl).words, List.map_cons, List.map_replicate]
    rfl
  have whole : cut (joinWith '-' [List.replicate 254 'a', ['b']]) =
      List.replicate 254 'a' ++ ['-', 'b'] := by
    decide +kernel
  rw [ofTitle?, spelled]
  exact congrArg (fun cs => some (String.ofList cs)) whole

theorem size_overfull : (overfull '-').utf8ByteSize = 256 := by
  obtain ⟨_, formed, _⟩ := ofTitle?_eq_some ofTitle?_overfull
  have size := formed.utf8ByteSize
  rw [overfull, String.toList_ofList] at size
  rw [overfull, size, List.length_append, List.length_replicate]
  rfl

theorem overfull_rejected :
    ¬ ∀ title slug : String, ofTitle? title = some slug → accept slug = .ok slug := by
  intro all
  obtain ⟨short, _⟩ := accept_ok.mp (all _ _ ofTitle?_overfull)
  rw [size_overfull] at short
  exact absurd short (by decide)

/-- Of the slugs of these titles, the first is accepted and the second is not. -/
theorem overfull_accept : accept "api-v2-draft" = .ok "api-v2-draft" ∧
    ("-".intercalate ([List.replicate 254 'a', ['b']].map lowered)).toList[254]? = some '-' ∧
    accept (overfull '-') = .error (overfull '-') := by
  have parted : Runs "  API -- v2 (draft)!".toList ["API".toList, "v2".toList, "draft".toList] := by
    obtain ⟨runs, parted⟩ := exists_runs "  API -- v2 (draft)!".toList
    have list : runs = ["API".toList, "v2".toList, "draft".toList] := by
      rw [parted.eq]
      decide
    rwa [list] at parted
  have made : ofTitle? "  API -- v2 (draft)!" = some "api-v2-draft" := by decide
  obtain ⟨_, _, _, _, short⟩ := ofTitle?_accept made parted
  obtain ⟨_, _, accepts, long, _⟩ := ofTitle?_accept ofTitle?_overfull (runs_overfull rfl)
  rw [size_overfull] at accepts
  exact ⟨short (by decide), long.mp size_overfull, accepts⟩

theorem Runs.ofTitle_eq_none (h : Runs title.toList runs) : ofTitle? title = none ↔ runs = [] := by
  rw [ofTitle?, h.words]
  cases runs <;> simp

/-- The slug of a title is what one pass over it writes. For a title of up to 255 characters that is its
runs of letters and digits, each as long as can be, in order, in lower case and with single dashes
between them, or nothing if it has no such run; two such titles have one slug just where their runs in
lower case agree, and a title that would be accepted as a slug keeps itself. -/
theorem ofTitle?_runs (title : String) :
    ofTitle? title = ofPass? title ∧ (∃! runs, Runs title.toList runs) ∧
      (ofTitle? title = none ↔ ∀ c ∈ title.toList, c.isAlphanum = false) ∧
      (accept title = .ok title → ofTitle? title = some title) ∧
      ∀ runs, Runs title.toList runs → title.length ≤ 255 →
        ((∃ c ∈ title.toList, c.isAlphanum = true) →
          ofTitle? title = some ("-".intercalate (runs.map lowered))) ∧
        ∀ title' runs', Runs title'.toList runs' → title'.length ≤ 255 →
          (ofTitle? title = ofTitle? title' ↔ runs.map lowered = runs'.map lowered) := by
  obtain ⟨parts, parted⟩ := exists_runs title.toList
  refine ⟨ofTitle?_eq_ofPass? title, ⟨parts, parted, fun runs h => h.eq.trans parted.eq.symm⟩,
    parted.ofTitle_eq_none.trans parted.eq_nil_iff, fun accepted => (accept_ok.mp accepted).ofTitle_eq,
    fun runs h short => ⟨?_, ?_⟩⟩
  · rintro ⟨c, inside, word⟩
    have some : runs ≠ [] := by
      intro none
      rw [h.eq_nil_iff.mp none c inside] at word
      cases word
    rw [h.ofTitle_eq short, if_neg some]
  · intro title' runs' h' short'
    rw [h.ofTitle_eq short, h'.ofTitle_eq short']
    by_cases some : runs = [] <;> by_cases some' : runs' = []
    · simp [some, some']
    · simp [some, some', eq_comm]
    · simp [some, some']
    · rw [if_neg some, if_neg some', Option.some_inj, h.intercalate_inj h' some some']

/-- Two titles with one slug, and a title that is a slug. -/
theorem draft_runs :
    ofTitle? "  API -- v2 (draft)!" = some "api-v2-draft" ∧
      ofTitle? "api V2: Draft" = ofTitle? "  API -- v2 (draft)!" ∧
      ofPass? "api-v2-draft" = some "api-v2-draft" := by
  obtain ⟨_, ⟨runs, parted, _⟩, _, _, spelled⟩ := ofTitle?_runs "  API -- v2 (draft)!"
  obtain ⟨_, ⟨runs', parted', _⟩, _, _, spelled'⟩ := ofTitle?_runs "api V2: Draft"
  obtain ⟨pass, _, _, keeps, _⟩ := ofTitle?_runs "api-v2-draft"
  have list : runs = ["API".toList, "v2".toList, "draft".toList] := by
    rw [parted.eq]
    decide
  have list' : runs' = ["api".toList, "V2".toList, "Draft".toList] := by
    rw [parted'.eq]
    decide
  subst list list'
  refine ⟨((spelled _ parted (by decide)).1 ⟨'A', by decide, rfl⟩).trans (by decide), ?_, ?_⟩
  · exact ((spelled' _ parted' (by decide)).2 _ _ parted (by decide)).mpr (by decide)
  · rw [← pass]
    exact keeps (by decide)

end DiagramShare.Slug
