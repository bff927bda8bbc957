import DiagramShare.Proofs.Texts
import DiagramShare.Storage.Local

/-! Keys of attachments. The key of an attachment is a folder for the document and one segment for
the file name; whether it is accepted depends on the segment and on the length of the whole. -/
namespace DiagramShare.Text

theorem splitWhere_cons {p : α → Bool} {as : List α} {sep : α} (none : ∀ a ∈ as, p a = false)
    (cut : p sep = true) (rest : List α) :
    splitWhere p (as ++ sep :: rest) = as :: splitWhere p rest := by
  induction as with
  | nil => rw [List.nil_append, splitWhere, if_pos cut]
  | cons a as ih =>
    rw [List.cons_append, splitWhere, ih fun b hb => none b (List.mem_cons_of_mem _ hb), if_neg]
    rw [none a List.mem_cons_self]
    exact Bool.false_ne_true

theorem splitWhere_none {p : α → Bool} {as : List α} (none : ∀ a ∈ as, p a = false) :
    splitWhere p as = [as] := by
  induction as with
  | nil => rfl
  | cons a as ih =>
    rw [splitWhere, ih fun b hb => none b (List.mem_cons_of_mem _ hb), if_neg]
    rw [none a List.mem_cons_self]
    exact Bool.false_ne_true

theorem map_eq_self {f : α → α} {as : List α} (same : ∀ a ∈ as, f a = a) : as.map f = as :=
  (List.map_congr_left same).trans (List.map_id as)

theorem stripWhere_prefix (p : Char → Bool) (cs : List Char) :
    stripWhere p cs <+: cs.dropWhile p := by
  have tail := List.dropWhile_suffix p (l := (cs.dropWhile p).reverse)
  rw [← List.reverse_prefix, List.reverse_reverse] at tail
  exact tail

theorem head_stripWhere {p : Char → Bool} {cs : List Char} {c : Char}
    (first : (stripWhere p cs).head? = some c) : p c = false := by
  obtain ⟨rest, split⟩ := stripWhere_prefix p cs
  have head : (cs.dropWhile p).head? = some c := by
    rw [← split, List.head?_append, first]
    rfl
  have kept := List.head?_dropWhile_not p cs
  rw [head] at kept
  simpa using kept

theorem getLast_stripEndWhere {p : Char → Bool} {cs : List Char} {c : Char}
    (last : (stripEndWhere p cs).getLast? = some c) : p c = false := by
  have kept := List.head?_dropWhile_not p cs.reverse
  rw [stripEndWhere, List.getLast?_reverse] at last
  rw [last] at kept
  simpa using kept

theorem stripEndWhere_eq_self {p : Char → Bool} {cs : List Char} :
    stripEndWhere p cs = cs ↔ ∀ c ∈ cs.getLast?, p c = false := by
  constructor
  · intro same c last
    rw [← same] at last
    exact getLast_stripEndWhere last
  · intro kept
    rw [stripEndWhere, List.reverse_eq_iff]
    cases last : cs.reverse with
    | nil => rfl
    | cons c rest =>
      have stays : p c = false := kept c (by rw [← List.head?_reverse, last]; rfl)
      rw [List.dropWhile_cons_of_neg (by simp [stays])]

theorem stripWhere_of_head {p : Char → Bool} {cs : List Char} (first : ∀ c ∈ cs.head?, p c = false) :
    stripWhere p cs = stripEndWhere p cs := by
  cases cs with
  | nil => rfl
  | cons c rest => rw [stripWhere, List.dropWhile_cons_of_neg (by simp [first c rfl]), stripEndWhere]

theorem utf8ByteSize_of_ascii {cs : List Char} (ascii : ∀ c ∈ cs, c.utf8Size = 1) :
    (String.ofList cs).utf8ByteSize = cs.length := by
  induction cs with
  | nil => rfl
  | cons c cs ih =>
    rw [String.ofList_cons, String.utf8ByteSize_append, String.utf8ByteSize_singleton,
      ascii c List.mem_cons_self, ih fun d hd => ascii d (List.mem_cons_of_mem _ hd),
      List.length_cons, Nat.add_comm]

theorem hexDigits_go {P : Char → Prop} (digit : ∀ n < 16, P (hexDigit n)) (steps : Nat) {n k : Nat}
    (acc : List Char) (few : n < Nat.pow 16 (k + 1)) (all : ∀ c ∈ acc, P c) :
    (hexDigits.go steps n acc).length ≤ acc.length + (k + 1) ∧
      ∀ c ∈ hexDigits.go steps n acc, P c := by
  induction steps generalizing n k acc with
  | zero => exact ⟨Nat.le_add_right _ _, all⟩
  | succ steps ih =>
    have longer : ∀ c ∈ hexDigit (n % 16) :: acc, P c :=
      List.forall_mem_cons.mpr ⟨digit _ (Nat.mod_lt _ (by decide)), all⟩
    rw [hexDigits.go]
    split
    · exact ⟨by rw [List.length_cons]; omega, longer⟩
    · rename_i more
      cases k with
      | zero => exact absurd few more
      | succ k =>
        have more : Nat.pow 16 (k + 1 + 1) = Nat.pow 16 (k + 1) * 16 := rfl
        obtain ⟨length, all⟩ := ih (k := k) (n := n / 16) _ (by omega) longer
        rw [List.length_cons] at length
        exact ⟨by omega, all⟩

end DiagramShare.Text

namespace DiagramShare.Storage.Key

open DiagramShare.Text

structure IsSegment (cs : List Char) : Prop where
  nonempty : cs ≠ []
  single : ∀ c ∈ cs, c ≠ '/'
  shown : cs.head? ≠ some '.'

theorem segment_kept {name : String} {c : Char} (h : c ∈ (segment name).toList) :
    isReplaced c = false := by
  rw [segment] at h
  generalize trimmed_eq : stripWhere _ _ = trimmed at h
  split at h
  · have plain : unnamed.toList.all (fun c => !isReplaced c) = true := by decide
    simpa using List.all_eq_true.mp plain c h
  · rw [String.toList_ofList] at h
    have inside := stripWhere_subset _ _ (trimmed_eq.symm ▸ List.mem_of_mem_take h)
    obtain ⟨d, _, rfl⟩ := List.mem_map.mp inside
    by_cases replaced : isReplaced d = true
    · rw [if_pos replaced]
      decide
    · rw [if_neg replaced]
      exact Bool.not_eq_true _ ▸ replaced

theorem segment_isSegment (name : String) : IsSegment (segment name).toList := by
  have single : ∀ c ∈ (segment name).toList, c ≠ '/' := by
    rintro c kept rfl
    exact absurd (segment_kept kept) (by decide)
  revert single
  rw [segment]
  generalize trimmed_eq : stripWhere _ _ = trimmed
  split
  · exact fun single => ⟨by decide, single, by decide⟩
  · rename_i some
    rw [String.toList_ofList]
    refine fun single => ⟨?_, single, ?_⟩
    · intro nothing
      rcases List.take_eq_nil_iff.mp nothing with zero | nothing
      · exact absurd zero (by decide)
      · exact some (nothing ▸ rfl)
    · intro dot
      rw [List.head?_take, if_neg (by decide), ← trimmed_eq] at dot
      exact absurd (head_stripWhere dot) (by decide)

theorem of_digit {P : Char → Bool} (all : ∀ n ∈ List.range' 48 10, P (Char.ofNat n) = true)
    {c : Char} (digit : c.isDigit = true) : P c = true := by
  have among : c.toNat ∈ List.range' 48 10 := by
    simp only [Char.isDigit, Bool.and_eq_true, decide_eq_true_eq, UInt32.le_iff_toNat_le] at digit
    rw [List.mem_range'_1]
    exact ⟨digit.1, Nat.lt_succ_of_le digit.2⟩
  rw [← Char.ofNat_toNat c]
  exact all _ among

theorem mem_toString {k : Int} {c : Char} (h : c ∈ (toString k).toList) :
    c.isDigit = true ∨ c = '-' := by
  have digits : ∀ {n : Nat}, c ∈ n.repr.toList → c.isDigit = true := by
    intro n hc
    rw [Nat.toList_repr] at hc
    exact Nat.isDigit_of_mem_toDigits (by decide) (by decide) hc
  cases k with
  | ofNat n => exact .inl (digits h)
  | negSucc n =>
    have h : c ∈ ("-" ++ (n + 1).repr).toList := h
    rw [String.toList_append, List.mem_append] at h
    rcases h with h | h
    · exact .inr (List.mem_singleton.mp h)
    · exact .inl (digits h)

theorem not_mem_toString {k : Int} {c : Char} (digit : c.isDigit = false) (minus : c ≠ '-') :
    c ∉ (toString k).toList := fun h => by
  rcases mem_toString h with is | is
  · exact absurd is (by rw [digit]; exact Bool.false_ne_true)
  · exact minus is

theorem toString_ne_nil (k : Int) : (toString k).toList ≠ [] := by
  have digits : ∀ {n : Nat}, n.repr.toList ≠ [] := by
    intro n
    rw [Nat.toList_repr]
    exact Nat.toDigits_ne_nil
  cases k with
  | ofNat n => exact digits
  | negSucc n =>
    change ("-" ++ (n + 1).repr).toList ≠ []
    rw [String.toList_append]
    exact List.append_ne_nil_of_right_ne_nil _ digits

def Fits64 (k : Int) : Prop := -9223372036854775808 ≤ k ∧ k ≤ 9223372036854775807

theorem utf8ByteSize_toString_le {k : Int} (fits : Fits64 k) : (toString k).utf8ByteSize ≤ 21 := by
  have size : (toString k).utf8ByteSize = (toString k).toList.length := by
    have ascii : ∀ c ∈ (toString k).toList, c.utf8Size = 1 := by
      intro c hc
      rcases mem_toString hc with digit | rfl
      · exact beq_iff_eq.mp (of_digit (P := fun c => c.utf8Size == 1) (by decide) digit)
      · rfl
    rw [← utf8ByteSize_of_ascii ascii, String.ofList_toList]
  have digits : ∀ n ≤ 9223372036854775808, n.repr.toList.length ≤ 20 := by
    intro n few
    rw [Nat.toList_repr, Nat.length_toDigits_le_iff (by decide) (by decide)]
    omega
  rw [size]
  cases k with
  | ofNat n =>
    have most : n ≤ 9223372036854775808 := by
      have upper := fits.2
      rw [Int.ofNat_eq_natCast] at upper
      omega
    exact Nat.le_succ_of_le (digits n most)
  | negSucc n =>
    change ("-" ++ (n + 1).repr).toList.length ≤ 21
    rw [String.toList_append, List.length_append]
    have most : n + 1 ≤ 9223372036854775808 := by
      have lower := fits.1
      omega
    exact Nat.add_le_add (Nat.le_refl 1) (digits (n + 1) most)

theorem isTooLong_toString {k : Int} (fits : Fits64 k) : Disk.isTooLong (toString k) = false := by
  have size := utf8ByteSize_toString_le fits
  rw [Disk.isTooLong, decide_eq_false_iff_not, maxName]
  omega

theorem occursIn_append {c : Char} {part as rest : List Char} (absent : ∀ a ∈ as, a ≠ c) :
    occursIn (c :: part) (as ++ rest) = occursIn (c :: part) rest := by
  induction as with
  | nil => rfl
  | cons a as ih =>
    have other : c ≠ a := (absent a List.mem_cons_self).symm
    have elsewhere : dropStart? (c :: part) (a :: (as ++ rest)) = none := by
      rw [dropStart?, if_neg (by simpa using other)]
    rw [occursIn, List.cons_append, breakOn?, elsewhere, Option.isSome_map]
    exact ih fun b hb => absent b (List.mem_cons_of_mem _ hb)

def isQuiet (c : Char) : Bool := c.toLower != '\\' && c.toLower != '%' && !isControl c

theorem isDangerous_append {as : List Char} (quiet : ∀ a ∈ as, isQuiet a = true)
    (rest : List Char) : isDangerous (as ++ rest) = isDangerous rest := by
  have lower : ∀ c : Char, (∀ a ∈ as, a.toLower ≠ c) → ∀ a ∈ as.map Char.toLower, a ≠ c := by
    intro c absent a ha
    obtain ⟨b, hb, rfl⟩ := List.mem_map.mp ha
    exact absent b hb
  have slash := lower '\\' fun a ha => by have := quiet a ha; simp_all [isQuiet]
  have percent := lower '%' fun a ha => by have := quiet a ha; simp_all [isQuiet]
  have controls : as.any isControl = false := by
    refine List.any_eq_false.mpr fun a ha => ?_
    have := quiet a ha
    simp_all [isQuiet]
  rw [isDangerous, isDangerous, List.map_append, List.any_append, controls, Bool.false_or]
  simp only [dangerousSpellings, List.any_cons, List.any_nil, occursIn_append slash,
    occursIn_append percent]

theorem isQuiet_toString {k : Int} {c : Char} (h : c ∈ (toString k).toList) :
    isQuiet c = true := by
  rcases mem_toString h with digit | rfl
  · exact of_digit (by decide) digit
  · decide

def root : String := "documents"

theorem toList_ofAsset (document : Int) (name : String) : (ofAsset document name).toList =
    root.toList ++ '/' :: ((toString document).toList ++ '/' :: (segment name).toList) := by
  change ("documents/" ++ toString document ++ "/" ++ segment name).toList = _
  rw [String.toList_append, String.toList_append, String.toList_append, List.append_assoc,
    List.append_assoc]
  rfl

theorem utf8ByteSize_ofAsset (document : Int) (name : String) :
    (ofAsset document name).utf8ByteSize =
      11 + (toString document).utf8ByteSize + (segment name).utf8ByteSize := by
  change ("documents/" ++ toString document ++ "/" ++ segment name).utf8ByteSize = _
  simp only [String.utf8ByteSize_append]
  change 10 + _ + 1 + _ = _
  omega

theorem pieces_ofAsset (document : Int) (name : String) : pieces (ofAsset document name).toList =
    [root.toList, (toString document).toList, (segment name).toList] := by
  rw [toList_ofAsset, pieces, splitWhere_cons (by simp [root]) (by decide),
    splitWhere_cons ?_ (by decide), splitWhere_none ?_]
  · exact fun c hc => by simpa using (segment_isSegment name).single c hc
  · intro c hc
    have other : c ≠ '/' := fun same => not_mem_toString (by decide) (by decide) (same ▸ hc)
    simpa using other

theorem segments_ofAsset (document : Int) (name : String) :
    segments (ofAsset document name).toList =
      [root.toList, (toString document).toList, (segment name).toList] := by
  have segment := segment_isSegment name
  rw [segments, pieces_ofAsset, List.filter_eq_self]
  intro piece among
  rw [Bool.and_eq_true, Bool.not_eq_true', List.isEmpty_eq_false_iff, bne_iff_ne]
  simp only [List.mem_cons, List.not_mem_nil, or_false] at among
  rcases among with rfl | rfl | rfl
  · decide
  · refine ⟨toString_ne_nil document, fun dot => ?_⟩
    exact not_mem_toString (k := document) (c := '.') (by decide) (by decide) (by rw [dot]; decide)
  · refine ⟨segment.nonempty, fun dot => segment.shown ?_⟩
    rw [dot]
    rfl

theorem isDangerous_ofAsset (document : Int) (name : String) :
    isDangerous (ofAsset document name).toList = isDangerous (segment name).toList := by
  have apart : root.toList ++ '/' :: ((toString document).toList ++ '/' :: (segment name).toList)
      = (root.toList ++ '/' :: ((toString document).toList ++ ['/'])) ++ (segment name).toList := by
    simp only [List.append_assoc, List.cons_append, List.nil_append]
  rw [toList_ofAsset, apart]
  refine isDangerous_append (fun a ha => ?_) _
  simp only [List.mem_append, List.mem_cons, List.not_mem_nil, or_false] at ha
  rcases ha with first | rfl | number | rfl
  · exact List.all_eq_true.mp (by decide) a first
  · decide
  · exact isQuiet_toString number
  · decide

theorem normalize_ofAsset (document : Int) (name : String) :
    normalize (ofAsset document name) =
      if maxBytes < (ofAsset document name).utf8ByteSize then .error .tooLong
      else if isDangerous (segment name).toList then .error (.dangerous (ofAsset document name))
      else .ok (ofAsset document name) := by
  have start : (ofAsset document name).toList = 'd' :: (ofAsset document name).toList.tail := by
    rw [toList_ofAsset]
    rfl
  have some : (ofAsset document name).toList.isEmpty = false := by rw [start]; rfl
  have relative : ((ofAsset document name).toList.head? == Option.some '/') = false := by
    rw [start]
    rfl
  have downward : (pieces (ofAsset document name).toList).contains ['.', '.'] = false := by
    rw [← Bool.not_eq_true, List.contains_iff_mem, pieces_ofAsset]
    simp only [List.mem_cons, List.not_mem_nil, or_false, not_or]
    refine ⟨by decide, fun dots => ?_, fun dots => ?_⟩
    · exact not_mem_toString (k := document) (c := '.') (by decide) (by decide)
        (by rw [← dots]; decide)
    · exact (segment_isSegment name).shown (by rw [← dots]; rfl)
  have whole : String.ofList (joinWith '/' (segments (ofAsset document name).toList)) =
      ofAsset document name := by
    rw [segments_ofAsset, ← String.toList_inj, String.toList_ofList, toList_ofAsset]
    rfl
  simp only [normalize, some, relative, downward, isDangerous_ofAsset, whole, Bool.false_eq_true,
    if_false]
  rw [segments_ofAsset]
  rfl

theorem pathOf_ofAsset (document : Int) (name : String) :
    Local.pathOf (ofAsset document name) = [root, toString document, segment name] := by
  rw [Local.pathOf, pieces_ofAsset]
  simp only [List.map_cons, List.map_nil, String.ofList_toList]

end DiagramShare.Storage.Key

namespace DiagramShare.Storage.Local

open DiagramShare.Text

theorem tag_digits {P : Char → Prop} (digit : ∀ n < 16, P (hexDigit n)) (n : Nat) :
    (tag n).toList.length = 16 ∧ ∀ c ∈ (tag n).toList, P c := by
  have few : n % 18446744073709551616 < Nat.pow 16 (15 + 1) := Nat.mod_lt _ (by decide)
  obtain ⟨length, all⟩ := hexDigits_go digit (n % 18446744073709551616 + 1) [] few
    (List.forall_mem_nil _)
  rw [tag, hexDigits, String.toList_ofList]
  generalize hexDigits.go _ _ _ = digits at length all ⊢
  constructor
  · rw [List.length_append, List.length_replicate]
    rw [List.length_nil] at length
    omega
  · intro c hc
    rcases List.mem_append.mp hc with zero | other
    · rw [List.eq_of_mem_replicate zero]
      exact digit 0 (by decide)
    · exact all c other

theorem utf8ByteSize_tag (n : Nat) : (tag n).utf8ByteSize = 16 := by
  obtain ⟨length, ascii⟩ := tag_digits (P := fun c => c.utf8Size = 1) (by decide) n
  rw [← length, ← utf8ByteSize_of_ascii ascii, String.ofList_toList]

theorem utf8ByteSize_stagingName (name : String) (n : Nat) :
    (stagingName name n).utf8ByteSize = name.utf8ByteSize + 23 := by
  change ("." ++ name ++ "." ++ tag n ++ ".part").utf8ByteSize = _
  simp only [String.utf8ByteSize_append, utf8ByteSize_tag]
  change 1 + name.utf8ByteSize + 1 + 16 + 5 = _
  omega

theorem head_stagingName (name : String) (n : Nat) :
    (stagingName name n).toList.head? = some '.' := by
  change ("." ++ name ++ "." ++ tag n ++ ".part").toList.head? = _
  simp only [String.toList_append]
  rfl

end DiagramShare.Storage.Local
