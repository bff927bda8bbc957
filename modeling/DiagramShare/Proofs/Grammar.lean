import DiagramShare.Proofs.Spellings
import Mathlib.Data.List.Infix

/-! The grammar of keys. Which texts are keys is said here of the parts between slashes, in the words
of the standard library; a key is accepted just when it is one of these texts, and what is made of it
are its names with single slashes between them. Put behind any root, that leads below the root. -/
namespace DiagramShare.Storage.Key

open DiagramShare.Text

def parts (path : String) : List String := (path.toList.splitOn '/').map String.ofList

/-- The parts that name something: neither empty nor a single dot. -/
def names (path : String) : List String :=
  (parts path).filter fun part => part ≠ "" ∧ part ≠ "."

/-- Percent-encoded spellings of NUL, dot, slash and backslash, in lower case. -/
def disguises : List String := ["%00", "%2e", "%2f", "%5c"]

/-- The texts that are keys. -/
structure IsKey (key : String) : Prop where
  nonempty : key ≠ ""
  short : key.utf8ByteSize ≤ 1024
  relative : key.toList.head? ≠ some '/'
  forward : '\\' ∉ key.toList
  printable : ∀ c ∈ key.toList, ¬ (c.toNat < 0x20 ∨ (0x7F ≤ c.toNat ∧ c.toNat < 0xA0))
  plain : ∀ word, word <:+: key.toList → String.ofList (word.map Char.toLower) ∉ disguises
  downward : ".." ∉ parts key
  named : 1 ≤ (names key).length
  shallow : (names key).length ≤ 16

theorem parts_eq (path : String) : parts path = (pieces path.toList).map String.ofList := by
  rw [parts, pieces, splitWhere_eq, List.splitOn_eq_splitOnP]

theorem names_eq (path : String) : names path = (segments path.toList).map String.ofList := by
  have counts : ∀ piece : List Char,
      decide (String.ofList piece ≠ "" ∧ String.ofList piece ≠ ".") =
        (!piece.isEmpty && piece != ['.']) := by
    intro piece
    have none : String.ofList piece = "" ↔ piece = [] := String.ofList_eq_empty_iff
    have dot : String.ofList piece = "." ↔ piece = ['.'] := by
      rw [← String.toList_inj, String.toList_ofList]
      rfl
    rw [Bool.eq_iff_iff]
    simp [none, dot]
  rw [names, parts_eq, List.filter_map, segments]
  congr 1
  exact List.filter_congr fun piece _ => counts piece

theorem length_names (path : String) : (names path).length = (segments path.toList).length := by
  rw [names_eq, List.length_map]

theorem mem_parts {path : String} {piece : List Char} :
    String.ofList piece ∈ parts path ↔ piece ∈ pieces path.toList := by
  rw [parts_eq]
  exact List.mem_map_of_injective fun _ _ => String.ofList_injective

theorem toLower_backslash {c : Char} : c.toLower = '\\' ↔ c = '\\' := by
  constructor
  · intro lower
    unfold Char.toLower at lower
    split at lower
    · rename_i upper
      have low : (65 : Nat) ≤ c.val.toNat := UInt32.le_iff_toNat_le.mp upper.1
      have sum := congrArg UInt32.toNat (congrArg Char.val lower)
      have high : c.val.toNat ≤ 90 := UInt32.le_iff_toNat_le.mp upper.2
      have shift : ('a'.val - 'A'.val).toNat = 32 := rfl
      have code : ('\\' : Char).val.toNat = 92 := rfl
      rw [UInt32.toNat_add, shift, code] at sum
      omega
    · exact lower
  · rintro rfl
    rfl

theorem occursIn_lower {cs spelling : List Char} :
    occursIn spelling (cs.map Char.toLower) = true ↔
      ∃ word, word <:+: cs ∧ word.map Char.toLower = spelling := by
  simp only [occursIn, breakOn?_isSome, List.infix_map_iff, eq_comm (a := spelling)]

theorem occursIn_backslash {cs : List Char} :
    occursIn ['\\'] (cs.map Char.toLower) = true ↔ '\\' ∈ cs := by
  rw [occursIn, breakOn?_isSome, List.singleton_infix_iff, List.mem_map]
  simp only [toLower_backslash, exists_eq_right]

theorem isControl_iff {c : Char} :
    isControl c = true ↔ c.toNat < 0x20 ∨ (0x7F ≤ c.toNat ∧ c.toNat < 0xA0) := by
  simp [isControl]

theorem harmless_iff {cs : List Char} : isDangerous cs = false ↔
    '\\' ∉ cs ∧ (∀ c ∈ cs, ¬ (c.toNat < 0x20 ∨ (0x7F ≤ c.toNat ∧ c.toNat < 0xA0))) ∧
      ∀ word, word <:+: cs → String.ofList (word.map Char.toLower) ∉ disguises := by
  have spellings : (dangerousSpellings.any fun part => occursIn part (cs.map Char.toLower)) = true ↔
      '\\' ∈ cs ∨ ∃ word, word <:+: cs ∧ String.ofList (word.map Char.toLower) ∈ disguises := by
    have listed : dangerousSpellings = ['\\'] :: disguises.map String.toList := by decide
    rw [listed, List.any_cons, Bool.or_eq_true, occursIn_backslash, List.any_eq_true]
    refine or_congr_right ⟨?_, ?_⟩
    · rintro ⟨_, among, occurs⟩
      obtain ⟨spelling, disguise, rfl⟩ := List.mem_map.mp among
      obtain ⟨word, inside, lower⟩ := occursIn_lower.mp occurs
      refine ⟨word, inside, ?_⟩
      rwa [lower, String.ofList_toList]
    · rintro ⟨word, inside, disguise⟩
      refine ⟨_, List.mem_map_of_mem disguise, occursIn_lower.mpr ⟨word, inside, ?_⟩⟩
      rw [String.toList_ofList]
  rw [← Bool.not_eq_true, isDangerous, Bool.or_eq_true, spellings, List.any_eq_true, not_or, not_or,
    and_assoc]
  simp only [isControl_iff, not_exists, not_and]
  exact and_congr_right fun _ => and_comm

theorem isKey_iff {key : String} : IsKey key ↔ Acceptable key.toList := by
  have counted : 1 ≤ (segments key.toList).length ↔ segments key.toList ≠ [] := List.length_pos_iff
  constructor
  · rintro ⟨nonempty, short, relative, forward, printable, plain, downward, named, shallow⟩
    rw [length_names] at named shallow
    exact ⟨mt String.toList_eq_nil_iff.mp nonempty, by rwa [String.ofList_toList], relative,
      harmless_iff.mpr ⟨forward, printable, plain⟩, mt mem_parts.mpr downward, counted.mp named,
      shallow⟩
  · rintro ⟨nonempty, short, relative, harmless, downward, named, shallow⟩
    obtain ⟨forward, printable, plain⟩ := harmless_iff.mp harmless
    rw [String.ofList_toList] at short
    refine ⟨mt String.toList_eq_nil_iff.mpr nonempty, short, relative, forward, printable, plain,
      mt mem_parts.mp downward, ?_, ?_⟩
    · rw [length_names]
      exact counted.mpr named
    · rw [length_names]
      exact shallow

theorem canon_names (key : String) :
    String.ofList (canon key.toList) = "/".intercalate (names key) := by
  rw [← String.toList_inj, String.toList_ofList, String.toList_intercalate, names_eq, List.map_map,
    canon, joinWith_eq]
  have same : String.toList ∘ String.ofList = id := funext fun cs => String.toList_ofList
  rw [same, List.map_id]
  rfl

theorem normalize_iff {key canonical : String} :
    normalize key = .ok canonical ↔ IsKey key ∧ canonical = "/".intercalate (names key) := by
  rw [normalize_ok, isKey_iff, canon_names]

theorem parts_canonical {key canonical : String} (accepted : normalize key = .ok canonical) :
    parts canonical = names key := by
  obtain ⟨acceptable, rfl⟩ := normalize_ok.mp accepted
  rw [parts_eq, String.toList_ofList, pieces_canon acceptable.named, names_eq]

theorem canonical_inj {key key' canonical canonical' : String}
    (accepted : normalize key = .ok canonical) (accepted' : normalize key' = .ok canonical') :
    canonical = canonical' ↔ names key = names key' := by
  constructor
  · rintro rfl
    rw [← parts_canonical accepted, ← parts_canonical accepted']
  · intro same
    rw [(normalize_iff.mp accepted).2, (normalize_iff.mp accepted').2, same]

/-- A path with a relative one behind it. -/
def joined (root path : String) : String :=
  if path.toList.head? = some '/' then path
  else match root.toList.getLast? with
    | none => path
    | some '/' => root ++ path
    | some _ => root ++ "/" ++ path

def step (here : Path) (part : String) : Path :=
  if part = "" ∨ part = "." then here
  else if part = ".." then here.dropLast
  else here ++ [part]

/-- Where a path leads, from a directory or, behind a slash, from the top. -/
def walk (here : Path) (path : String) : Path :=
  (parts path).foldl step (if path.toList.head? = some '/' then [] else here)

theorem parts_append (front back : String) :
    parts (front ++ "/" ++ back) = parts front ++ parts back := by
  have whole : (front ++ "/" ++ back).toList = front.toList ++ '/' :: back.toList := by
    rw [String.toList_append, String.toList_append, List.append_assoc]
    rfl
  have cut := List.splitOnP_append_cons (p := (· == '/')) front.toList back.toList
    (beq_self_eq_true '/')
  rw [parts, whole, List.splitOn_eq_splitOnP, cut, List.map_append]
  rfl

theorem walk_joined {path : String} (relative : path.toList.head? ≠ some '/') (here : Path)
    (root : String) : walk here (joined root path) = (parts path).foldl step (walk here root) := by
  rw [joined, if_neg relative]
  split
  · rename_i empty
    obtain rfl : root = "" := String.toList_eq_nil_iff.mp (List.getLast?_eq_none_iff.mp empty)
    rw [walk, if_neg relative]
    rfl
  · rename_i closed
    -- The root ends with a slash: what stands behind the slash is empty and leads nowhere else.
    obtain ⟨front, split⟩ := List.getLast?_eq_some_iff.mp closed
    obtain rfl : root = String.ofList front ++ "/" := by
      rw [← String.toList_inj, split, String.toList_append, String.toList_ofList]
      rfl
    have start : ∀ back : String, (String.ofList front ++ "/" ++ back).toList.head? =
        (String.ofList front ++ "/").toList.head? := by
      intro back
      rw [String.toList_append, List.head?_append_of_ne_nil _ (by rw [split]; simp)]
    have close : parts (String.ofList front ++ "/") = parts (String.ofList front) ++ [""] := by
      have behind := parts_append (String.ofList front) ""
      rwa [String.append_empty] at behind
    rw [walk, walk, start, parts_append, close, List.foldl_append, List.foldl_append]
    rfl
  · rename_i last _ open_
    have some : root.toList ≠ [] := fun none => by rw [none] at open_; cases open_
    have start : (root ++ "/" ++ path).toList.head? = root.toList.head? := by
      rw [String.toList_append, String.toList_append, List.append_assoc,
        List.head?_append_of_ne_nil _ some]
    rw [walk, walk, start, parts_append, List.foldl_append]

theorem step_names {here : Path} {path : List String}
    (down : ∀ name ∈ path, name ≠ "" ∧ name ≠ "." ∧ name ≠ "..") :
    path.foldl step here = here ++ path := by
  induction path generalizing here with
  | nil => simp
  | cons name path ih =>
    obtain ⟨some, other, up⟩ := down name List.mem_cons_self
    rw [List.foldl_cons, ih fun next listed => down next (List.mem_cons_of_mem _ listed), step,
      if_neg (by simp [some, other]), if_neg up, List.append_assoc, List.singleton_append]

theorem names_down {key : String} (isKey : IsKey key) :
    ∀ name ∈ names key, name ≠ "" ∧ name ≠ "." ∧ name ≠ ".." := by
  intro name listed
  obtain ⟨among, counts⟩ := List.mem_filter.mp listed
  obtain ⟨some, other⟩ := of_decide_eq_true counts
  exact ⟨some, other, fun up => isKey.downward (up ▸ among)⟩

theorem walk_canonical {key canonical : String} (accepted : normalize key = .ok canonical)
    (here : Path) (root : String) :
    walk here (joined root canonical) = walk here root ++ names key := by
  obtain ⟨again, _⟩ := normalize_iff.mp (normalize_canonical accepted)
  rw [walk_joined again.relative, parts_canonical accepted,
    step_names (names_down (normalize_iff.mp accepted).1)]

/-- A text is accepted just where it is a key, and what is made of it has its names with single
slashes between them. That is its own canonical spelling, it is the same for two keys just where they
have the same names, and behind any root it leads strictly below that root, down one name after the
other: to the place where the storage in a directory tree keeps the object. -/
theorem normalize_grammar (key : String) :
    ((∃ canonical, normalize key = .ok canonical) ↔ IsKey key) ∧
    ∀ canonical, normalize key = .ok canonical →
      canonical = "/".intercalate (names key) ∧ normalize canonical = .ok canonical ∧
      (∀ key' canonical', normalize key' = .ok canonical' →
        (canonical = canonical' ↔ names key = names key')) ∧
      Local.pathOf canonical = names key ∧ names key ≠ [] ∧
      ∀ here root, walk here (joined root canonical) = walk here root ++ names key := by
  refine ⟨⟨?_, fun isKey => ⟨_, normalize_iff.mpr ⟨isKey, rfl⟩⟩⟩, fun canonical accepted => ?_⟩
  · rintro ⟨canonical, accepted⟩
    exact (normalize_iff.mp accepted).1
  · obtain ⟨isKey, spelled⟩ := normalize_iff.mp accepted
    have place : Local.pathOf canonical = names key := by
      rw [Local.pathOf, ← parts_eq, parts_canonical accepted]
    exact ⟨spelled, normalize_canonical accepted, fun key' canonical' => canonical_inj accepted,
      place, List.length_pos_iff.mp isKey.named, walk_canonical accepted⟩

/-- Two spellings of one key, behind a root that is given with a step up. -/
theorem spelled_twice :
    normalize "a//b/./c" = .ok "a/b/c" ∧ normalize "./a/b/c/" = .ok "a/b/c" ∧
      names "a//b/./c" = names "./a/b/c/" ∧
      walk ["srv"] (joined "../data/" "a/b/c") = ["data", "a", "b", "c"] := by
  have first : normalize "a//b/./c" = .ok "a/b/c" := by decide
  have second : normalize "./a/b/c/" = .ok "a/b/c" := by decide
  obtain ⟨_, spelled⟩ := normalize_grammar "a//b/./c"
  obtain ⟨_, _, unique, _, _, below⟩ := spelled _ first
  refine ⟨first, second, (unique _ _ second).mp rfl, ?_⟩
  rw [below]
  decide

end DiagramShare.Storage.Key
