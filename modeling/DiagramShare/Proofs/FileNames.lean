import DiagramShare.Proofs.Grammar
import DiagramShare.Proofs.Room

/-! Names of files in keys. Whatever its name is, a file gets one segment of a key, and nothing in this
segment leads elsewhere; still the key is refused where the name spells a separator or a dot by its
code, or where its characters take up too many bytes. The ends of a name are taken off before it is
cut to length, so that a dot or a space may come to stand at the end of a segment by the cut. -/
namespace DiagramShare.Storage.Key

open DiagramShare.Text

variable {document : Int} {name : String} {c : Char}

def isLoose (c : Char) : Bool := c == '.' || c == ' '

def replaced (c : Char) : Char := if isReplaced c then '_' else c

/-- A name with its characters replaced and its ends taken off. -/
def stripped (name : String) : List Char := stripWhere isLoose (name.toList.map replaced)

theorem stripped_ofList (cs : List Char) :
    stripped (String.ofList cs) = stripWhere isLoose (cs.map replaced) := by
  rw [stripped, String.toList_ofList]

theorem segment_eq (name : String) : segment name =
    if (stripped name).isEmpty then unnamed else String.ofList ((stripped name).take maxSegment) :=
  rfl

theorem isLoose_iff : isLoose c = false ↔ c ≠ '.' ∧ c ≠ ' ' := by simp [isLoose]

theorem segment_cases (name : String) :
    stripped name = [] ∧ segment name = unnamed ∨
      stripped name ≠ [] ∧ (segment name).toList = (stripped name).take maxSegment := by
  rw [segment_eq]
  by_cases none : stripped name = []
  · exact .inl ⟨none, by rw [none]; rfl⟩
  · refine .inr ⟨none, ?_⟩
    rw [if_neg (by simpa using none), String.toList_ofList]

theorem stripped_among (name : String) : stripped name <:+: name.toList.map replaced := by
  have front := stripWhere_prefix isLoose (name.toList.map replaced)
  exact front.isInfix.trans (List.dropWhile_suffix isLoose).isInfix

theorem getLast_stripped (last : (stripped name).getLast? = some c) : isLoose c = false :=
  getLast_stripEndWhere last

theorem head_segment (first : (segment name).toList.head? = some c) : isLoose c = false := by
  rcases segment_cases name with ⟨_, plain⟩ | ⟨_, cut⟩
  · obtain rfl : 'u' = c := by simpa [plain, unnamed] using first
    decide
  · rw [cut, List.head?_take, if_neg (by decide)] at first
    exact head_stripWhere first

theorem length_segment_le (name : String) : (segment name).length ≤ maxSegment := by
  rw [← String.length_toList]
  rcases segment_cases name with ⟨_, plain⟩ | ⟨_, cut⟩
  · rw [plain]
    decide
  · rw [cut]
    exact List.length_take_le _ _

theorem getLast_segment (name : String) : (∀ c ∈ (segment name).toList.getLast?, isLoose c = false) ↔
    ∀ c ∈ (stripped name)[maxSegment - 1]?, isLoose c = false := by
  rcases segment_cases name with ⟨none, plain⟩ | ⟨_, cut⟩
  · rw [none, plain]
    refine iff_of_true (fun c last => ?_) (by simp)
    obtain rfl : 'd' = c := by simpa [unnamed] using last
    decide
  · rw [cut, List.getLast?_take, if_neg (by decide)]
    cases within : (stripped name)[maxSegment - 1]? with
    | none => simpa using fun c => getLast_stripped
    | some c => rfl

theorem length_stripped_le (name : String) : (stripped name).length ≤ name.length := by
  have shorter := (stripped_among name).length_le
  rwa [List.length_map, String.length_toList] at shorter

theorem last_stripped (few : name.length ≤ maxSegment)
    (last : (stripped name)[maxSegment - 1]? = some c) : isLoose c = false := by
  have long := (List.getElem?_eq_some_iff.mp last).1
  have shorter := length_stripped_le name
  have length : (stripped name).length - 1 = maxSegment - 1 := by omega
  apply getLast_stripped
  rwa [List.getLast?_eq_getElem?, length]

theorem stripped_short (short : (segment name).length < maxSegment) :
    (stripped name)[maxSegment - 1]? = none := by
  rw [← String.length_toList] at short
  rcases segment_cases name with ⟨none, _⟩ | ⟨_, cut⟩
  · simp [none]
  · rw [cut, List.length_take] at short
    exact List.getElem?_eq_none (by omega)

theorem segment_kept_whole {text : String} (some : text.toList ≠ [])
    (kept : ∀ c ∈ text.toList, isReplaced c = false)
    (first : ∀ c ∈ text.toList.head?, isLoose c = false) (short : text.length ≤ maxSegment) :
    segment text = String.ofList (stripEndWhere isLoose text.toList) := by
  have same : text.toList.map replaced = text.toList :=
    map_eq_self fun c hc => by rw [replaced, kept c hc]; rfl
  have whole : stripped text = stripEndWhere isLoose text.toList := by
    rw [stripped, same, stripWhere_of_head first]
  have left : stripped text ≠ [] := by
    obtain ⟨c, rest, start⟩ := List.exists_cons_of_ne_nil some
    have stays := first c (by rw [start]; rfl)
    rw [whole, stripEndWhere, start, List.reverse_cons]
    intro none
    have all := List.dropWhile_eq_nil_iff.mp (List.reverse_eq_nil_iff.mp none) c (by simp)
    rw [stays] at all
    cases all
  have length : (stripped text).length ≤ maxSegment := by
    rw [whole, stripEndWhere, List.length_reverse]
    refine Nat.le_trans (List.dropWhile_suffix isLoose).length_le ?_
    rwa [List.length_reverse, String.length_toList]
  rw [segment_eq, if_neg (by simpa using left), List.take_of_length_le length, whole]

theorem segment_segment (name : String) :
    segment (segment name) = String.ofList (stripEndWhere isLoose (segment name).toList) :=
  segment_kept_whole (segment_isSegment name).nonempty (fun _ => segment_kept)
    (fun _ => head_segment) (length_segment_le name)

theorem segment_segment_iff : segment (segment name) = segment name ↔
    ∀ c ∈ (segment name).toList.getLast?, isLoose c = false := by
  rw [segment_segment, ← stripEndWhere_eq_self, ← String.toList_inj, String.toList_ofList]

theorem segment_thrice (name : String) :
    segment (segment (segment name)) = segment (segment name) := by
  refine segment_segment_iff.mpr fun c last => ?_
  rw [segment_segment, String.toList_ofList] at last
  exact getLast_stripEndWhere last

theorem parts_ofAsset (document : Int) (name : String) :
    parts (ofAsset document name) = ["documents", toString document, segment name] := by
  rw [parts_eq, pieces_ofAsset]
  simp [root]

theorem ofAsset_inj {name' : String} :
    ofAsset document name' = ofAsset document name ↔ segment name' = segment name :=
  ofAsset_eq_iff.trans (and_iff_right rfl)

/-- A text that spells no NUL, dot, slash or backslash by its code. -/
def Plain (text : String) : Prop :=
  ∀ word, word <:+: text.toList → String.ofList (word.map Char.toLower) ∉ disguises

theorem harmless_segment (name : String) :
    isDangerous (segment name).toList = false ↔ Plain (segment name) := by
  have kept : ∀ c ∈ (segment name).toList, c ≠ '\\' ∧ isControl c = false := by
    intro c hc
    have stays := segment_kept hc
    simp only [isReplaced, Bool.or_eq_false_iff, beq_eq_false_iff_ne] at stays
    simp [stays]
  rw [harmless_iff, Plain]
  refine ⟨fun h => h.2.2, fun plain => ⟨fun slash => (kept _ slash).1 rfl, fun c hc => ?_, plain⟩⟩
  rw [← isControl_iff, (kept c hc).2]
  exact Bool.false_ne_true

theorem Plain.segment (plain : Plain name) : Plain (segment name) := by
  have spelled : ∀ disguise ∈ disguises, '%' ∈ disguise.toList ∧ '_' ∉ disguise.toList := by
    decide +kernel
  intro word inside disguise
  obtain ⟨percent, line⟩ := spelled _ disguise
  rw [String.toList_ofList] at percent line
  rcases segment_cases name with ⟨_, none⟩ | ⟨_, cut⟩
  · obtain ⟨c, hc, lower⟩ := List.mem_map.mp percent
    have letters : unnamed.toList.all (fun c => c.toLower != '%') = true := by decide
    have other := List.all_eq_true.mp letters c (none ▸ inside.subset hc)
    exact bne_iff_ne.mp other lower
  · rw [cut] at inside
    obtain ⟨source, among, rfl⟩ := List.infix_map_iff.mp
      (inside.trans ((List.take_prefix _ _).isInfix.trans (stripped_among name)))
    have same : source.map replaced = source := by
      refine map_eq_self fun c hc => ?_
      by_cases put : isReplaced c = true
      · refine absurd (List.mem_map.mpr ⟨'_', List.mem_map.mpr ⟨c, hc, ?_⟩, rfl⟩) line
        rw [replaced, if_pos put]
      · rw [replaced, if_neg put]
    rw [same] at disguise
    exact plain source among disguise

theorem utf8ByteSize_le_mul {k : Nat} {cs : List Char} (small : ∀ c ∈ cs, c.utf8Size ≤ k) :
    (String.ofList cs).utf8ByteSize ≤ k * cs.length := by
  induction cs with
  | nil => exact Nat.zero_le _
  | cons c cs ih =>
    have first := small c List.mem_cons_self
    have rest := ih fun d hd => small d (List.mem_cons_of_mem _ hd)
    rw [String.ofList_cons, String.utf8ByteSize_append, String.utf8ByteSize_singleton,
      List.length_cons, Nat.mul_succ]
    omega

theorem utf8ByteSize_segment_le {k : Nat} (some : 1 ≤ k) (small : ∀ c ∈ name.toList, c.utf8Size ≤ k) :
    (segment name).utf8ByteSize ≤ k * max 7 (min maxSegment name.length) := by
  rcases segment_cases name with ⟨_, plain⟩ | ⟨_, cut⟩
  · have size : unnamed.utf8ByteSize = 7 := by decide
    rw [plain, size]
    exact Nat.le_trans (Nat.le_mul_of_pos_left 7 some) (Nat.mul_le_mul_left k (Nat.le_max_left _ _))
  · have bound : ∀ c ∈ (segment name).toList, c.utf8Size ≤ k := by
      intro c hc
      rw [cut] at hc
      obtain ⟨d, hd, rfl⟩ :=
        List.mem_map.mp ((stripped_among name).subset (List.mem_of_mem_take hc))
      rw [replaced]
      split
      · exact some
      · exact small d hd
    have length : (segment name).toList.length ≤ min maxSegment name.length := by
      have shorter := length_stripped_le name
      rw [cut, List.length_take]
      omega
    have size := utf8ByteSize_le_mul bound
    rw [String.ofList_toList] at size
    exact Nat.le_trans size
      (Nat.mul_le_mul_left k (Nat.le_trans length (Nat.le_max_right _ _)))

theorem normalize_ofAsset_iff (document : Int) (name : String) :
    let size := 11 + (toString document).utf8ByteSize + (segment name).utf8ByteSize
    (normalize (ofAsset document name) = .ok (ofAsset document name) ↔
        size ≤ 1024 ∧ Plain (segment name)) ∧
      (normalize (ofAsset document name) = .error .tooLong ↔ 1024 < size) ∧
      (normalize (ofAsset document name) = .error (.dangerous (ofAsset document name)) ↔
        size ≤ 1024 ∧ ¬ Plain (segment name)) := by
  intro size
  have answer : normalize (ofAsset document name) =
      if 1024 < size then .error .tooLong
      else if isDangerous (segment name).toList then .error (.dangerous (ofAsset document name))
      else .ok (ofAsset document name) := by
    rw [normalize_ofAsset, utf8ByteSize_ofAsset]
    rfl
  rw [answer, ← harmless_segment]
  by_cases long : 1024 < size
  · simp [long]
  · cases isDangerous (segment name).toList <;> simp [long, Nat.le_of_not_lt long]

/-- A name makes one segment that is safe in a path. Its key is accepted as it is unless it has more
than 1024 bytes or its name spells a NUL, dot, slash or backslash by its code; a name of up to 248
characters, or of characters of up to three bytes, is never too long. -/
theorem ofAsset_normalizes (document : Int) (name : String) :
    let size := 11 + (toString document).utf8ByteSize + (segment name).utf8ByteSize
    IsFileName (segment name) ∧ (segment name).length ≤ 255 ∧
      parts (ofAsset document name) = ["documents", toString document, segment name] ∧
      (normalize (ofAsset document name) = .ok (ofAsset document name) ↔
        size ≤ 1024 ∧ Plain (segment name)) ∧
      (normalize (ofAsset document name) = .error .tooLong ↔ 1024 < size) ∧
      (normalize (ofAsset document name) = .error (.dangerous (ofAsset document name)) ↔
        size ≤ 1024 ∧ ¬ Plain (segment name)) ∧
      (Fits64 document → Plain name → (name.length ≤ 248 ∨ ∀ c ∈ name.toList, c.utf8Size ≤ 3) →
        normalize (ofAsset document name) = .ok (ofAsset document name)) := by
  intro size
  obtain ⟨accepted, tooLong, refused⟩ := normalize_ofAsset_iff document name
  refine ⟨segment_isFileName name, length_segment_le name, parts_ofAsset document name, accepted,
    tooLong, refused, fun fits plain few => accepted.mpr ⟨?_, plain.segment⟩⟩
  have number := utf8ByteSize_toString_le fits
  rcases few with short | small
  · have bytes : (segment name).utf8ByteSize ≤ 4 * max 7 (min maxSegment name.length) :=
      utf8ByteSize_segment_le (by decide) fun c _ => c.utf8Size_le_four
    omega
  · have bytes := utf8ByteSize_segment_le (by decide) small
    rw [maxSegment] at bytes
    omega

/-- A name with a percent sign, an accent and a character that is replaced. -/
theorem ofAsset_normalizes_plan : Fits64 4 ∧ Plain "50% plané?.png" ∧
    normalize (ofAsset 4 "50% plané?.png") = .ok "documents/4/50% plané_.png" := by
  have plain : Plain "50% plané?.png" := (harmless_iff.mp (by decide)).2.2
  have fits : Fits64 4 := ⟨by decide, by decide⟩
  obtain ⟨_, _, _, _, _, _, accepted⟩ := ofAsset_normalizes 4 "50% plané?.png"
  refine ⟨fits, plain, (accepted fits plain (.inl (by decide))).trans ?_⟩
  decide

/-- A slash that is spelled by its code, and 255 characters of four bytes. -/
theorem ofAsset_refused :
    normalize (ofAsset 4 "a%2Fb.png") = .error (.dangerous "documents/4/a%2Fb.png") ∧
    normalize (ofAsset 4 (Service.wide 255)) = .error .tooLong ∧
    ¬ ∀ (document : Int) (name : String), 0 < document →
      normalize (ofAsset document name) = .ok (ofAsset document name) := by
  have spelled : normalize (ofAsset 4 "a%2Fb.png") = .error (.dangerous "documents/4/a%2Fb.png") := by
    decide
  refine ⟨spelled, ?_, fun all => ?_⟩
  · rw [Service.normalize_wide (by decide) (by decide), if_pos (by decide)]
  · rw [all 4 "a%2Fb.png" (by decide)] at spelled
    cases spelled

end DiagramShare.Storage.Key

namespace DiagramShare.Storage.Disk.Shelved

theorem upload_fits {d : Disk} {document : Int} {name root key : String} {number : Nat}
    {content : Content} (h : d.Shelved) (fits : Key.Fits64 document)
    (done : (Local.upload root d (Key.ofAsset document name) number content).2.1 = .ok key) :
    key = Key.ofAsset document name ∧ (Key.segment name).utf8ByteSize + 23 ≤ maxName := by
  have whole := h.upload root document name number content
  refine ⟨whole.2 key done, ?_⟩
  rcases Local.upload_cases h.tidy root (Key.ofAsset document name) number content with
    ⟨e, records, same⟩ | ⟨k, x, result, records, accepted, begun, outcome, same⟩
  · rw [same] at done
    cases done
  · obtain rfl := Key.normalize_ofAsset_ok accepted
    cases outcome with
    | refused => simp [same, Except.map] at done
    | dropped => simp [same, Except.map] at done
    | moved _ _ complete =>
      rw [h.upload_whole root fits accepted begun complete] at done
      by_contra cramped
      rw [if_neg cramped] at done
      cases done

end DiagramShare.Storage.Disk.Shelved

namespace DiagramShare.Service

open DiagramShare.Repository (Memory)
open DiagramShare.Storage (Content)
open DiagramShare.Storage.Key (Fits64 ofAsset segment stripped parts)

variable {settings : Settings.Storage} {root : String} {events : List Event}
  {w w' : World Memory} {c : Conditions} {caller : Caller} {document : Int} {name : String}
  {content : Content} {answer : Answer}

theorem uploadAsset_reports (isLocal : settings.driver = .local)
    (course : Course settings root events w) (fits : Fits64 document)
    (ends : (serve caller (.uploadAsset document name content)).Ends inMemory c w w' (.ok answer)) :
    ∃ info, answer = .asset info ∧ info.key = ofAsset document name ∧
      (segment name).utf8ByteSize + 23 ≤ Storage.maxName := by
  obtain ⟨driver, shelved, _⟩ := course.stored isLocal
  obtain ⟨b, done, wrapped⟩ := ends_as.mp ends
  rcases ends_bind.mp done with ⟨e, refused, rfl⟩ | ⟨v, _, admitted, _⟩
  · cases wrapped
  · obtain ⟨u, _, _, done'⟩ := uploadAsset_ends driver shelved admitted
    obtain ⟨_, rfl⟩ := ends_unique done' done
    cases stored : (Storage.Local.upload w.backend.root w.backend.disk (ofAsset document name)
        (c.staging v.uploads) content).2.1 with
    | error e =>
      rw [stored] at wrapped
      cases wrapped
    | ok key =>
      rw [stored] at wrapped
      obtain ⟨rfl, room⟩ := shelved.upload_fits fits stored
      exact ⟨_, Except.ok.inj wrapped, rfl, room⟩

/-- A segment never begins with a dot or a space. It ends with neither, and makes itself as a name, just
if the 255th character of the stripped name is neither, and so for every name of up to 255 characters;
made twice, it always makes itself. What an upload to a tree of files reports leads to the same file. -/
theorem segment_again (name : String) :
    (∀ c ∈ (segment name).toList.head?, c ≠ '.' ∧ c ≠ ' ') ∧
    ((∀ c ∈ (segment name).toList.getLast?, c ≠ '.' ∧ c ≠ ' ') ↔
      ∀ c ∈ (stripped name)[254]?, c ≠ '.' ∧ c ≠ ' ') ∧
    (segment (segment name) = segment name ↔ ∀ c ∈ (stripped name)[254]?, c ≠ '.' ∧ c ≠ ' ') ∧
    (name.length ≤ 255 → segment (segment name) = segment name) ∧
    segment (segment (segment name)) = segment (segment name) ∧
    ∀ document, (ofAsset document (segment name) = ofAsset document name ↔
        segment (segment name) = segment name) ∧
      ∀ (settings : Settings.Storage) (root : String) (events : List Event) (w w' : World Memory)
        (c : Conditions) (caller : Caller) (content : Content) (answer : Answer),
        settings.driver = .local → Course settings root events w → Fits64 document →
        (serve caller (.uploadAsset document name content)).Ends inMemory c w w' (.ok answer) →
        ∃ info, answer = .asset info ∧
          parts info.key = ["documents", toString document, segment name] ∧
          ofAsset document (segment name) = info.key := by
  have again := Storage.Key.segment_segment_iff.trans (Storage.Key.getLast_segment name)
  have ends := Storage.Key.getLast_segment name
  simp only [Storage.Key.isLoose_iff] at ends again
  refine ⟨fun c first => Storage.Key.isLoose_iff.mp (Storage.Key.head_segment first), ends, again,
    fun few => again.mpr fun c place => ?_, Storage.Key.segment_thrice name,
    fun document => ⟨Storage.Key.ofAsset_inj, ?_⟩⟩
  · exact Storage.Key.isLoose_iff.mp (Storage.Key.last_stripped few place)
  · intro settings root events w w' c caller content answer isLocal course fits ends
    obtain ⟨info, shown, key, room⟩ := uploadAsset_reports isLocal course fits ends
    have short : (segment name).length < Storage.Key.maxSegment := by
      have bytes := Text.length_le_utf8ByteSize (segment name)
      rw [Storage.maxName] at room
      rw [Storage.Key.maxSegment]
      omega
    refine ⟨info, shown, key ▸ Storage.Key.parts_ofAsset document name, ?_⟩
    rw [key, Storage.Key.ofAsset_inj, again]
    intro c place
    rw [Storage.Key.stripped_short short] at place
    cases place

def clipped : String := String.ofList (List.replicate 254 'a' ++ ['.', 'b'])

theorem stripped_clipped : stripped clipped = List.replicate 254 'a' ++ ['.', 'b'] := by
  have kept : Text.stripWhere Storage.Key.isLoose
      ((List.replicate 254 'a' ++ ['.', 'b']).map Storage.Key.replaced) =
        List.replicate 254 'a' ++ ['.', 'b'] := by
    decide +kernel
  exact (Storage.Key.stripped_ofList _).trans kept

theorem segment_clipped : (segment clipped).toList = List.replicate 254 'a' ++ ['.'] := by
  rcases Storage.Key.segment_cases clipped with ⟨none, _⟩ | ⟨_, cut⟩
  · rw [stripped_clipped] at none
    exact absurd none (List.append_ne_nil_of_right_ne_nil _ (List.cons_ne_nil _ _))
  · rw [stripped_clipped] at cut
    exact cut.trans (by decide +kernel)

theorem segment_unstable :
    (segment clipped).toList.getLast? = some '.' ∧ segment (segment clipped) ≠ segment clipped ∧
      ¬ ∀ name, segment (segment name) = segment name := by
  have last : (segment clipped).toList.getLast? = some '.' := by
    rw [segment_clipped, List.getLast?_concat]
  have differs : segment (segment clipped) ≠ segment clipped := by
    intro same
    have kept := Storage.Key.segment_segment_iff.mp same '.' last
    exact absurd kept (by decide)
  exact ⟨last, differs, fun all => differs (all clipped)⟩

/-- What the upload to the sample reports, under a name that is changed in the key. -/
theorem segment_again_plan : ∃ w' info,
    (serve ⟨some 1, none⟩ attaching).Ends inMemory steady sample w' (.ok (.asset info)) ∧
      parts info.key = ["documents", "2", "_plan_.png"] ∧ ofAsset 2 "_plan_.png" = info.key := by
  obtain ⟨events, course⟩ := sample_course
  have fits : Fits64 2 := ⟨by decide, by decide⟩
  have ends := ends_run (s := inMemory) (c := steady) (serve ⟨some 1, none⟩ attaching) sample
  have answer := uploadAsset_answer rfl course fits (by decide) rfl rfl (fun _ => rfl) ends
    (sample_owned _ _)
  rw [if_pos (by decide)] at answer
  rw [answer] at ends
  obtain ⟨_, _, _, _, _, reports⟩ := segment_again "../plan?.png"
  obtain ⟨info, shown, key, same⟩ := (reports 2).2 _ _ _ _ _ _ _ _ _ rfl course fits ends
  have name : segment "../plan?.png" = "_plan_.png" := by decide
  rw [name] at key same
  exact ⟨_, info, shown ▸ ends, key, same⟩

end DiagramShare.Service
