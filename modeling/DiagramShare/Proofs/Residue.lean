import DiagramShare.Proofs.FileMap

/-! What failed uploads leave. A failed upload leaves the files alone, but the directories on its way
stay. A later call tells the difference where it meets one of them: as a path of its own, or on the
way to a name that is too long. All other calls are answered as if the upload had never been made. -/
namespace DiagramShare.Storage

namespace Disk

variable {d d' : Disk} {p q here rest : Path} {name : String}

/-- A directory that only the second tree has. -/
def Extra (d d' : Disk) (p : Path) : Prop := d.isDirectory p = false ∧ d'.isDirectory p = true

instance (d d' : Disk) (p : Path) : Decidable (d.Extra d' p) :=
  inferInstanceAs (Decidable (_ ∧ _))

/-- A path that goes on below such a directory by a name that is too long. -/
def Overlong (d d' : Disk) (p : Path) : Prop :=
  ∃ above name below, p = above ++ name :: below ∧ Extra d d' above ∧ isTooLong name = true

/-- Tidy trees with the same files; the second may have further directories. -/
structure Beside (d d' : Disk) : Prop where
  tidy : d.Tidy
  tidy' : d'.Tidy
  files : d'.files = d.files
  kept : ∀ p, d.isDirectory p = true → d'.isDirectory p = true

theorem follow_missing (gone : d.follow here rest = .error .missing) (more : Path) :
    d.follow here (rest ++ more) = .error .missing := by
  induction rest generalizing here with
  | nil => cases gone
  | cons name rest ih =>
    simp only [List.cons_append, follow] at gone ⊢
    split at gone
    · cases gone
    · rename_i fits
      rw [if_neg fits]
      split at gone
      · rename_i next
        rw [if_pos next]
        exact ih gone
      · rename_i next
        rw [if_neg next]
        split at gone
        · split at gone <;> cases gone
        · rfl

namespace Beside

theorem file (h : d.Beside d') (p : Path) : d'.file? p = d.file? p := by
  rw [file?, file?, h.files]

theorem isDirectory (h : d.Beside d') (other : ¬ d.Extra d' p) :
    d'.isDirectory p = d.isDirectory p := by
  cases there : d.isDirectory p with
  | true => exact h.kept p there
  | false => exact Bool.not_eq_true _ ▸ fun there' => other ⟨there, there'⟩

theorem below (h : d.Beside d') (extra : d.Extra d' p) (name : String) :
    d.isDirectory (p ++ [name]) = false ∧ d.file? (p ++ [name]) = none := by
  obtain ⟨absent, _⟩ := extra
  constructor
  · rw [← Bool.not_eq_true]
    intro there
    rw [(h.tidy.parent there).1] at absent
    cases absent
  · cases found : d.file? (p ++ [name]) with
    | none => rfl
    | some content =>
      obtain ⟨⟨parent, last, same, there, _⟩, _⟩ := h.tidy.stands found
      obtain ⟨rfl, rfl⟩ := List.append_singleton_inj.mp same
      rw [there] at absent
      cases absent

theorem follow_extra (h : d.Beside d') (start : d.Extra d' here)
    (other : ¬ d.Extra d' (here ++ rest)) (short : ¬ d.Overlong d' (here ++ rest)) :
    d'.follow here rest = .error .missing := by
  induction rest generalizing here with
  | nil => exact absurd (by simpa using start) other
  | cons name rest ih =>
    have fits : isTooLong name = false := by
      rw [← Bool.not_eq_true]
      exact fun long => short ⟨here, name, rest, rfl, start, long⟩
    obtain ⟨absent, unfiled⟩ := h.below start name
    simp only [Disk.follow, fits, h.file, unfiled, Bool.false_eq_true, if_false]
    rw [List.append_cons] at other short
    cases next : d'.isDirectory (here ++ [name]) with
    | true => exact ih ⟨absent, next⟩ other short
    | false => rfl

theorem follow (h : d.Beside d') (start : d.isDirectory here = true)
    (other : ¬ d.Extra d' (here ++ rest)) (short : ¬ d.Overlong d' (here ++ rest)) :
    d'.follow here rest = d.follow here rest := by
  induction rest generalizing here with
  | nil => rfl
  | cons name rest ih =>
    rw [List.append_cons] at other short
    simp only [Disk.follow]
    cases next : d.isDirectory (here ++ [name]) with
    | true => simp only [h.kept _ next, if_true, ih next other short]
    | false =>
      cases next' : d'.isDirectory (here ++ [name]) with
      | true =>
        -- Here the ways part: one ends, and the other goes on to where there is nothing.
        have unfiled := (h.file _).symm.trans (h.tidy'.unfiled next')
        simp [(h.tidy'.parent next').2, unfiled, h.follow_extra ⟨next, next'⟩ other short]
      | false => simp only [h.file, Bool.false_eq_true, if_false]

theorem entry (h : d.Beside d') (other : ¬ d.Extra d' p) (short : ¬ d.Overlong d' p) :
    d'.entry p = d.entry p := h.follow isDirectory_root other short

theorem entry_extra (h : d.Beside d') (extra : d.Extra d' p) : d.entry p = .error .missing := by
  obtain ⟨absent, there⟩ := extra
  have leads : ∀ {here rest}, d.isDirectory here = true → d'.isDirectory (here ++ rest) = true →
      d.isDirectory (here ++ rest) = false → d.follow here rest = .error .missing := by
    intro here rest start there absent
    induction rest generalizing here with
    | nil => simp [start] at absent
    | cons name rest ih =>
      rw [List.append_cons] at there absent
      have next' := h.tidy'.above there
      have unfiled := (h.file _).symm.trans (h.tidy'.unfiled next')
      simp only [Disk.follow, (h.tidy'.parent next').2, unfiled, Bool.false_eq_true, if_false]
      cases next : d.isDirectory (here ++ [name]) with
      | true => exact ih next there absent
      | false => rfl
  exact leads isDirectory_root there absent

theorem entry_overlong (h : d.Beside d') (overlong : d.Overlong d' p) :
    d.entry p = .error .missing ∧ d'.entry p = .error .nameTooLong := by
  obtain ⟨above, name, below, rfl, extra, long⟩ := overlong
  constructor
  · exact follow_missing (h.entry_extra extra) _
  · rw [h.tidy'.entry_append extra.2]
    simp only [Disk.follow, long, if_true]

theorem erase (h : d.Beside d') (p : Path) : (d.erase p).Beside (d'.erase p) := by
  constructor
  · exact h.tidy.erase p
  · exact h.tidy'.erase p
  · simp only [Disk.erase, h.files]
  · exact h.kept

theorem write (h : d.Beside d') (place : d.Stands p) (other : d.isDirectory p = false)
    (other' : d'.isDirectory p = false) (content : Bytes) :
    (d.write p content).Beside (d'.write p content) := by
  constructor
  · exact h.tidy.write place other content
  · exact h.tidy'.write (place.mono h.kept) other' content
  · simp only [Disk.write, h.files]
  · exact h.kept

theorem grow (h : d.Beside d') (place : d.Stands q) (free : d.file? q = none) :
    let grown : Disk := { d with directories := d.directories ++ [q] }
    grown.Beside { d' with directories := d'.directories ++ [q] } ∧
      (d'.isDirectory q = true → grown.Beside d') := by
  have tidy := h.tidy.grow place free
  constructor
  · constructor
    · exact tidy
    · exact h.tidy'.grow (place.mono h.kept) ((h.file q).trans free)
    · exact h.files
    · intro p there
      rw [isDirectory_grow] at there ⊢
      exact there.imp_left (h.kept p)
  · intro there'
    constructor
    · exact tidy
    · exact h.tidy'
    · exact h.files
    · intro p there
      rcases isDirectory_grow.mp there with old | rfl
      · exact h.kept p old
      · exact there'

theorem makeBelow (h : d.Beside d') (start : d.isDirectory here = true) (rest : Path) :
    (d'.makeBelow here rest).2 = (d.makeBelow here rest).2 ∧
      (d.makeBelow here rest).1.Beside (d'.makeBelow here rest).1 := by
  induction rest generalizing d d' here with
  | nil => exact ⟨rfl, h⟩
  | cons name rest ih =>
    simp only [Disk.makeBelow, h.file]
    cases long : isTooLong name with
    | true => exact ⟨rfl, h⟩
    | false =>
      simp only [Bool.false_eq_true, if_false]
      cases next : d.isDirectory (here ++ [name]) with
      | true =>
        simp only [h.kept _ next, if_true]
        exact ih h next
      | false =>
        have made : ({ d with directories := d.directories ++ [here ++ [name]] } : Disk).isDirectory
            (here ++ [name]) = true := isDirectory_grow.mpr (.inr rfl)
        cases found : d.file? (here ++ [name]) with
        | some content =>
          have other := (h.tidy'.stands ((h.file _).trans found)).2
          simp [other, h]
        | none =>
          obtain ⟨both, first⟩ := h.grow ⟨here, name, rfl, start, long⟩ found
          simp only [Bool.false_eq_true, if_false, Option.isSome_none]
          cases next' : d'.isDirectory (here ++ [name]) with
          | true =>
            simp only [if_true]
            exact ih (first next') made
          | false =>
            simp only [Bool.false_eq_true, if_false]
            exact ih both made

theorem create (h : d.Beside d') (there : d.isDirectory p = true)
    (free : ¬ d.Extra d' (p ++ [name])) :
    d'.create (p ++ [name]) = (d.create (p ++ [name])).map fun _ => d'.write (p ++ [name]) [] := by
  rw [h.tidy.create_in there, h.tidy'.create_in (h.kept p there), h.isDirectory free]
  cases isTooLong name with
  | true => rfl
  | false => cases d.isDirectory (p ++ [name]) <;> rfl

theorem extra_of_grown {made made' : Disk} {way : Path} (tidy : made.Tidy)
    (grown : d.Grown made way) (grown' : d'.Grown made' way) (there : made.isDirectory way = true)
    (extra : made.Extra made' p) : d.Extra d' p := by
  obtain ⟨absent, there'⟩ := extra
  constructor
  · rw [← Bool.not_eq_true] at absent ⊢
    exact fun old => absent (grown.kept p old)
  · rcases grown'.new p there' with old | ⟨more, rfl⟩
    · exact old
    · rw [tidy.above there] at absent
      cases absent

end Beside

end Disk

namespace Local

variable {d d' : Disk} {key spelling : String} {number : Nat}

theorem settled_beside (h : d.Beside d') (root : String) (content : Content) {path : Path}
    (some : path ≠ []) (there : d.isDirectory path.dropLast = true)
    (other : content.ending = .complete → ¬ d.Extra d' path)
    (free : ¬ d.Extra d' (stagingPath path number)) :
    (settled root d' path (stagingPath path number) content).2 =
        (settled root d path (stagingPath path number) content).2 ∧
      (settled root d path (stagingPath path number) content).1.Beside
        (settled root d' path (stagingPath path number) content).1 := by
  have creates := h.create there free
  simp only [settled]
  rw [stagingPath, creates]
  cases create : d.create (stagingPath path number) with
  | error fault =>
    rw [stagingPath] at create
    simp only [create, Except.map]
    exact ⟨trivial, h⟩
  | ok created =>
    have place := stands_of_create h.tidy some there create
    rw [stagingPath] at create
    simp only [create, Except.map]
    cases failure : failureOf content.ending with
    | some e => exact ⟨rfl, h.erase _⟩
    | none =>
      have same := h.isDirectory (other (failureOf_none.mp failure))
      simp only [same]
      cases directory : d.isDirectory path with
      | true => exact ⟨rfl, h.erase _⟩
      | false => exact ⟨rfl, (h.erase _).write place directory (same.trans directory) _⟩

theorem uploaded_beside (h : d.Beside d') (root : String) (content : Content) {path : Path}
    (some : path ≠ []) (other : content.ending = .complete → ¬ d.Extra d' path)
    (free : ¬ d.Extra d' (stagingPath path number)) :
    (uploaded root d' path number content).2 = (uploaded root d path number content).2 ∧
      (uploaded root d path number content).1.Beside
        (uploaded root d' path number content).1 := by
  obtain ⟨tidy, grown, directory⟩ :=
    Disk.makeBelow_grown h.tidy Disk.isDirectory_root path.dropLast
  obtain ⟨_, grown', _⟩ := Disk.makeBelow_grown h.tidy' Disk.isDirectory_root path.dropLast
  obtain ⟨same, made⟩ := h.makeBelow Disk.isDirectory_root path.dropLast
  rw [List.nil_append] at grown grown' directory
  unfold uploaded Disk.makeDirectories
  rcases below : d.makeBelow [] path.dropLast with ⟨x, _ | fault⟩
  · rcases below' : d'.makeBelow [] path.dropLast with ⟨x', fault'⟩
    rw [below] at tidy grown directory made same
    rw [below'] at grown' made same
    obtain rfl : fault' = none := same
    have there : x.isDirectory path.dropLast = true := directory rfl
    -- The way is made in both trees, so what is new in the second one was new before.
    have before : ∀ {p}, x.Extra x' p → d.Extra d' p :=
      Disk.Beside.extra_of_grown tidy grown grown' there
    exact settled_beside made root content some there
      (fun complete extra => other complete (before extra)) fun extra => free (before extra)
  · rcases below' : d'.makeBelow [] path.dropLast with ⟨x', fault'⟩
    rw [below, below'] at made same
    obtain rfl : fault' = _ := same
    exact ⟨rfl, made⟩

theorem upload_beside (h : d.Beside d') (root : String) (content : Content)
    (clear : ∀ key, Key.normalize spelling = .ok key →
      (content.whole? ≠ none → ¬ d.Extra d' (pathOf key)) ∧
        ¬ d.Extra d' (stagingPath (pathOf key) number)) :
    (upload root d' spelling number content).2 = (upload root d spelling number content).2 ∧
      (upload root d spelling number content).1.Beside
        (upload root d' spelling number content).1 := by
  rw [upload_eq, upload_eq]
  cases accepted : canonical spelling with
  | error e => exact ⟨rfl, h⟩
  | ok key =>
    cases begun : content.cancelledBefore with
    | true => exact ⟨rfl, h⟩
    | false =>
      obtain ⟨other, free⟩ := clear key (canonical_ok.mp accepted)
      have other : content.ending = .complete → ¬ d.Extra d' (pathOf key) :=
        fun complete => other (by simp [Content.whole?, begun, complete])
      obtain ⟨same, after⟩ := uploaded_beside h root content (Key.pathOf_ne_nil key) other free
      simp only [Bool.false_eq_true, if_false]
      revert same after
      generalize uploaded root d (pathOf key) number content = done
      generalize uploaded root d' (pathOf key) number content = done'
      obtain ⟨x, result, records⟩ := done
      obtain ⟨x', result', records'⟩ := done'
      intro same after
      cases same
      cases result <;> exact ⟨rfl, after⟩

theorem delete_beside (h : d.Beside d')
    (clear : ∀ key, Key.normalize spelling = .ok key →
      ¬ d.Extra d' (pathOf key) ∧ ¬ d.Overlong d' (pathOf key)) :
    (delete d' spelling).2 = (delete d spelling).2 ∧
      (delete d spelling).1.Beside (delete d' spelling).1 := by
  unfold delete
  cases accepted : canonical spelling with
  | error e => exact ⟨rfl, h⟩
  | ok key =>
    obtain ⟨other, short⟩ := clear key (canonical_ok.mp accepted)
    simp only [Disk.remove, h.entry other short]
    cases d.entry (pathOf key) with
    | error fault => exact ⟨rfl, h⟩
    | ok entry =>
      cases entry with
      | directory => exact ⟨rfl, h⟩
      | file content => exact ⟨rfl, h.erase _⟩

theorem open_beside (h : d.Beside d')
    (clear : ∀ key, Key.normalize spelling = .ok key →
      ¬ d.Extra d' (pathOf key) ∧ ¬ d.Overlong d' (pathOf key)) :
    open_ d' spelling = open_ d spelling := by
  simp only [open_]
  cases accepted : canonical spelling with
  | error e => rfl
  | ok key =>
    obtain ⟨other, short⟩ := clear key (canonical_ok.mp accepted)
    simp only [bind, Except.bind, h.entry other short]

theorem size_beside (h : d.Beside d')
    (clear : ∀ key, Key.normalize spelling = .ok key → ¬ d.Overlong d' (pathOf key)) :
    size d' spelling = size d spelling := by
  simp only [size]
  cases accepted : canonical spelling with
  | error e => rfl
  | ok key =>
    have short := clear key (canonical_ok.mp accepted)
    simp only [bind, Except.bind]
    by_cases extra : d.Extra d' (pathOf key)
    · rw [h.entry_extra extra, h.tidy'.entry_directory extra.2]
      rfl
    · rw [h.entry extra short]

end Local

/-- A call as it is made, with the number that names its staging file. -/
structure Asked where
  {α : Type}
  number : Nat
  call : Call α

/-- A call that meets no directory that only the second tree has. It may only ask for the size of one,
or fail to put a content there. -/
def Clear (d d' : Disk) (number : Nat) : Call α → Prop
  | .upload spelling content => ∀ key, Key.normalize spelling = .ok key →
    (content.whole? ≠ none → ¬ d.Extra d' (Local.pathOf key)) ∧
      ¬ d.Extra d' (Local.stagingPath (Local.pathOf key) number)
  | .delete spelling => ∀ key, Key.normalize spelling = .ok key →
    ¬ d.Extra d' (Local.pathOf key) ∧ ¬ d.Overlong d' (Local.pathOf key)
  | .open_ spelling => ∀ key, Key.normalize spelling = .ok key →
    ¬ d.Extra d' (Local.pathOf key) ∧ ¬ d.Overlong d' (Local.pathOf key)
  | .size spelling => ∀ key, Key.normalize spelling = .ok key →
    ¬ d.Overlong d' (Local.pathOf key)
  | _ => True

namespace Backend

variable {b b' : Backend} {α : Type}

def next (b : Backend) (a : Asked) : Backend := (b.answer a.number a.call).1

def led (b : Backend) (asked : List Asked) : Backend := asked.foldl next b

def replies (b : Backend) : List Asked → List (Σ α : Type, Except Failure α × List LogRecord)
  | [] => []
  | a :: later => ⟨a.α, (b.answer a.number a.call).2⟩ :: (b.next a).replies later

/-- No call meets a directory that only the second storage has when it is made. -/
def Spared (b b' : Backend) : List Asked → Prop
  | [] => True
  | a :: later => Clear b.disk b'.disk a.number a.call ∧ (b.next a).Spared (b'.next a) later

structure Beside (b b' : Backend) : Prop where
  isLocal : b.driver = .local
  settings : b'.settings = b.settings
  root : b'.root = b.root
  disk : b.disk.Beside b'.disk

theorem answer_tidy (isLocal : b.driver = .local) (tidy : b.disk.Tidy) (number : Nat)
    (call : Call α) : (b.answer number call).1.disk.Tidy := by
  cases call with
  | upload spelling content =>
    simp only [answer, upload_local isLocal]
    rcases Local.upload_cases tidy b.root spelling number content with
      ⟨e, records, same⟩ | ⟨key, x, result, records, _, _, outcome, same⟩
    · rw [same]
      exact tidy
    · rw [same]
      exact outcome.tidy
  | delete spelling =>
    simp only [answer, delete_local isLocal]
    rcases Local.delete_cases b.disk spelling with ⟨e, same⟩ | ⟨key, _, same⟩
    · rw [same]
      exact tidy
    · rw [same]
      exact tidy.erase _
  | _ => exact tidy

theorem led_tidy (isLocal : b.driver = .local) (tidy : b.disk.Tidy) (asked : List Asked) :
    (b.led asked).driver = .local ∧ (b.led asked).disk.Tidy := by
  induction asked generalizing b with
  | nil => exact ⟨isLocal, tidy⟩
  | cons a later ih =>
    exact ih (answer_local isLocal a.number a.call) (answer_tidy isLocal tidy a.number a.call)

theorem Beside.answer (h : b.Beside b') (number : Nat) (call : Call α)
    (clear : Clear b.disk b'.disk number call) :
    (b'.answer number call).2 = (b.answer number call).2 ∧
      (b.answer number call).1.Beside (b'.answer number call).1 := by
  have isLocal' : b'.driver = .local := by
    rw [driver, h.settings]
    exact h.isLocal
  obtain ⟨settings, root⟩ := b.answer_same number call
  obtain ⟨settings', root'⟩ := b'.answer_same number call
  have beside : (b.answer number call).1.disk.Beside (b'.answer number call).1.disk →
      (b.answer number call).1.Beside (b'.answer number call).1 := by
    intro disk
    constructor
    · exact answer_local h.isLocal number call
    · rw [settings', settings, h.settings]
    · rw [root', root, h.root]
    · exact disk
  suffices both : (b'.answer number call).2 = (b.answer number call).2 ∧
      (b.answer number call).1.disk.Beside (b'.answer number call).1.disk from
    ⟨both.1, beside both.2⟩
  cases call with
  | upload spelling content =>
    obtain ⟨same, disk⟩ := Local.upload_beside h.disk b.root content clear
    simp only [Backend.answer, upload_local h.isLocal, upload_local isLocal', h.root]
    exact ⟨same, disk⟩
  | delete spelling =>
    obtain ⟨same, disk⟩ := Local.delete_beside h.disk clear
    simp only [Backend.answer, delete_local h.isLocal, delete_local isLocal', same]
    exact ⟨trivial, disk⟩
  | open_ spelling =>
    simp only [Backend.answer, open_, h.isLocal, isLocal', Local.open_beside h.disk clear]
    exact ⟨trivial, h.disk⟩
  | size spelling =>
    simp only [Backend.answer, size, h.isLocal, isLocal', Local.size_beside h.disk clear]
    exact ⟨trivial, h.disk⟩
  | url spelling =>
    simp only [Backend.answer, url, h.isLocal, isLocal', h.settings]
    exact ⟨trivial, h.disk⟩
  | driver =>
    simp only [Backend.answer, h.isLocal, isLocal']
    exact ⟨trivial, h.disk⟩

theorem Beside.replies (h : b.Beside b') (later : List Asked) (spared : b.Spared b' later) :
    b'.replies later = b.replies later := by
  induction later generalizing b b' with
  | nil => rfl
  | cons a later ih =>
    obtain ⟨clear, rest⟩ := spared
    obtain ⟨same, beside⟩ := h.answer a.number a.call clear
    have after : (b'.next a).replies later = (b.next a).replies later := ih beside rest
    rw [Backend.replies, Backend.replies, same, after]

end Backend

theorem Backend.failed_upload {b : Backend} (isLocal : b.driver = .local) (tidy : b.disk.Tidy)
    {spelling : String} {number : Nat} {content : Content} {e : Failure}
    (failed : (b.upload spelling number content).2.1 = .error e)
    (unused : Unused number b (.upload spelling content)) :
    b.Beside (b.upload spelling number content).1 ∧
      ∀ p, b.disk.Extra (b.upload spelling number content).1.disk p →
        ∃ key, Key.normalize spelling = .ok key ∧ p <+: (Local.pathOf key).dropLast := by
  have tidy' := answer_tidy isLocal tidy number (.upload spelling content)
  have done := upload_local isLocal spelling number content
  rw [answer] at tidy'
  rcases Local.upload_cases tidy b.root spelling number content with
    ⟨_, _, same⟩ | ⟨key, x, result, records, accepted, _, outcome, same⟩
  · rw [same] at done
    rw [done]
    refine ⟨⟨isLocal, rfl, rfl, tidy, tidy, rfl, fun _ there => there⟩, ?_⟩
    rintro p ⟨absent, there⟩
    rw [there] at absent
    cases absent
  · rw [same] at done
    rw [done] at failed tidy' ⊢
    cases result with
    | ok => cases failed
    | error e =>
      have grown := outcome.failed (unused key accepted)
      refine ⟨⟨isLocal, rfl, rfl, tidy, tidy', grown.files, grown.kept⟩, ?_⟩
      rintro p ⟨absent, there⟩
      rcases grown.new p there with old | way
      · rw [old] at absent
        cases absent
      · exact ⟨key, accepted, way⟩

/-- Whatever calls came before, an upload that fails keeps all files and leaves at most directories on
the way to its destination; later calls that meet none of them are answered as if it had never been
made. -/
theorem failed_upload_unnoticed {settings : Settings.Storage} (isLocal : settings.driver = .local)
    (root : String) (earlier : List Asked) (spelling : String) (number : Nat) (content : Content) :
    let b := (Backend.opened settings root).1.led earlier
    let b' := (b.upload spelling number content).1
    ∀ e, (b.upload spelling number content).2.1 = .error e →
      Unused number b (.upload spelling content) →
      b'.disk.files = b.disk.files ∧
        (∀ p, b.disk.Extra b'.disk p →
          ∃ key, Key.normalize spelling = .ok key ∧ p <+: (Local.pathOf key).dropLast) ∧
        ∀ later, b.Spared b' later → b'.replies later = b.replies later := by
  intro b b' e failed unused
  have start : (Backend.opened settings root).1.driver = .local := isLocal
  obtain ⟨driver, tidy⟩ := Backend.led_tidy start Disk.tidy_empty earlier
  obtain ⟨beside, extra⟩ := Backend.failed_upload driver tidy failed unused
  exact ⟨beside.disk.files, extra, beside.replies⟩

theorem Disk.not_overlong {d d' : Disk} {p : Path} (short : ∀ name ∈ p, isTooLong name = false) :
    ¬ d.Overlong d' p := by
  rintro ⟨above, name, below, rfl, _, long⟩
  rw [short name (by simp)] at long
  cases long

def unreadable : Content := ⟨[[7]], .broken "unreadable", false⟩

def scarred : Backend := ((Backend.opened {} "root").1.upload "a/b" 1 unreadable).1

/-- Uploads beside the directory and below it, and what is then read and deleted there. -/
theorem scarred_unnoticed :
    let later : List Asked := [⟨2, .upload "c" (.ofBytes [1])⟩, ⟨3, .upload "a/d" (.ofBytes [2])⟩,
      ⟨4, .open_ "a/./d"⟩, ⟨5, .delete "a/b"⟩]
    scarred.disk.directories = [["a"]] ∧
      scarred.replies later = (Backend.opened {} "root").1.replies later := by
  intro later
  have isLocal : ({} : Settings.Storage).driver = .local := rfl
  have failed : ((Backend.opened {} "root").1.upload "a/b" 1 unreadable).2.1 =
      .error (.io "unreadable") := by decide +kernel
  obtain ⟨_, _, unnoticed⟩ := failed_upload_unnoticed isLocal "root" [] "a/b" 1 unreadable _ failed
    fun _ _ => rfl
  refine ⟨by decide +kernel, unnoticed later ⟨?_, ?_, ?_, ?_, trivial⟩⟩
  · intro key accepted
    obtain rfl : "c" = key := Except.ok.inj accepted
    decide +kernel
  · intro key accepted
    obtain rfl : "a/d" = key := Except.ok.inj accepted
    decide +kernel
  · intro key accepted
    obtain rfl : "a/d" = key := Except.ok.inj accepted
    exact ⟨by decide +kernel, Disk.not_overlong (by decide +kernel)⟩
  · intro key accepted
    obtain rfl : "a/b" = key := Except.ok.inj accepted
    exact ⟨by decide +kernel, Disk.not_overlong (by decide +kernel)⟩

def far : String := String.ofList (List.replicate 64 '𝄞')

theorem toList_below (name : List Char) :
    ("a/" ++ String.ofList name).toList = 'a' :: '/' :: name := by
  simp

theorem toList_far : ("a/" ++ far).toList = 'a' :: '/' :: List.replicate 64 '𝄞' :=
  toList_below _

theorem pieces_far : Key.pieces ("a/" ++ far).toList = [['a'], List.replicate 64 '𝄞'] := by
  rw [toList_far]
  decide +kernel

theorem normalize_far : Key.normalize ("a/" ++ far) = .ok ("a/" ++ far) := by
  have segments : Key.segments ("a/" ++ far).toList = [['a'], List.replicate 64 '𝄞'] := by
    rw [Key.segments, pieces_far]
    decide +kernel
  have joined : Key.canon ("a/" ++ far).toList = ("a/" ++ far).toList := by
    rw [Key.canon, segments, toList_far]
    decide +kernel
  refine Key.normalize_ok.mpr ⟨?_, ?_⟩
  · constructor
    · rw [toList_far]
      exact List.cons_ne_nil _ _
    · rw [String.ofList_toList]
      decide +kernel
    · rw [toList_far]
      decide
    · rw [toList_far]
      decide +kernel
    · rw [pieces_far]
      decide +kernel
    · rw [segments]
      exact List.cons_ne_nil _ _
    · rw [segments]
      exact Nat.le_of_ble_eq_true rfl
  · rw [joined, String.ofList_toList]

theorem pathOf_far : Local.pathOf ("a/" ++ far) = ["a", far] := by
  rw [Local.pathOf, pieces_far]
  rfl

theorem Local.size_error {d : Disk} {spelling key : String} {fault : Disk.Fault}
    (accepted : Key.normalize spelling = .ok key)
    (gone : d.entry (Local.pathOf key) = .error fault) :
    Local.size d spelling = .error (Local.failure key fault) := by
  simp only [Local.size, Local.canonical_ok.mpr accepted, bind, Except.bind, gone]
  rfl

/-- What tells: an object named as the directory that is left, that directory itself, a name below it
that is too long, and names of staging files that are taken. -/
theorem scarred_noticed :
    let b := (Backend.opened {} "root").1
    let staged := (b.upload ".a.0000000000000001.part" 2 (.ofBytes [1])).1
    let blocked := (b.upload ".a.0000000000000002.part/b" 1 unreadable).1
    (b.upload "a/b" 1 unreadable).2.1 = .error (.io "unreadable") ∧
      ((b.upload "a" 2 (.ofBytes [1])).2.1 = .ok "a" ∧
        (scarred.upload "a" 2 (.ofBytes [1])).2.1 = .error (.io Disk.Fault.isDirectory.message)) ∧
      (b.open_ "a" = .error (.missing "a") ∧
        scarred.open_ "a" = .ok (.error (.io Disk.Fault.isDirectory.message))) ∧
      ((b.delete "a").2 = .error (.missing "a") ∧
        (scarred.delete "a").2 = .error (.io Disk.Fault.isDirectory.message)) ∧
      (b.size ("a/" ++ far) = .error (.missing ("a/" ++ far)) ∧
        scarred.size ("a/" ++ far) = .error (.io Disk.Fault.nameTooLong.message)) ∧
      ((b.upload "a" 2 (.ofBytes [1])).2.1 = .ok "a" ∧
        (blocked.upload "a" 2 (.ofBytes [1])).2.1 = .error (.io Disk.Fault.isDirectory.message)) ∧
      (staged.open_ ".a.0000000000000001.part" = .ok (.ok [1]) ∧
        (staged.upload "a" 1 unreadable).1.open_ ".a.0000000000000001.part" =
          .error (.missing ".a.0000000000000001.part")) := by
  intro b staged blocked
  have failed : (b.upload "a/b" 1 unreadable).2.1 = .error (.io "unreadable") := by
    decide +kernel
  obtain ⟨beside, _⟩ := Backend.failed_upload rfl Disk.tidy_empty failed fun _ _ => rfl
  have overlong : b.disk.Overlong scarred.disk ["a", far] :=
    ⟨["a"], far, [], rfl, by decide +kernel, by decide +kernel⟩
  obtain ⟨missing, tooLong⟩ := beside.disk.entry_overlong overlong
  refine ⟨failed, ?_, ?_, ?_, ⟨?_, ?_⟩, ?_, ?_⟩
  · decide +kernel
  · decide +kernel
  · decide +kernel
  · exact Local.size_error normalize_far (pathOf_far ▸ missing)
  · exact Local.size_error normalize_far (pathOf_far ▸ tooLong)
  · decide +kernel
  · decide +kernel

end DiagramShare.Storage
