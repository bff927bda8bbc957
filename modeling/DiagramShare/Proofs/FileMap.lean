import DiagramShare.Proofs.Uploads
import DiagramShare.Storage.Call

/-! A tree of files as a map. The calls that succeed say what the storage holds: contents by canonical
keys. The files are just these, an upload that is running or has failed leaves its destination as it
was, and every spelling of a key finds what is held under it. -/
namespace DiagramShare.Storage

/-- Contents by canonical keys. -/
abbrev Objects := String → Option Bytes

namespace Objects

def nothing : Objects := fun _ => none

def set (objects : Objects) (key : String) (value : Option Bytes) : Objects := fun k =>
  if k = key then value else objects k

/-- What is held once a call has been answered. A content counts as a whole, and a call that failed
does not count. -/
def after (objects : Objects) : Call α → Except Failure α → Objects
  | .upload spelling content, .ok _ => fun key =>
    if Key.normalize spelling = .ok key then content.whole? else objects key
  | .delete spelling, .ok _ => fun key =>
    if Key.normalize spelling = .ok key then none else objects key
  | _, _ => objects

theorem after_accepted (objects : Objects) {spelling key : String} (value : Option Bytes)
    (accepted : Key.normalize spelling = .ok key) :
    (fun k => if Key.normalize spelling = .ok k then value else objects k) =
      objects.set key value := by
  funext k
  simp [set, accepted, eq_comm]

end Objects

/-- The file that a call would stage its content in is not there. -/
def Unused (number : Nat) (b : Backend) : Call α → Prop
  | .upload spelling _ => ∀ key, Key.normalize spelling = .ok key →
    b.disk.file? (Local.stagingPath (Local.pathOf key) number) = none
  | _ => True

/-- What calls make of a storage with nothing in it. The names of staging files are unused when they
are drawn. -/
inductive Holding (settings : Settings.Storage) (root : String) : Objects → Backend → Prop where
  | opened : Holding settings root Objects.nothing (Backend.opened settings root).1
  | answered {objects : Objects} {b : Backend} {α : Type} (before : Holding settings root objects b)
      (call : Call α) (number : Nat) (unused : Unused number b call) :
      Holding settings root (objects.after call (b.answer number call).2.1)
        (b.answer number call).1

/-- The tidy tree in which each object lies at its place, and no other file. -/
structure Disk.Keeps (d : Disk) (objects : Objects) : Prop where
  tidy : d.Tidy
  held : ∀ key, d.file? (Local.pathOf key) = objects key
  placed : ∀ p content, d.file? p = some content →
    ∃ key, Key.normalize key = .ok key ∧ p = Local.pathOf key

namespace Disk.Keeps

variable {d d' : Disk} {objects : Objects} {key : String}

theorem empty : Disk.empty.Keeps Objects.nothing := ⟨tidy_empty, fun _ => rfl, nofun⟩

theorem same (h : d.Keeps objects) (tidy : d'.Tidy) (files : ∀ p, d'.file? p = d.file? p) :
    d'.Keeps objects := by
  constructor
  · exact tidy
  · exact fun key => (files _).trans (h.held key)
  · exact fun p content found => h.placed p content ((files p).symm.trans found)

theorem set {value : Option Bytes} (h : d.Keeps objects) (tidy : d'.Tidy)
    (canonical : Key.normalize key = .ok key)
    (files : ∀ p, d'.file? p = if p = Local.pathOf key then value else d.file? p) :
    d'.Keeps (objects.set key value) := by
  constructor
  · exact tidy
  · intro k
    rw [files, Objects.set, h.held]
    by_cases here : k = key
    · simp [here]
    · rw [if_neg here, if_neg fun same => here (Key.pathOf_injective same)]
  · intro p content found
    rw [files] at found
    by_cases here : p = Local.pathOf key
    · exact ⟨key, canonical, here⟩
    · rw [if_neg here] at found
      exact h.placed p content found

theorem canonical (h : d.Keeps objects) {content : Bytes} (held : objects key = some content) :
    Key.normalize key = .ok key := by
  obtain ⟨k, accepted, same⟩ := h.placed _ content ((h.held key).trans held)
  rw [Key.pathOf_injective same]
  exact accepted

theorem upload (h : d.Keeps objects) (root spelling : String) (number : Nat) (content : Content)
    (unused : ∀ key, Key.normalize spelling = .ok key →
      d.file? (Local.stagingPath (Local.pathOf key) number) = none) :
    (Local.upload root d spelling number content).1.Keeps
      (objects.after (.upload spelling content)
        (Local.upload root d spelling number content).2.1) := by
  rcases Local.upload_cases h.tidy root spelling number content with
    ⟨e, records, same⟩ | ⟨key, x, result, records, accepted, begun, outcome, same⟩
  · rw [same]
    exact h
  · rw [same]
    have free := unused key accepted
    cases result with
    | error e => exact h.same outcome.tidy (outcome.failed free).file
    | ok =>
      have whole : content.whole? = some content.bytes := outcome.whole begun
      have canonical := Key.normalize_canonical accepted
      have kept := h.set outcome.tidy canonical (outcome.succeeded free)
      rw [← whole, ← objects.after_accepted _ accepted] at kept
      exact kept

theorem delete (h : d.Keeps objects) (spelling : String) :
    (Local.delete d spelling).1.Keeps
      (objects.after (.delete spelling) (Local.delete d spelling).2) := by
  rcases Local.delete_cases d spelling with ⟨e, same⟩ | ⟨key, accepted, same⟩
  · rw [same]
    exact h
  · rw [same]
    have canonical := Key.normalize_canonical accepted
    have kept := h.set (h.tidy.erase _) canonical fun p => Disk.file_erase
    rw [← objects.after_accepted _ accepted] at kept
    exact kept

end Disk.Keeps

namespace Backend

variable {b : Backend} {objects : Objects} {settings : Settings.Storage} {root : String}

theorem upload_local (isLocal : b.driver = .local) (spelling : String) (number : Nat)
    (content : Content) :
    b.upload spelling number content =
      ({ b with disk := (Local.upload b.root b.disk spelling number content).1 },
        (Local.upload b.root b.disk spelling number content).2) := by
  unfold upload
  rw [isLocal]

theorem delete_local (isLocal : b.driver = .local) (spelling : String) :
    b.delete spelling =
      ({ b with disk := (Local.delete b.disk spelling).1 }, (Local.delete b.disk spelling).2) := by
  unfold delete
  rw [isLocal]

theorem answer_same (b : Backend) (number : Nat) (call : Call α) :
    (b.answer number call).1.settings = b.settings ∧ (b.answer number call).1.root = b.root := by
  cases call with
  | upload key content =>
    simp only [answer, upload]
    cases b.driver <;> cases Local.canonical key <;> exact ⟨rfl, rfl⟩
  | delete key =>
    simp only [answer, delete]
    cases b.driver <;> exact ⟨rfl, rfl⟩
  | _ => exact ⟨rfl, rfl⟩

theorem answer_local (isLocal : b.driver = .local) (number : Nat) (call : Call α) :
    (b.answer number call).1.driver = .local := by
  rw [driver, (b.answer_same number call).1]
  exact isLocal

theorem answer_keeps (isLocal : b.driver = .local) (h : b.disk.Keeps objects) (number : Nat)
    (call : Call α) (unused : Unused number b call) :
    (b.answer number call).1.disk.Keeps (objects.after call (b.answer number call).2.1) := by
  cases call with
  | upload spelling content =>
    simp only [answer, upload_local isLocal]
    exact h.upload b.root spelling number content unused
  | delete spelling =>
    simp only [answer, delete_local isLocal]
    exact h.delete spelling
  | _ => exact h

end Backend

theorem Holding.keeps {objects : Objects} {b : Backend} {settings : Settings.Storage}
    {root : String} (isLocal : settings.driver = .local) (h : Holding settings root objects b) :
    b.driver = .local ∧ b.disk.Keeps objects := by
  induction h with
  | opened => exact ⟨isLocal, .empty⟩
  | @answered objects b α before call number unused ih =>
    obtain ⟨driver, kept⟩ := ih
    constructor
    · exact b.answer_local driver number call
    · exact b.answer_keeps driver kept number call unused

theorem Local.open_ok {d : Disk} {spelling : String} {content : Bytes} :
    Local.open_ d spelling = .ok (.ok content) ↔
      ∃ key, Key.normalize spelling = .ok key ∧
        d.entry (Local.pathOf key) = .ok (.file content) := by
  simp only [← Local.canonical_ok, Local.open_]
  cases Local.canonical spelling with
  | error e => simp [bind, Except.bind]
  | ok key =>
    simp only [bind, Except.bind, Except.ok.injEq, exists_eq_left']
    cases d.entry (Local.pathOf key) with
    | error fault => simp [throw, throwThe, MonadExceptOf.throw]
    | ok entry => cases entry <;> simp [pure, Except.pure]

theorem Local.size_ok {d : Disk} {spelling : String} {size : Nat} :
    Local.size d spelling = .ok size ↔
      ∃ key content, Key.normalize spelling = .ok key ∧
        d.entry (Local.pathOf key) = .ok (.file content) ∧ content.length = size := by
  simp only [← Local.canonical_ok, Local.size]
  cases Local.canonical spelling with
  | error e => simp [bind, Except.bind]
  | ok key =>
    simp only [bind, Except.bind, Except.ok.injEq, exists_and_left, exists_eq_left']
    cases d.entry (Local.pathOf key) with
    | error fault => simp [throw, throwThe, MonadExceptOf.throw]
    | ok entry => cases entry <;> simp [pure, Except.pure, throw, throwThe, MonadExceptOf.throw]

/-- A tree of files that is a map from keys to contents. -/
structure FileMap (objects : Objects) (b : Backend) : Prop where
  once : (b.disk.files.map Prod.fst).Nodup
  files : ∀ path content, (path, content) ∈ b.disk.files ↔
    ∃ key, objects key = some content ∧ path = Local.pathOf key
  canonical : ∀ key content, objects key = some content → Key.normalize key = .ok key
  opens : ∀ spelling content, b.open_ spelling = .ok (.ok content) ↔
    ∃ key, Key.normalize spelling = .ok key ∧ objects key = some content
  sizes : ∀ spelling size, b.size spelling = .ok size ↔
    ∃ key content, Key.normalize spelling = .ok key ∧ objects key = some content ∧
      content.length = size

/-- An upload that does no harm. It leaves the destination alone until it is done, all files if it
fails, and no staging file; if it succeeds, then with the whole content. -/
structure SafeUpload (objects : Objects) (b : Backend) (spelling : String) (number : Nat)
    (content : Content) : Prop where
  running : ∀ key, Key.normalize spelling = .ok key →
    ∀ d ∈ (Local.uploadStates b.root b.disk spelling number content).1.running,
      d.file? (Local.pathOf key) = objects key
  failed : ∀ e, (b.upload spelling number content).2.1 = .error e →
    ∀ path, (b.upload spelling number content).1.disk.file? path = b.disk.file? path
  succeeded : ∀ key, (b.upload spelling number content).2.1 = .ok key →
    Key.normalize spelling = .ok key ∧ content.whole? = some content.bytes
  removed : ∀ key, Key.normalize spelling = .ok key →
    (b.upload spelling number content).1.disk.file?
      (Local.stagingPath (Local.pathOf key) number) = none

namespace Disk.Keeps

variable {b : Backend} {objects : Objects}

theorem file_iff (h : b.disk.Keeps objects) {p : Path} {content : Bytes} :
    b.disk.file? p = some content ↔ ∃ key, objects key = some content ∧ p = Local.pathOf key := by
  constructor
  · intro found
    obtain ⟨key, _, rfl⟩ := h.placed p content found
    exact ⟨key, (h.held key).symm.trans found, rfl⟩
  · rintro ⟨key, held, rfl⟩
    exact (h.held key).trans held

theorem fileMap (h : b.disk.Keeps objects) (isLocal : b.driver = .local) : FileMap objects b := by
  constructor
  · exact h.tidy.single
  · intro path content
    rw [← h.tidy.file_iff, h.file_iff]
  · exact fun key content held => h.canonical held
  · intro spelling content
    simp only [Backend.open_, isLocal, ← h.held, ← h.tidy.entry_eq_file, Local.open_ok]
  · intro spelling size
    simp only [Backend.size, isLocal, ← h.held, ← h.tidy.entry_eq_file, Local.size_ok]

theorem running (h : b.disk.Keeps objects) (root : String) {spelling key : String} {number : Nat}
    {content : Content} (accepted : Key.normalize spelling = .ok key) {d : Disk}
    (listed : d ∈ (Local.uploadStates root b.disk spelling number content).1.running) :
    d.file? (Local.pathOf key) = objects key := by
  obtain ⟨k, accepted', later⟩ := Local.running_place listed
  obtain rfl : k = key := Except.ok.inj (accepted'.symm.trans accepted)
  obtain ⟨made, grown, during⟩ := Local.uploadTo_running h.tidy later
  have other := Local.stagingPath_ne (Key.pathOf_ne_nil k) number
  rw [during.file other.symm, grown.file, h.held]

theorem safeUpload (h : b.disk.Keeps objects) (isLocal : b.driver = .local) {spelling : String}
    {number : Nat} {content : Content} (unused : Unused number b (.upload spelling content)) :
    SafeUpload objects b spelling number content := by
  have running : ∀ key, Key.normalize spelling = .ok key →
      ∀ d ∈ (Local.uploadStates b.root b.disk spelling number content).1.running,
        d.file? (Local.pathOf key) = objects key :=
    fun _ accepted _ listed => h.running b.root accepted listed
  have done := Backend.upload_local isLocal spelling number content
  rcases Local.upload_cases h.tidy b.root spelling number content with
    ⟨e, records, same⟩ | ⟨k, x, result, records, accepted, begun, outcome, same⟩
  · rw [same] at done
    refine ⟨running, ?_, ?_, ?_⟩
    · exact fun _ _ path => by rw [done]
    · intro key succeeded
      rw [done] at succeeded
      cases succeeded
    · intro key accepted
      rw [done]
      exact unused key accepted
  · rw [same] at done
    have free := unused k accepted
    refine ⟨running, ?_, ?_, ?_⟩
    · intro e failed path
      rw [done] at failed ⊢
      cases result with
      | ok => cases failed
      | error e => exact (outcome.failed free).file path
    · intro key succeeded
      rw [done] at succeeded
      cases result with
      | error e => cases succeeded
      | ok =>
        cases succeeded
        exact ⟨accepted, outcome.whole begun⟩
    · intro key accepted'
      obtain rfl : k = key := Except.ok.inj (accepted.symm.trans accepted')
      rw [done]
      cases result with
      | error e => exact ((outcome.failed free).file _).trans free
      | ok =>
        change x.file? _ = none
        rw [outcome.succeeded free, if_neg (Local.stagingPath_ne (Key.pathOf_ne_nil k) number)]
        exact free

end Disk.Keeps

/-- The storage is a map of files, after any calls and whatever is uploaded next. -/
theorem Holding.isFileMap {objects : Objects} {b : Backend} {settings : Settings.Storage}
    {root : String} (h : Holding settings root objects b) (isLocal : settings.driver = .local) :
    FileMap objects b ∧ ∀ spelling number content, Unused number b (.upload spelling content) →
      SafeUpload objects b spelling number content := by
  obtain ⟨driver, kept⟩ := h.keeps isLocal
  exact ⟨kept.fileMap driver, fun _ _ _ unused => kept.safeUpload driver unused⟩

def shelf : Backend :=
  let first : Call String := .upload "notes//a" ⟨[[1], [2, 3]], .complete, false⟩
  let second : Call String := .upload "notes/./a" ⟨[[9]], .cancelled, false⟩
  ((Backend.opened {} "root").1.answer 1 first).1.answer 2 second |>.1

theorem shelf_holding : ∃ objects : Objects,
    objects "notes/a" = some [1, 2, 3] ∧ Holding {} "root" objects shelf := by
  have start : Holding {} "root" Objects.nothing (Backend.opened {} "root").1 := .opened
  have first := start.answered (.upload "notes//a" ⟨[[1], [2, 3]], .complete, false⟩) 1
    fun _ _ => rfl
  have second := first.answered (.upload "notes/./a" ⟨[[9]], .cancelled, false⟩) 2 (by
    intro key accepted
    obtain rfl : "notes/a" = key := Except.ok.inj accepted
    decide)
  exact ⟨_, by decide, second⟩

/-- The object is still there, under each spelling of its key, and stays there through an upload that
cannot be read to its end. -/
theorem shelf_isFileMap : ∃ objects, FileMap objects shelf ∧
    shelf.open_ "./notes/a" = .ok (.ok [1, 2, 3]) ∧ shelf.size "notes/a/." = .ok 3 ∧
    SafeUpload objects shelf "notes/a" 3 ⟨[[7]], .broken "unreadable", false⟩ := by
  obtain ⟨objects, held, holding⟩ := shelf_holding
  obtain ⟨map, safe⟩ := holding.isFileMap rfl
  refine ⟨objects, map, ?_, ?_, safe _ _ _ ?_⟩
  · exact (map.opens _ _).mpr ⟨"notes/a", by decide, held⟩
  · exact (map.sizes _ _).mpr ⟨"notes/a", _, by decide, held, rfl⟩
  · intro key accepted
    obtain rfl : "notes/a" = key := Except.ok.inj accepted
    decide

end DiagramShare.Storage
