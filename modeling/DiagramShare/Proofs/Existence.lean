import DiagramShare.Proofs.Residue

/-! Whether an object is there. Of a key under which a file is stored, opening, asking for the size and
deleting all succeed. Of any other key all three say that the object is missing, unless the path of the
key is a directory or runs through a file. -/
namespace DiagramShare.Storage

namespace Disk

variable {d : Disk} {p here rest : Path}

/-- A path that goes on below a file. -/
def Blocked (d : Disk) (p : Path) : Prop :=
  ∃ above name below content, p = above ++ name :: below ∧ d.file? above = some content

theorem Tidy.entry_blocked (h : d.Tidy) (blocked : d.Blocked p) :
    d.entry p = .error .notDirectory := by
  obtain ⟨above, name, below, content, rfl, found⟩ := blocked
  obtain ⟨⟨parent, last, rfl, directory, short⟩, other⟩ := h.stands found
  have split : parent ++ [last] ++ name :: below = parent ++ last :: name :: below := by simp
  rw [split, h.entry_append directory]
  simp [follow, short, other, found]

theorem follow_absent (short : ∀ name ∈ rest, isTooLong name = false)
    (other : d.isDirectory (here ++ rest) = false) (free : d.file? (here ++ rest) = none)
    (start : d.isDirectory here = true) (clear : ¬ d.Blocked (here ++ rest)) :
    d.follow here rest = .error .missing := by
  induction rest generalizing here with
  | nil => simp [start] at other
  | cons name rest ih =>
    rw [List.append_cons] at other free clear
    have fits := short name List.mem_cons_self
    have later : ∀ name ∈ rest, isTooLong name = false :=
      fun name listed => short name (List.mem_cons_of_mem _ listed)
    cases next : d.isDirectory (here ++ [name]) with
    | true => simpa [follow, fits, next] using ih later other free next clear
    | false =>
      cases found : d.file? (here ++ [name]) with
      | none => simp [follow, fits, next, found]
      | some content =>
        cases rest with
        | nil => simp [found] at free
        | cons second rest => exact absurd ⟨_, second, rest, content, rfl, found⟩ clear

theorem entry_absent (short : ∀ name ∈ p, isTooLong name = false)
    (other : d.isDirectory p = false) (free : d.file? p = none) (clear : ¬ d.Blocked p) :
    d.entry p = .error .missing := by
  apply follow_absent short
  · simpa using other
  · simpa using free
  · exact isDirectory_root
  · simpa using clear

end Disk

namespace Local

variable {d : Disk} {spelling key : String}

theorem open_entry (accepted : Key.normalize spelling = .ok key) :
    open_ d spelling = match d.entry (pathOf key) with
      | .ok .directory => .ok (.error (.io Disk.Fault.isDirectory.message))
      | .ok (.file content) => .ok (.ok content)
      | .error fault => .error (failure key fault) := by
  simp only [open_, canonical_ok.mpr accepted, bind, Except.bind]
  cases d.entry (pathOf key) with
  | error fault => rfl
  | ok entry => cases entry <;> rfl

theorem size_entry (accepted : Key.normalize spelling = .ok key) :
    size d spelling = match d.entry (pathOf key) with
      | .ok .directory => .error (.missing key)
      | .ok (.file content) => .ok content.length
      | .error fault => .error (failure key fault) := by
  simp only [size, canonical_ok.mpr accepted, bind, Except.bind]
  cases d.entry (pathOf key) with
  | error fault => rfl
  | ok entry => cases entry <;> rfl

theorem delete_entry (accepted : Key.normalize spelling = .ok key) :
    (delete d spelling).2 = match d.entry (pathOf key) with
      | .ok .directory => .error (.io Disk.Fault.isDirectory.message)
      | .ok (.file _) => .ok ()
      | .error fault => .error (failure key fault) := by
  simp only [delete, canonical_ok.mpr accepted, Disk.remove]
  cases d.entry (pathOf key) with
  | error fault => rfl
  | ok entry => cases entry <;> rfl

end Local

/-- What opening an object, asking for its size and deleting it answer. -/
def Backend.answers (b : Backend) (spelling : String) :
    Except Failure (Except Failure Bytes) × Except Failure Nat × Except Failure Unit :=
  (b.open_ spelling, b.size spelling, (b.delete spelling).2)

def allFailing (e : Failure) :
    Except Failure (Except Failure Bytes) × Except Failure Nat × Except Failure Unit :=
  (.error e, .error e, .error e)

def aboutDirectory (key : String) :
    Except Failure (Except Failure Bytes) × Except Failure Nat × Except Failure Unit :=
  (.ok (.error (.io Disk.Fault.isDirectory.message)), .error (.missing key),
    .error (.io Disk.Fault.isDirectory.message))

theorem Backend.answers_entry {b : Backend} (isLocal : b.driver = .local) {spelling key : String}
    (accepted : Key.normalize spelling = .ok key) :
    b.answers spelling = match b.disk.entry (Local.pathOf key) with
      | .ok .directory => aboutDirectory key
      | .ok (.file content) => (.ok (.ok content), .ok content.length, .ok ())
      | .error fault => allFailing (Local.failure key fault) := by
  simp only [answers, open_, size, isLocal, delete_local isLocal, Local.open_entry accepted,
    Local.size_entry accepted, Local.delete_entry accepted]
  cases b.disk.entry (Local.pathOf key) with
  | error fault => rfl
  | ok entry => cases entry <;> rfl

/-- Whatever calls came before, what is stored under a key is opened, measured and deleted. Where
nothing is stored, all three questions find the object missing just where its path neither is a
directory nor runs through a file. -/
theorem answers_agree {settings : Settings.Storage} (isLocal : settings.driver = .local)
    (root : String) (earlier : List Asked) {spelling key : String}
    (accepted : Key.normalize spelling = .ok key)
    (short : ∀ name ∈ Local.pathOf key, Disk.isTooLong name = false) :
    let b := (Backend.opened settings root).1.led earlier
    let path := Local.pathOf key
    (∀ content, b.disk.file? path = some content →
      b.answers spelling = (.ok (.ok content), .ok content.length, .ok ())) ∧
    (b.disk.file? path = none →
      (b.answers spelling = allFailing (.missing key) ↔
        b.disk.isDirectory path = false ∧ ¬ b.disk.Blocked path) ∧
      (b.disk.isDirectory path = true → b.answers spelling = aboutDirectory key) ∧
      (b.disk.Blocked path →
        b.answers spelling = allFailing (.io Disk.Fault.notDirectory.message))) := by
  intro b path
  have start : (Backend.opened settings root).1.driver = .local := isLocal
  obtain ⟨driver, tidy⟩ := Backend.led_tidy start Disk.tidy_empty earlier
  have answers := Backend.answers_entry driver accepted
  have directory : b.disk.isDirectory path = true → b.answers spelling = aboutDirectory key := by
    intro there
    rw [answers, tidy.entry_directory there]
  have through : b.disk.Blocked path →
      b.answers spelling = allFailing (.io Disk.Fault.notDirectory.message) := by
    intro blocked
    rw [answers, tidy.entry_blocked blocked]
    rfl
  constructor
  · intro content found
    rw [answers, tidy.entry_file found]
  · intro free
    refine ⟨⟨fun missing => ⟨?_, fun blocked => ?_⟩, fun ⟨other, clear⟩ => ?_⟩, directory, through⟩
    · rw [← Bool.not_eq_true]
      intro there
      simp [directory there, aboutDirectory, allFailing] at missing
    · simp [through blocked, allFailing] at missing
    · rw [answers, Disk.entry_absent short other free clear]
      rfl

def nested : List Asked := [⟨1, .upload "a/b" (.ofBytes [7])⟩]

theorem nested_answers_agree :
    let b := (Backend.opened {} "root").1.led nested
    b.answers "a//b" = (.ok (.ok [7]), .ok 1, .ok ()) ∧
      b.answers "c/./d" = allFailing (.missing "c/d") := by
  intro b
  have isLocal : ({} : Settings.Storage).driver = .local := rfl
  have stored : Key.normalize "a//b" = .ok "a/b" := by decide
  have absent : Key.normalize "c/./d" = .ok "c/d" := by decide
  obtain ⟨there, _⟩ := answers_agree isLocal "root" nested stored (by decide +kernel)
  obtain ⟨_, gone⟩ := answers_agree isLocal "root" nested absent (by decide +kernel)
  obtain ⟨missing, _⟩ := gone (by decide +kernel)
  refine ⟨there [7] (by decide +kernel), missing.mpr ⟨by decide +kernel, ?_⟩⟩
  rintro ⟨above, name, below, content, split, found⟩
  have files : b.disk.files = [(["a", "b"], [7])] := by decide +kernel
  have path : Local.pathOf "c/d" = ["c", "d"] := by decide
  rw [path] at split
  rw [Disk.file?, files] at found
  simp only [List.lookup_cons, List.lookup_nil] at found
  split at found
  · rename_i same
    rw [eq_of_beq same] at split
    simp at split
  · cases found

/-- No file is stored under the keys of a directory and of a path through a file; yet the directory is
opened, and the other questions fail for other reasons than that the object is missing. -/
theorem nested_answers_disagree :
    let b := (Backend.opened {} "root").1.led nested
    (Key.normalize "a" = .ok "a" ∧ b.disk.file? (Local.pathOf "a") = none ∧
      b.open_ "a" = .ok (.error (.io Disk.Fault.isDirectory.message)) ∧
      b.size "a" = .error (.missing "a") ∧
      (b.delete "a").2 = .error (.io Disk.Fault.isDirectory.message)) ∧
    (Key.normalize "a/b/c" = .ok "a/b/c" ∧ b.disk.file? (Local.pathOf "a/b/c") = none ∧
      b.answers "a/b/c" = allFailing (.io Disk.Fault.notDirectory.message)) := by
  decide +kernel

end DiagramShare.Storage
