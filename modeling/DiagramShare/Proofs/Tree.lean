import DiagramShare.Storage.Disk
import Mathlib.Data.List.Induction
import Mathlib.Data.List.Nodup

/-! Trees of files. In a tidy tree everything stands in a directory under a name that is not too long,
and nothing is both a directory and a file. Following the path of a directory or of a file then leads
to it, and every change that the storage makes keeps the tree tidy. -/
namespace DiagramShare.Storage.Disk

variable {d : Disk} {p q here rest : Path} {name : String} {content : Bytes}

theorem isDirectory_iff : d.isDirectory p = true ↔ p = [] ∨ p ∈ d.directories := by
  simp [isDirectory]

@[simp] theorem isDirectory_root : d.isDirectory [] = true := rfl

@[simp] theorem isDirectory_write : (d.write q content).isDirectory p = d.isDirectory p := rfl

theorem lookup_without (files : List (Path × Bytes)) (p q : Path) :
    (without files q).lookup p = if p = q then none else files.lookup p := by
  induction files with
  | nil => simp [without]
  | cons f files ih =>
    obtain ⟨r, content⟩ := f
    unfold without at ih ⊢
    by_cases gone : r = q
    · subst gone
      simp only [List.filter_cons, bne_self_eq_false, Bool.false_eq_true, if_false, ih,
        List.lookup_cons]
      by_cases here : p = r
      · simp [here]
      · simp [here, beq_eq_false_iff_ne.mpr here]
    · simp only [List.filter_cons, bne_iff_ne, ne_eq, gone, not_false_eq_true, if_true,
        List.lookup_cons, ih]
      by_cases here : p = r
      · simp [here, gone]
      · simp [beq_eq_false_iff_ne.mpr here]

theorem file_write : (d.write q content).file? p = if p = q then some content else d.file? p := by
  rw [file?, write, List.lookup_append, lookup_without, List.lookup_cons]
  by_cases here : p = q
  · simp [here]
  · simp [here, beq_eq_false_iff_ne.mpr here, file?]

theorem file_erase : (d.erase q).file? p = if p = q then none else d.file? p :=
  lookup_without d.files p q

theorem without_absent {files : List (Path × Bytes)} (absent : files.lookup p = none) :
    without files p = files := by
  rw [without, List.filter_eq_self]
  intro f listed
  have other := List.lookup_eq_none_iff.mp absent f listed
  rw [bne_iff_ne]
  rintro same
  simp [same] at other

theorem erase_absent (absent : d.file? p = none) : d.erase p = d := by
  rw [erase, without_absent absent]

theorem write_write (d : Disk) (p : Path) (first second : Bytes) :
    (d.write p first).write p second = d.write p second := by
  simp [write, without, List.filter_append, List.filter_filter]

theorem erase_write (d : Disk) (p : Path) (content : Bytes) :
    (d.write p content).erase p = d.erase p := by
  simp [write, erase, without, List.filter_append, List.filter_filter]

def Stands (d : Disk) (p : Path) : Prop :=
  ∃ parent name, p = parent ++ [name] ∧ d.isDirectory parent = true ∧ isTooLong name = false

/-- Everything has a place in a directory, directories are no files, and a path has one file. -/
structure Tidy (d : Disk) : Prop where
  directories : ∀ p ∈ d.directories, d.Stands p
  files : ∀ f ∈ d.files, d.Stands f.1 ∧ d.isDirectory f.1 = false
  single : (d.files.map Prod.fst).Nodup

theorem tidy_empty : Disk.empty.Tidy := ⟨nofun, nofun, List.nodup_nil⟩

namespace Tidy

theorem file_iff (h : d.Tidy) : d.file? p = some content ↔ (p, content) ∈ d.files := by
  constructor
  · intro found
    obtain ⟨before, after, whole, _⟩ := List.lookup_eq_some_iff.mp found
    rw [whole]
    exact List.mem_append_right _ List.mem_cons_self
  · intro stored
    obtain ⟨before, after, whole⟩ := List.append_of_mem stored
    refine List.lookup_eq_some_iff.mpr ⟨before, after, whole, fun f earlier => ?_⟩
    have single := h.single
    rw [whole, List.map_append, List.nodup_append] at single
    rw [bne_iff_ne]
    exact (single.2.2 f.1 (List.mem_map_of_mem earlier) p (by simp)).symm

theorem parent (h : d.Tidy) (there : d.isDirectory (p ++ [name]) = true) :
    d.isDirectory p = true ∧ isTooLong name = false := by
  rcases isDirectory_iff.mp there with root | listed
  · simp at root
  · obtain ⟨parent, last, same, directory, short⟩ := h.directories _ listed
    obtain ⟨rfl, rfl⟩ := List.append_singleton_inj.mp same
    exact ⟨directory, short⟩

theorem above (h : d.Tidy) (there : d.isDirectory (p ++ q) = true) : d.isDirectory p = true := by
  induction q using List.reverseRecOn with
  | nil => simpa using there
  | append_singleton q name ih =>
    rw [← List.append_assoc] at there
    exact ih (h.parent there).1

theorem unfiled (h : d.Tidy) (there : d.isDirectory p = true) : d.file? p = none := by
  cases found : d.file? p with
  | none => rfl
  | some content =>
    have stored := h.file_iff.mp found
    rw [(h.files _ stored).2] at there
    cases there

theorem stands (h : d.Tidy) (found : d.file? p = some content) :
    d.Stands p ∧ d.isDirectory p = false := h.files _ (h.file_iff.mp found)

theorem follow_append (h : d.Tidy) (there : d.isDirectory (here ++ p) = true) (rest : Path) :
    d.follow here (p ++ rest) = d.follow (here ++ p) rest := by
  induction p generalizing here with
  | nil => simp
  | cons name p ih =>
    rw [List.append_cons] at there ⊢
    have next := h.above there
    simp only [List.cons_append, follow, (h.parent next).2, next, Bool.false_eq_true, if_false,
      if_true]
    exact ih there

theorem entry_append (h : d.Tidy) (there : d.isDirectory p = true) (rest : Path) :
    d.entry (p ++ rest) = d.follow p rest := by
  have start : d.isDirectory ([] ++ p) = true := there
  have followed := h.follow_append start rest
  rwa [List.nil_append] at followed

theorem entry_directory (h : d.Tidy) (there : d.isDirectory p = true) :
    d.entry p = .ok .directory := by
  have followed := h.entry_append there []
  rwa [List.append_nil] at followed

theorem entry_in (h : d.Tidy) (there : d.isDirectory p = true) (name : String) :
    d.entry (p ++ [name]) =
      if isTooLong name then .error .nameTooLong
      else if d.isDirectory (p ++ [name]) then .ok .directory
      else match d.file? (p ++ [name]) with
        | some content => .ok (.file content)
        | none => .error .missing := by
  rw [h.entry_append there, follow]
  cases d.file? (p ++ [name]) <;> rfl

theorem entry_file (h : d.Tidy) (found : d.file? p = some content) :
    d.entry p = .ok (.file content) := by
  obtain ⟨⟨parent, name, rfl, directory, short⟩, other⟩ := h.stands found
  simp [h.entry_in directory, short, other, found]

end Tidy

theorem follow_ok_file (found : d.follow here rest = .ok (.file content)) :
    d.file? (here ++ rest) = some content := by
  induction rest generalizing here with
  | nil => cases found
  | cons name rest ih =>
    simp only [follow] at found
    split at found
    · cases found
    · split at found
      · simpa using ih found
      · cases there : d.file? (here ++ [name]) with
        | none => simp [there] at found
        | some stored =>
          cases rest with
          | nil => simpa [there] using found
          | cons next rest => simp [there] at found

theorem Tidy.entry_eq_file (h : d.Tidy) :
    d.entry p = .ok (.file content) ↔ d.file? p = some content := by
  constructor
  · intro found
    simpa using follow_ok_file found
  · exact h.entry_file

theorem Stands.mono {d' : Disk} (h : d.Stands p)
    (kept : ∀ q, d.isDirectory q = true → d'.isDirectory q = true) : d'.Stands p := by
  obtain ⟨parent, name, same, directory, short⟩ := h
  exact ⟨parent, name, same, kept _ directory, short⟩

theorem isDirectory_grow : ({ d with directories := d.directories ++ [q] } : Disk).isDirectory p
    = true ↔ d.isDirectory p = true ∨ p = q := by
  simp only [isDirectory_iff, List.mem_append, List.mem_singleton, or_assoc]

namespace Tidy

theorem grow (h : d.Tidy) (place : d.Stands q) (free : d.file? q = none) :
    ({ d with directories := d.directories ++ [q] } : Disk).Tidy := by
  have kept : ∀ p, d.isDirectory p = true →
      ({ d with directories := d.directories ++ [q] } : Disk).isDirectory p = true :=
    fun p there => isDirectory_grow.mpr (.inl there)
  constructor
  · intro p listed
    rcases List.mem_append.mp listed with old | new
    · exact (h.directories p old).mono kept
    · rw [List.mem_singleton.mp new]
      exact place.mono kept
  · intro f stored
    obtain ⟨stands, other⟩ := h.files f stored
    refine ⟨stands.mono kept, ?_⟩
    rw [← Bool.not_eq_true, isDirectory_grow, not_or]
    refine ⟨by simp [other], ?_⟩
    rintro rfl
    rw [h.file_iff.mpr stored] at free
    cases free
  · exact h.single

theorem erase (h : d.Tidy) (p : Path) : (d.erase p).Tidy := by
  constructor
  · exact h.directories
  · exact fun f stored => h.files f (List.mem_filter.mp stored).1
  · exact h.single.sublist (List.filter_sublist.map _)

theorem write (h : d.Tidy) (place : d.Stands p) (other : d.isDirectory p = false)
    (content : Bytes) : (d.write p content).Tidy := by
  have cleared := h.erase p
  constructor
  · exact h.directories
  · intro f stored
    rcases List.mem_append.mp stored with old | new
    · exact cleared.files f old
    · rw [List.mem_singleton.mp new]
      exact ⟨place, other⟩
  · rw [Disk.write, List.map_append, List.nodup_append]
    refine ⟨cleared.single, List.nodup_singleton _, ?_⟩
    intro q old r new
    obtain ⟨f, stored, rfl⟩ := List.mem_map.mp old
    have kept := (List.mem_filter.mp stored).2
    rw [List.map_singleton, List.mem_singleton] at new
    rw [new]
    exact bne_iff_ne.mp kept

end Tidy

structure Grown (d d' : Disk) (way : Path) : Prop where
  files : d'.files = d.files
  kept : ∀ p, d.isDirectory p = true → d'.isDirectory p = true
  new : ∀ p, d'.isDirectory p = true → d.isDirectory p = true ∨ p <+: way

theorem Grown.refl (d : Disk) (way : Path) : d.Grown d way :=
  ⟨rfl, fun _ there => there, fun _ there => .inl there⟩

theorem Grown.file {d' : Disk} {way : Path} (h : d.Grown d' way) (p : Path) :
    d'.file? p = d.file? p := by rw [file?, file?, h.files]

theorem makeBelow_grown (h : d.Tidy) (start : d.isDirectory here = true) (rest : Path) :
    (d.makeBelow here rest).1.Tidy ∧ d.Grown (d.makeBelow here rest).1 (here ++ rest) ∧
      ((d.makeBelow here rest).2 = none →
        (d.makeBelow here rest).1.isDirectory (here ++ rest) = true) := by
  induction rest generalizing d here with
  | nil => exact ⟨h, .refl d _, fun _ => by simpa [makeBelow] using start⟩
  | cons name rest ih =>
    simp only [makeBelow]
    split
    · exact ⟨h, .refl d _, nofun⟩
    · rename_i short
      rw [Bool.not_eq_true] at short
      split
      · rename_i next
        rw [List.append_cons here name rest]
        exact ih h next
      · split
        · exact ⟨h, .refl d _, nofun⟩
        · rename_i free
          have absent : d.file? (here ++ [name]) = none := by simpa using free
          have grown := h.grow ⟨here, name, rfl, start, short⟩ absent
          obtain ⟨tidy, ⟨files, kept, new⟩, made⟩ := ih grown (isDirectory_grow.mpr (.inr rfl))
          rw [List.append_cons here name rest]
          refine ⟨tidy, ⟨files, fun p there => ?_, fun p there => ?_⟩, made⟩
          · exact kept p (isDirectory_grow.mpr (.inl there))
          · rcases new p there with before | way
            · rcases isDirectory_grow.mp before with old | rfl
              · exact .inl old
              · exact .inr (List.prefix_append _ _)
            · exact .inr way

theorem Tidy.create_in (h : d.Tidy) (there : d.isDirectory p = true) (name : String) :
    d.create (p ++ [name]) =
      if isTooLong name then .error .nameTooLong
      else if d.isDirectory (p ++ [name]) then .error .isDirectory
      else .ok (d.write (p ++ [name]) []) := by
  rw [create, h.entry_in there]
  by_cases long : isTooLong name = true
  · simp [long]
  · by_cases directory : d.isDirectory (p ++ [name]) = true
    · simp [long, directory]
    · cases found : d.file? (p ++ [name]) <;> simp [long, directory]

end DiagramShare.Storage.Disk
