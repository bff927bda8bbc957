import DiagramShare.Proofs.Existence
import Mathlib

/-! Folders of attachments. Where only attachments are uploaded, the tree has one folder for each
document, and an upload or a deletion for a document changes nothing outside its folder. The staging
files of uploads lie in the folder too, under names that no attachment has. -/
namespace DiagramShare.Storage

namespace Key

variable {document document' : Int} {name name' key : String}

theorem normalize_ofAsset_ok (accepted : normalize (ofAsset document name) = .ok key) :
    key = ofAsset document name := by
  rw [normalize_ofAsset] at accepted
  split at accepted
  · cases accepted
  · split at accepted <;> cases accepted
    rfl

theorem pathOf_ofAsset_inj : Local.pathOf (ofAsset document name) =
    Local.pathOf (ofAsset document' name') ↔ document = document' ∧ segment name = segment name' := by
  simp [pathOf_ofAsset, Int.repr_inj]

theorem ofAsset_eq_iff : ofAsset document name = ofAsset document' name' ↔
    document = document' ∧ segment name = segment name' :=
  ⟨fun same => pathOf_ofAsset_inj.mp (congrArg Local.pathOf same),
    fun same => pathOf_injective (pathOf_ofAsset_inj.mpr same)⟩

theorem ofAsset_apart (accepted : normalize (ofAsset document name) = .ok key)
    (accepted' : normalize (ofAsset document' name') = .ok key) :
    document = document' ∧ segment name = segment name' := by
  rw [← ofAsset_eq_iff, ← normalize_ofAsset_ok accepted, ← normalize_ofAsset_ok accepted']

/-- A name that stands for a file in the directory it is looked up in, and for nothing else. -/
structure IsFileName (name : String) : Prop where
  nonempty : name ≠ ""
  single : '/' ∉ name.toList
  here : name ≠ "."
  up : name ≠ ".."

theorem segment_isFileName (name : String) : IsFileName (segment name) := by
  obtain ⟨nonempty, single, shown⟩ := segment_isSegment name
  constructor
  · rintro empty
    simp [empty] at nonempty
  · exact fun slash => single '/' slash rfl
  · intro dot
    simp [dot] at shown
  · intro dots
    simp [dots] at shown

theorem stagingName_isFileName (name : String) (number : Nat) :
    IsFileName (Local.stagingName (segment name) number) := by
  have size := Local.utf8ByteSize_stagingName (segment name) number
  have long : ∀ short : String, short.utf8ByteSize ≤ 2 →
      Local.stagingName (segment name) number ≠ short := by
    rintro short few rfl
    omega
  constructor
  · exact long "" (by decide)
  · obtain ⟨_, digits⟩ := Local.tag_digits (P := fun c => c ≠ '/') (by decide) number
    change '/' ∉ ("." ++ segment name ++ "." ++ Local.tag number ++ ".part").toList
    simp only [String.toList_append, List.mem_append, not_or]
    refine ⟨⟨⟨⟨by decide, ?_⟩, by decide⟩, ?_⟩, by decide⟩
    · exact fun slash => (segment_isSegment name).single '/' slash rfl
    · exact fun slash => digits '/' slash rfl
  · exact long "." (by decide)
  · exact long ".." (by decide)

end Key

namespace Disk

/-- A tree differs from another at most inside the folder of a document. -/
structure Within (document : Int) (d d' : Disk) : Prop where
  files : ∀ p, d'.file? p ≠ d.file? p →
    ∃ file, p = [Key.root, toString document, file] ∧ Key.IsFileName file
  directories : ∀ p, d'.isDirectory p = true →
    d.isDirectory p = true ∨ p <+: [Key.root, toString document]

/-- A tree that holds attachments only. -/
structure Shelved (d : Disk) : Prop where
  tidy : d.Tidy
  placed : ∀ p content, d.file? p = some content → ∃ document name,
    Key.normalize (Key.ofAsset document name) = .ok (Key.ofAsset document name) ∧
      p = Local.pathOf (Key.ofAsset document name)
  folders : ∀ p, d.isDirectory p = true → ∃ document : Int, p <+: [Key.root, toString document]

/-- What a call for an attachment makes of a tree. The file of the attachment gets a content or goes,
if anything is `left` there by the call; no other file changes. -/
structure Refiled (document : Int) (name : String) (left : Option (Option Bytes)) (d d' : Disk) :
    Prop where
  shelved : d'.Shelved
  within : d.Within document d'
  files : ∀ p, d'.file? p =
    if p = Local.pathOf (Key.ofAsset document name) then left.getD (d.file? p) else d.file? p

variable {d d' : Disk} {document : Int} {name : String} {left : Option (Option Bytes)}

theorem shelved_empty : Disk.empty.Shelved := by
  constructor
  · exact tidy_empty
  · exact nofun
  · intro p root
    rcases isDirectory_iff.mp root with rfl | listed
    · exact ⟨0, List.nil_prefix⟩
    · cases listed

namespace Shelved

theorem refiled (h : d.Shelved) (tidy : d'.Tidy)
    (accepted : Key.normalize (Key.ofAsset document name) = .ok (Key.ofAsset document name))
    (files : ∀ p, d'.file? p =
      if p = Local.pathOf (Key.ofAsset document name) then left.getD (d.file? p) else d.file? p)
    (directories : ∀ p, d'.isDirectory p = true →
      d.isDirectory p = true ∨ p <+: [Key.root, toString document]) :
    d.Refiled document name left d' := by
  constructor
  · constructor
    · exact tidy
    · intro p content found
      rw [files] at found
      by_cases here : p = Local.pathOf (Key.ofAsset document name)
      · exact ⟨document, name, accepted, here⟩
      · rw [if_neg here] at found
        exact h.placed p content found
    · intro p there
      rcases directories p there with old | new
      · exact h.folders p old
      · exact ⟨document, new⟩
  · constructor
    · intro p other
      rw [files] at other
      by_cases here : p = Local.pathOf (Key.ofAsset document name)
      · rw [Key.pathOf_ofAsset] at here
        exact ⟨_, here, Key.segment_isFileName name⟩
      · exact absurd (if_neg here) other
    · exact directories
  · exact files

theorem unchanged (h : d.Shelved) : d.Refiled document name none d := by
  constructor
  · exact h
  · exact ⟨fun p other => absurd rfl other, fun p there => .inl there⟩
  · simp

theorem unstaged (h : d.Shelved) (document : Int) (name : String) (number : Nat) :
    d.file? (Local.stagingPath (Local.pathOf (Key.ofAsset document name)) number) = none := by
  apply Option.eq_none_iff_forall_ne_some.mpr
  intro content found
  obtain ⟨document', name', _, same⟩ := h.placed _ _ found
  have hidden := Local.head_stagingName (Key.segment name) number
  simp only [Key.pathOf_ofAsset, Local.stagingPath, List.dropLast_cons_cons,
    List.dropLast_singleton, List.cons_append, List.nil_append, List.cons.injEq, and_true, true_and,
    List.getLastD_cons, List.getLastD_nil] at same
  rw [same.2] at hidden
  exact absurd hidden (Key.segment_isSegment name').shown

theorem accepted (h : d.Shelved) {content : Bytes}
    (found : d.file? (Local.pathOf (Key.ofAsset document name)) = some content) :
    Key.normalize (Key.ofAsset document name) = .ok (Key.ofAsset document name) := by
  obtain ⟨document', name', accepted, here⟩ := h.placed _ _ found
  rwa [← Key.pathOf_injective here] at accepted

theorem unfiled (h : d.Shelved) (document : Int) (file : String) :
    d.isDirectory [Key.root, toString document, file] = false := by
  rw [← Bool.not_eq_true]
  intro there
  obtain ⟨_, above⟩ := h.folders _ there
  have longer := above.length_le
  simp at longer

end Shelved

end Disk

namespace Local

variable {d x : Disk} {path staging : Path} {content : Content}

theorem Outcome.directories {result : Except Failure Unit}
    (h : Outcome d path staging content x result) {p : Path} (there : x.isDirectory p = true) :
    d.isDirectory p = true ∨ p <+: path.dropLast := by
  cases h with
  | refused _ grown => exact grown.new p there
  | dropped _ grown => exact grown.new p there
  | moved _ grown => exact grown.new p there

theorem During.directories {made : Disk} (h : During made staging x) (p : Path) :
    x.isDirectory p = made.isDirectory p := by cases h <;> rfl

theorem Upload.states_cases {u : Upload} (listed : x ∈ u.states) :
    x ∈ u.running ∨ x = u.states.getLastD d := by
  unfold Upload.running
  cases u.result with
  | error e => exact .inl listed
  | ok =>
    obtain ⟨states, last, split⟩ :=
      (List.eq_nil_or_concat' u.states).resolve_left (List.ne_nil_of_mem listed)
    rw [split] at listed ⊢
    simpa using listed

theorem upload_last (root : String) (d : Disk) (key : String) (number : Nat) (content : Content) :
    (upload root d key number content).1 =
      (uploadStates root d key number content).1.states.getLastD d := by
  unfold upload
  rcases uploadStates root d key number content with ⟨⟨states, _ | _, records⟩, k⟩ <;> rfl

end Local

namespace Disk.Shelved

variable {d : Disk} {document : Int} {name : String}

theorem upload (h : d.Shelved) (root : String) (document : Int) (name : String) (number : Nat)
    (content : Content) :
    let out := Local.upload root d (Key.ofAsset document name) number content
    d.Refiled document name (out.2.1.toOption.map fun _ => some content.bytes) out.1 ∧
      ∀ key, out.2.1 = .ok key → key = Key.ofAsset document name := by
  rcases Local.upload_cases h.tidy root (Key.ofAsset document name) number content with
    ⟨e, records, same⟩ | ⟨k, x, result, records, accepted, begun, outcome, same⟩
  · simp only [same]
    exact ⟨h.unchanged, nofun⟩
  · simp only [same]
    obtain rfl := Key.normalize_ofAsset_ok accepted
    have unstaged := h.unstaged document name number
    have directories : ∀ p, x.isDirectory p = true →
        d.isDirectory p = true ∨ p <+: [Key.root, toString document] := by
      intro p there
      simpa [Key.pathOf_ofAsset] using outcome.directories there
    cases result with
    | error e =>
      have files := (outcome.failed unstaged).file
      constructor
      · apply h.refiled outcome.tidy accepted _ directories
        simpa [Except.map, Except.toOption] using files
      · exact nofun
    | ok =>
      have files := outcome.succeeded unstaged
      constructor
      · apply h.refiled outcome.tidy accepted _ directories
        simpa [Except.map, Except.toOption] using files
      · intro key done
        exact (Except.ok.inj done).symm

theorem states_within (h : d.Shelved) {root : String} {number : Nat} {content : Content} {x : Disk}
    (listed : x ∈ (Local.uploadStates root d (Key.ofAsset document name) number content).1.states) :
    d.Within document x := by
  rcases Local.Upload.states_cases (d := d) listed with running | last
  · obtain ⟨k, accepted, later⟩ := Local.running_place running
    obtain rfl := Key.normalize_ofAsset_ok accepted
    obtain ⟨made, grown, during⟩ := Local.uploadTo_running h.tidy later
    rw [Key.pathOf_ofAsset] at grown during
    constructor
    · intro p other
      have staged : p = Local.stagingPath [Key.root, toString document, Key.segment name] number := by
        by_contra elsewhere
        exact other ((during.file elsewhere).trans (grown.file p))
      exact ⟨_, staged, Key.stagingName_isFileName name number⟩
    · intro p there
      rw [during.directories] at there
      exact grown.new p there
  · obtain ⟨refiled, _⟩ := h.upload root document name number content
    rw [Local.upload_last, ← last] at refiled
    exact refiled.within

def leftBy : Except Failure Unit → Option (Option Bytes)
  | .ok () => some none
  | .error (.missing _) => some none
  | .error _ => none

theorem delete (h : d.Shelved) (document : Int) (name : String) :
    let out := Local.delete d (Key.ofAsset document name)
    d.Refiled document name (leftBy out.2) out.1 := by
  rcases Local.delete_cases d (Key.ofAsset document name) with ⟨e, same⟩ | ⟨k, accepted, same⟩
  · simp only [same]
    have stays : d.Refiled document name none d := h.unchanged
    cases e with
    | missing k =>
      have absent : d.file? (Local.pathOf (Key.ofAsset document name)) = none := by
        apply Option.eq_none_iff_forall_ne_some.mpr
        intro content found
        have answer := Local.delete_entry (h.accepted found) (d := d)
        rw [same, h.tidy.entry_file found] at answer
        cases answer
      constructor
      · exact h
      · exact stays.within
      · intro p
        split
        · rename_i here
          rw [here]
          exact absent
        · rfl
    | _ => exact stays
  · simp only [same]
    obtain rfl := Key.normalize_ofAsset_ok accepted
    apply h.refiled (h.tidy.erase _) accepted
    · intro p
      exact file_erase
    · exact fun p there => .inl there

end Disk.Shelved

namespace Disk

variable {d : Disk} {here rest : Path}

theorem follow_ok_directory (start : d.isDirectory here = true)
    (found : d.follow here rest = .ok .directory) : d.isDirectory (here ++ rest) = true := by
  induction rest generalizing here with
  | nil => simpa using start
  | cons name rest ih =>
    simp only [follow] at found
    split at found
    · cases found
    · split at found
      · rename_i next
        simpa using ih next found
      · split at found
        · split at found <;> cases found
        · cases found

theorem Shelved.entry (h : d.Shelved) {document : Int} {name : String} {entry : Entry}
    (found : d.entry (Local.pathOf (Key.ofAsset document name)) = .ok entry) :
    ∃ content, entry = .file content ∧
      d.file? (Local.pathOf (Key.ofAsset document name)) = some content := by
  cases entry with
  | file content => exact ⟨content, rfl, h.tidy.entry_eq_file.mp found⟩
  | directory =>
    have there := follow_ok_directory isDirectory_root found
    rw [List.nil_append, Key.pathOf_ofAsset, h.unfiled] at there
    cases there

end Disk

namespace Backend

variable {b : Backend} {document : Int} {name : String}

theorem open_shelved (isLocal : b.driver = .local) (h : b.disk.Shelved)
    {r : Except Failure Bytes} : b.open_ (Key.ofAsset document name) = .ok r ↔
      ∃ content, b.disk.file? (Local.pathOf (Key.ofAsset document name)) = some content ∧
        r = .ok content := by
  simp only [open_, isLocal]
  constructor
  · intro opened
    cases accepted : Key.normalize (Key.ofAsset document name) with
    | error e =>
      simp [Local.open_, Local.canonical, accepted, Except.mapError, bind, Except.bind] at opened
    | ok key =>
      obtain rfl := Key.normalize_ofAsset_ok accepted
      rw [Local.open_entry accepted] at opened
      cases found : b.disk.entry (Local.pathOf (Key.ofAsset document name)) with
      | error fault => simp [found] at opened
      | ok entry =>
        obtain ⟨content, rfl, there⟩ := h.entry found
        rw [found] at opened
        exact ⟨content, there, (Except.ok.inj opened).symm⟩
  · rintro ⟨content, found, rfl⟩
    rw [Local.open_entry (h.accepted found), h.tidy.entry_file found]

theorem size_shelved (isLocal : b.driver = .local) (h : b.disk.Shelved) {size : Nat} :
    b.size (Key.ofAsset document name) = .ok size ↔
      ∃ content, b.disk.file? (Local.pathOf (Key.ofAsset document name)) = some content ∧
        size = content.length := by
  simp only [Backend.size, isLocal, Local.size_ok]
  constructor
  · rintro ⟨key, content, accepted, found, rfl⟩
    obtain rfl := Key.normalize_ofAsset_ok accepted
    exact ⟨content, h.tidy.entry_eq_file.mp found, rfl⟩
  · rintro ⟨content, found, rfl⟩
    exact ⟨_, content, h.accepted found, h.tidy.entry_file found, rfl⟩

end Backend

end DiagramShare.Storage
