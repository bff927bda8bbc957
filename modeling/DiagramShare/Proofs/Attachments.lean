import DiagramShare.Proofs.Joint
import DiagramShare.Proofs.Keys
import DiagramShare.Proofs.Twin
import DiagramShare.Storage.Call
import Mathlib

/-! Two trees of attachments. Documents that stand for one another may have different numbers, and
then their attachments lie in different folders; under the pairing of the folders both trees hold
the same files, and every call to the storage keeps it so. -/
namespace DiagramShare.Storage

open DiagramShare.Service (Meet)
open List (Forall₂)

abbrev Naming := Path → Path → Prop

structure Naming.Clear (T : Naming) : Prop where
  root : T [] []
  same : ∀ {p p' q q' : Path}, T p p' → T q q' → (p = q ↔ p' = q')

def Naming.with (T : Naming) (path path' : Path) : Naming := fun p p' =>
  T p p' ∨ (p = path ∧ p' = path')

theorem Naming.Clear.with {T : Naming} (h : T.Clear) {path path' : Path}
    (new : ∀ p', ¬ T path p') (new' : ∀ p, ¬ T p path') : (T.with path path').Clear := by
  refine ⟨.inl h.root, ?_⟩
  rintro p p' q q' (old | ⟨rfl, rfl⟩) (old' | ⟨rfl, rfl⟩)
  · exact h.same old old'
  · exact ⟨fun same => absurd (same ▸ old) (new _), fun same => absurd (same ▸ old) (new' _)⟩
  · exact ⟨fun same => absurd (same ▸ old') (new _), fun same => absurd (same ▸ old') (new' _)⟩
  · exact ⟨fun _ => rfl, fun _ => rfl⟩

inductive Steps (T : Naming) : Path → Path → Path → Path → Prop where
  | nil {here here' : Path} : Steps T here here' [] []
  | cons {here here' rest rest' : Path} {name name' : String}
    (long : Disk.isTooLong name' = Disk.isTooLong name)
    (next : T (here ++ [name]) (here' ++ [name']))
    (more : Steps T (here ++ [name]) (here' ++ [name']) rest rest') :
    Steps T here here' (name :: rest) (name' :: rest')

theorem Steps.isEmpty {T : Naming} {here here' rest rest' : Path}
    (h : Steps T here here' rest rest') : rest'.isEmpty = rest.isEmpty := by
  cases h <;> rfl

/-- Trees with the same directories under one naming and the same files under another. -/
structure Disk.Twin (S T : Naming) (d d' : Disk) : Prop where
  directories : Forall₂ S d.directories d'.directories
  files : Forall₂ (fun f f' => T f.1 f'.1 ∧ f'.2 = f.2) d.files d'.files

namespace Disk.Twin

variable {S T : Naming} {d d' : Disk} {here here' rest rest' path path' : Path}

theorem mono {T' : Naming} (h : d.Twin S T d') (within : ∀ p p', T p p' → T' p p') :
    d.Twin S T' d' :=
  ⟨h.directories, h.files.imp fun _ _ r => ⟨within _ _ r.1, r.2⟩⟩

section Clear

variable (clear : T.Clear) (within : ∀ p p', S p p' → T p p')

include clear within

theorem isDirectory (h : d.Twin S T d') (stand : T path path') :
    d'.isDirectory path' = d.isDirectory path := by
  have root : path'.isEmpty = path.isEmpty := by
    rw [Bool.eq_iff_iff, List.isEmpty_iff, List.isEmpty_iff]
    exact (clear.same stand clear.root).symm
  rw [Disk.isDirectory, Disk.isDirectory, root, List.contains_eq_any_beq,
    List.contains_eq_any_beq, Repository.any_twin h.directories]
  intro p p' r
  rw [Bool.eq_iff_iff, beq_iff_eq, beq_iff_eq]
  exact clear.same stand (within p p' r)

omit within in
theorem file (h : d.Twin S T d') (stand : T path path') : d'.file? path' = d.file? path := by
  have files := h.files
  rw [Disk.file?, Disk.file?]
  revert files
  generalize d.files = files
  generalize d'.files = files'
  intro files
  induction files with
  | nil => rfl
  | @cons f f' _ _ r _ ih =>
    have same : (path' == f'.1) = (path == f.1) := by
      rw [Bool.eq_iff_iff, beq_iff_eq, beq_iff_eq]
      exact (clear.same stand r.1).symm
    rw [List.lookup_cons, List.lookup_cons, same, ih, r.2]

theorem follow (h : d.Twin S T d') (steps : Steps T here here' rest rest') :
    d'.follow here' rest' = d.follow here rest := by
  induction steps with
  | nil => rfl
  | cons long next more ih =>
    simp only [Disk.follow, long, h.isDirectory clear within next, h.file clear next, ih,
      more.isEmpty]

theorem entry (h : d.Twin S T d') (steps : Steps T [] [] path path') :
    d'.entry path' = d.entry path :=
  h.follow clear within steps

theorem makeBelow (h : d.Twin S T d') (steps : Steps S here here' rest rest') :
    (d.makeBelow here rest).1.Twin S T (d'.makeBelow here' rest').1 ∧
      (d'.makeBelow here' rest').2 = (d.makeBelow here rest).2 := by
  induction steps generalizing d d' with
  | nil => exact ⟨h, rfl⟩
  | cons long next more ih =>
    have stand := within _ _ next
    simp only [Disk.makeBelow, long, h.isDirectory clear within stand, h.file clear stand,
      more.isEmpty]
    split
    · exact ⟨h, rfl⟩
    · split
      · exact ih h
      · split
        · exact ⟨h, rfl⟩
        · exact ih ⟨Repository.snoc_twin h.directories next, h.files⟩

end Clear

section Files

variable (clear : T.Clear)

include clear

theorem erase (h : d.Twin S T d') (stand : T path path') :
    (d.erase path).Twin S T (d'.erase path') := by
  refine ⟨h.directories, Repository.filter_twin h.files fun f f' r => ?_⟩
  rw [Bool.eq_iff_iff, bne_iff_ne, bne_iff_ne]
  exact not_congr (clear.same r.1 stand)

theorem write (h : d.Twin S T d') (stand : T path path') (content : Bytes) :
    (d.write path content).Twin S T (d'.write path' content) :=
  ⟨h.directories, Repository.snoc_twin (h.erase clear stand).files ⟨stand, rfl⟩⟩

theorem fill (h : d.Twin S T d') (stand : T path path') (written : Bytes) (pieces : List Bytes) :
    Forall₂ (Disk.Twin S T) (Local.fill d path written pieces)
      (Local.fill d' path' written pieces) := by
  induction pieces generalizing d d' written with
  | nil => exact .nil
  | cons piece pieces ih =>
    exact .cons (h.write clear stand (written ++ piece)) (ih h _)

end Files

theorem create (clear : T.Clear) (within : ∀ p p', S p p' → T p p') (h : d.Twin S T d')
    (stand : T path path') (steps : Steps T [] [] path path') :
    Meet (Disk.Twin S T) (fun e e' => e' = e) (d.create path) (d'.create path') := by
  rw [Disk.create, Disk.create, h.entry clear within steps]
  split
  · exact .error rfl
  · exact .ok (h.write clear stand [])
  · exact .ok (h.write clear stand [])
  · exact .error rfl

theorem move (clear : T.Clear) (within : ∀ p p', S p p' → T p p') (h : d.Twin S T d')
    {source source' : Path} (start : T source source') (stand : T path path') :
    Meet (Disk.Twin S T) (fun e e' => e' = e) (d.move source path) (d'.move source' path') := by
  rw [Disk.move, Disk.move, h.file clear start, h.isDirectory clear within stand]
  split
  · exact .error rfl
  · split
    · exact .error rfl
    · exact .ok ((h.erase clear start).write clear stand _)

theorem remove (clear : T.Clear) (within : ∀ p p', S p p' → T p p') (h : d.Twin S T d')
    (stand : T path path') (steps : Steps T [] [] path path') :
    Meet (Disk.Twin S T) (fun e e' => e' = e) (d.remove path) (d'.remove path') := by
  rw [Disk.remove, Disk.remove, h.entry clear within steps]
  split
  · exact .error rfl
  · exact .ok (h.erase clear stand)
  · exact .error rfl

theorem leave (h : d.Twin S (T.with path path') d')
    (gone : ∀ f ∈ d.files, f.1 ≠ path) : d.Twin S T d' := by
  have files := (List.forall₂_and_left d.files d'.files).mpr ⟨gone, h.files⟩
  refine ⟨h.directories, files.imp ?_⟩
  rintro f f' ⟨other, old | new, content⟩
  · exact ⟨old, content⟩
  · exact absurd new.1 other

end Disk.Twin

theorem Disk.erase_gone (d : Disk) (path : Path) : ∀ f ∈ (d.erase path).files, f.1 ≠ path :=
  fun _ hf => bne_iff_ne.mp (List.mem_filter.mp hf).2

theorem Disk.move_gone {d moved : Disk} {source target : Path} (other : target ≠ source)
    (done : d.move source target = .ok moved) : ∀ f ∈ moved.files, f.1 ≠ source := by
  rw [Disk.move] at done
  split at done
  · cases done
  · split at done
    · cases done
    · cases done
      intro f hf
      rcases List.mem_append.mp hf with old | new
      · exact d.erase_gone source f (List.mem_of_mem_filter old)
      · cases List.mem_singleton.mp new
        exact other

namespace Local

variable {S : Naming} {d d' : Disk} {path path' : Path}

theorem transfer_twin (clear : S.Clear) (h : d.Twin S S d') (stand : S path path')
    {staging staging' : Path} (new : ∀ p', ¬ S staging p') (new' : ∀ p, ¬ S p staging')
    (steps : Steps (S.with staging staging') [] [] staging staging') (root root' : String)
    (content : Content) :
    let done := transfer root d path staging content
    let done' := transfer root' d' path' staging' content
    (done.states.getLastD d).Twin S S (done'.states.getLastD d') ∧ done'.result = done.result := by
  have wider := clear.with new new'
  have within : ∀ p p', S p p' → S.with staging staging' p p' := fun _ _ => .inl
  have pair : S.with staging staging' staging staging' := .inr ⟨rfl, rfl⟩
  have created := (h.mono within).create wider within pair steps
  unfold transfer
  generalize d.create staging = made at created ⊢
  generalize d'.create staging' = made' at created ⊢
  cases created with
  | error same => exact ⟨h, by rw [same]⟩
  | @ok made made' twin =>
    have last := Repository.getLastD_twin (twin.fill wider pair [] content.pieces) twin
    have dropped := (last.erase wider pair).leave (Disk.erase_gone _ _)
    dsimp only
    cases content.ending with
    | complete =>
      have moved := last.move wider within pair (within _ _ stand)
      dsimp only
      generalize move_eq : Disk.move _ staging path = out at moved ⊢
      generalize move_eq' : Disk.move _ staging' path' = out' at moved ⊢
      cases moved with
      | error same =>
        rw [same, List.getLastD_concat, List.getLastD_concat]
        exact ⟨dropped, rfl⟩
      | ok moved =>
        have other : path ≠ staging := fun same => new path' (same ▸ stand)
        rw [List.getLastD_concat, List.getLastD_concat]
        exact ⟨moved.leave (Disk.move_gone other move_eq), rfl⟩
    | _ =>
      dsimp only
      rw [List.getLastD_concat, List.getLastD_concat]
      exact ⟨dropped, rfl⟩

theorem uploadTo_twin (clear : S.Clear) (h : d.Twin S S d') (stand : S path path')
    (above : Steps S [] [] path.dropLast path'.dropLast) (number number' : Nat)
    (new : ∀ p', ¬ S (stagingPath path number) p') (new' : ∀ p, ¬ S p (stagingPath path' number'))
    (steps : Steps (S.with (stagingPath path number) (stagingPath path' number')) [] []
      (stagingPath path number) (stagingPath path' number')) (root root' : String)
    (content : Content) :
    let done := uploadTo root d path number content
    let done' := uploadTo root' d' path' number' content
    (done.states.getLastD d).Twin S S (done'.states.getLastD d') ∧ done'.result = done.result := by
  have directories := h.makeBelow clear (fun _ _ => id) above
  unfold uploadTo Disk.makeDirectories
  generalize d.makeBelow [] path.dropLast = made at directories ⊢
  generalize d'.makeBelow [] path'.dropLast = made' at directories ⊢
  obtain ⟨made, fault⟩ := made
  obtain ⟨made', fault'⟩ := made'
  obtain ⟨twin, same⟩ := directories
  dsimp only at twin same
  subst same
  cases fault' with
  | some fault => exact ⟨twin, rfl⟩
  | none =>
    dsimp only
    rw [List.getLastD_cons, List.getLastD_cons]
    exact transfer_twin clear twin stand new new' steps root root' content

end Local

/-- The paths of the attachments of documents that stand for one another. -/
inductive Filed (pairs : List (Int × Int)) : Naming where
  | top : Filed pairs [] []
  | root : Filed pairs [Key.root] [Key.root]
  | folder {k k' : Int} (paired : (k, k') ∈ pairs) :
    Filed pairs [Key.root, toString k] [Key.root, toString k']
  | file {k k' : Int} {name : String} (paired : (k, k') ∈ pairs)
    (shown : name.toList.head? ≠ some '.') :
    Filed pairs [Key.root, toString k, name] [Key.root, toString k', name]

namespace Filed

variable {pairs : List (Int × Int)} {k k' : Int} {path path' : Path}

theorem mono {more : List (Int × Int)} (within : pairs ⊆ more) (h : Filed pairs path path') :
    Filed more path path' := by
  cases h with
  | top => exact .top
  | root => exact .root
  | folder paired => exact .folder (within paired)
  | file paired shown => exact .file (within paired) shown

theorem clear {last last' : Int} (fair : Fair pairs last last') :
    Naming.Clear (Filed pairs) := by
  have numbers : ∀ {a a' b b' : Int}, (a, a') ∈ pairs → (b, b') ∈ pairs → (a = b ↔ a' = b') :=
    fun ha hb => fair.stand _ hb _ ha
  refine ⟨.top, fun first second => ?_⟩
  cases first with
  | top => cases second <;> simp
  | root => cases second <;> simp
  | folder paired =>
    cases second with
    | folder other => simp [Int.repr_inj, numbers paired other]
    | _ => simp
  | file paired =>
    cases second with
    | file other => simp [Int.repr_inj, numbers paired other]
    | _ => simp

theorem shown {folder name : String} (h : Filed pairs path path')
    (last : path = [Key.root, folder, name] ∨ path' = [Key.root, folder, name]) :
    name.toList.head? ≠ some '.' := by
  cases h with
  | file paired shown =>
    rcases last with last | last <;> cases last <;> exact shown
  | _ => simp at last

theorem steps_folder (paired : (k, k') ∈ pairs) (fits : Key.Fits64 k) (fits' : Key.Fits64 k') :
    Steps (Filed pairs) [] [] [Key.root, toString k] [Key.root, toString k'] :=
  .cons rfl .root (.cons ((Key.isTooLong_toString fits').trans (Key.isTooLong_toString fits).symm)
    (.folder paired) .nil)

theorem steps_file {T : Naming} (within : ∀ p p', Filed pairs p p' → T p p')
    (paired : (k, k') ∈ pairs) (fits : Key.Fits64 k) (fits' : Key.Fits64 k') {name name' : String}
    (long : Disk.isTooLong name' = Disk.isTooLong name)
    (stand : T [Key.root, toString k, name] [Key.root, toString k', name']) :
    Steps T [] [] [Key.root, toString k, name] [Key.root, toString k', name'] :=
  .cons rfl (within _ _ .root) (.cons
    ((Key.isTooLong_toString fits').trans (Key.isTooLong_toString fits).symm)
    (within _ _ (.folder paired)) (.cons long stand .nil))

end Filed

inductive Failure.Alike : Failure → Failure → Prop where
  | same (e : Failure) : Alike e e
  | missing (key key' : String) : Alike (.missing key) (.missing key')
  | badKey (fault fault' : Key.Fault) : Alike (.badKey fault) (.badKey fault')

/-- An attachment of two documents under keys that the storage accepts or refuses alike. -/
structure Key.Matched (k k' : Int) (name : String) : Prop where
  fits : Fits64 k
  fits' : Fits64 k'
  long : maxBytes < (ofAsset k name).utf8ByteSize ↔ maxBytes < (ofAsset k' name).utf8ByteSize

theorem Key.Matched.canonical {k k' : Int} {name : String} (h : Matched k k' name) :
    (∃ fault fault', Local.canonical (ofAsset k name) = .error (.badKey fault) ∧
      Local.canonical (ofAsset k' name) = .error (.badKey fault')) ∨
    (Local.canonical (ofAsset k name) = .ok (ofAsset k name) ∧
      Local.canonical (ofAsset k' name) = .ok (ofAsset k' name)) := by
  have spelled : ∀ d, Local.canonical (ofAsset d name) = _ := fun d =>
    congrArg (Except.mapError Failure.badKey) (normalize_ofAsset d name)
  rw [spelled, spelled]
  simp only [h.long]
  split
  · exact .inl ⟨_, _, rfl, rfl⟩
  · split
    · exact .inl ⟨_, _, rfl, rfl⟩
    · exact .inr ⟨rfl, rfl⟩

theorem Key.Matched.bind {k k' : Int} {name : String} (h : Matched k k' name)
    {f f' : String → Except Failure α} {Q : α → α → Prop}
    (rest : Meet Q Failure.Alike (f (ofAsset k name)) (f' (ofAsset k' name))) :
    Meet Q Failure.Alike (Local.canonical (ofAsset k name) >>= f)
      (Local.canonical (ofAsset k' name) >>= f') := by
  rcases h.canonical with ⟨fault, fault', bad, bad'⟩ | ⟨good, good'⟩
  · rw [bad, bad']
    exact .error (.badKey _ _)
  · rw [good, good']
    exact rest

theorem Local.failure_alike (fault : Disk.Fault) (key key' : String) :
    (failure key fault).Alike (failure key' fault) := by
  cases fault with
  | missing => exact .missing key key'
  | _ => exact .same _

theorem Filed.asset {pairs : List (Int × Int)} {k k' : Int} (paired : (k, k') ∈ pairs)
    (name : String) : Filed pairs (Local.pathOf (Key.ofAsset k name))
      (Local.pathOf (Key.ofAsset k' name)) := by
  rw [Key.pathOf_ofAsset, Key.pathOf_ofAsset]
  exact .file paired (Key.segment_isSegment name).shown

theorem Key.Matched.steps {pairs : List (Int × Int)} {k k' : Int} {name : String}
    (h : Matched k k' name) (paired : (k, k') ∈ pairs) : Steps (Filed pairs) [] []
      (Local.pathOf (ofAsset k name)) (Local.pathOf (ofAsset k' name)) := by
  rw [pathOf_ofAsset, pathOf_ofAsset]
  exact Filed.steps_file (fun _ _ => id) paired h.fits h.fits' rfl
    (.file paired (segment_isSegment name).shown)

structure Backend.Twin (pairs : List (Int × Int)) (b b' : Backend) : Prop where
  settings : b'.settings = b.settings
  disk : b.disk.Twin (Filed pairs) (Filed pairs) b'.disk

namespace Backend.Twin

variable {pairs : List (Int × Int)} {last last' k k' : Int} {b b' : Backend} {name : String}

theorem mono {more : List (Int × Int)} (h : b.Twin pairs b') (within : pairs ⊆ more) :
    b.Twin more b' :=
  ⟨h.settings, h.disk.directories.imp fun _ _ r => r.mono within,
    h.disk.files.imp fun _ _ r => ⟨r.1.mono within, r.2⟩⟩

theorem driver (h : b.Twin pairs b') : b'.driver = b.driver :=
  congrArg Settings.Storage.driver h.settings

theorem refused (h : b.Twin pairs b') (matched : Key.Matched k k' name) (Q : α → α → Prop) :
    Meet Q Failure.Alike (b.refused (Key.ofAsset k name)) (b'.refused (Key.ofAsset k' name)) := by
  unfold Backend.refused
  rw [h.driver]
  rcases matched.canonical with ⟨fault, fault', bad, bad'⟩ | ⟨good, good'⟩
  · rw [bad, bad']
    exact .error (.badKey _ _)
  · rw [good, good']
    cases b.driver <;> exact .error (.same _)

section Asset

variable (h : b.Twin pairs b') (fair : Fair pairs last last') (paired : (k, k') ∈ pairs)
variable (matched : Key.Matched k k' name)

include h fair paired matched

theorem entry : b'.disk.entry (Local.pathOf (Key.ofAsset k' name)) =
    b.disk.entry (Local.pathOf (Key.ofAsset k name)) :=
  h.disk.entry (Filed.clear fair) (fun _ _ => id) (matched.steps paired)

theorem uploadLocal (number number' : Nat) (content : Content) :
    let out := Local.upload b.root b.disk (Key.ofAsset k name) number content
    let out' := Local.upload b'.root b'.disk (Key.ofAsset k' name) number' content
    out.1.Twin (Filed pairs) (Filed pairs) out'.1 ∧
      Meet (fun key key' => key = Key.ofAsset k name ∧ key' = Key.ofAsset k' name) Failure.Alike
        out.2.1 out'.2.1 := by
  unfold Local.upload Local.uploadStates
  rcases matched.canonical with ⟨fault, fault', bad, bad'⟩ | ⟨good, good'⟩
  · rw [bad, bad']
    exact ⟨h.disk, .error (.badKey _ _)⟩
  · rw [good, good']
    dsimp only
    cases content.cancelledBefore with
    | true => exact ⟨h.disk, .error (.same _)⟩
    | false =>
      have shown := (Key.segment_isSegment name).shown
      have hidden := Local.head_stagingName (Key.segment name)
      have long : Disk.isTooLong (Local.stagingName (Key.segment name) number') =
          Disk.isTooLong (Local.stagingName (Key.segment name) number) := by
        rw [Disk.isTooLong, Disk.isTooLong, Local.utf8ByteSize_stagingName,
          Local.utf8ByteSize_stagingName]
      have ended := Local.uploadTo_twin (Filed.clear fair) h.disk (.file paired shown)
        (Filed.steps_folder paired matched.fits matched.fits') number number'
        (fun _ filed => filed.shown (.inl rfl) (hidden number))
        (fun _ filed => filed.shown (.inr rfl) (hidden number'))
        (Filed.steps_file (fun _ _ => .inl) paired matched.fits matched.fits' long
          (.inr ⟨rfl, rfl⟩)) b.root b'.root content
      rw [Key.pathOf_ofAsset, Key.pathOf_ofAsset]
      simp only [Bool.false_eq_true, if_false]
      generalize Local.uploadTo b.root b.disk _ number content = done at ended ⊢
      generalize Local.uploadTo b'.root b'.disk _ number' content = done' at ended ⊢
      obtain ⟨twin, same⟩ := ended
      rw [same]
      cases done.result with
      | ok _ => exact ⟨twin, .ok ⟨rfl, rfl⟩⟩
      | error e => exact ⟨twin, .error (.same e)⟩

theorem upload (number number' : Nat) (content : Content) :
    let out := b.upload (Key.ofAsset k name) number content
    let out' := b'.upload (Key.ofAsset k' name) number' content
    out.1.Twin pairs out'.1 ∧
      Meet (fun key key' => key = Key.ofAsset k name ∧ key' = Key.ofAsset k' name) Failure.Alike
        out.2.1 out'.2.1 := by
  unfold Backend.upload
  rw [h.driver]
  cases b.driver with
  | «local» =>
    obtain ⟨disk, met⟩ := h.uploadLocal fair paired matched number number' content
    exact ⟨⟨h.settings, disk⟩, met⟩
  | _ =>
    rcases matched.canonical with ⟨fault, fault', bad, bad'⟩ | ⟨good, good'⟩
    · rw [bad, bad']
      exact ⟨h, .error (.badKey _ _)⟩
    · rw [good, good']
      exact ⟨h, .error (.same _)⟩

theorem delete :
    let out := b.delete (Key.ofAsset k name)
    let out' := b'.delete (Key.ofAsset k' name)
    out.1.Twin pairs out'.1 ∧ Meet (fun _ _ => True) Failure.Alike out.2 out'.2 := by
  unfold Backend.delete
  rw [h.driver]
  cases b.driver with
  | «local» =>
    unfold Local.delete
    rcases matched.canonical with ⟨fault, fault', bad, bad'⟩ | ⟨good, good'⟩
    · rw [bad, bad']
      exact ⟨h, .error (.badKey _ _)⟩
    · have removed := h.disk.remove (Filed.clear fair) (fun _ _ => id)
        (Filed.asset paired name) (matched.steps paired)
      rw [good, good']
      dsimp only
      generalize b.disk.remove _ = out at removed ⊢
      generalize b'.disk.remove _ = out' at removed ⊢
      cases removed with
      | ok twin => exact ⟨⟨h.settings, twin⟩, .ok trivial⟩
      | @error fault fault' same =>
        subst same
        exact ⟨h, .error (Local.failure_alike _ _ _)⟩
  | _ => exact ⟨h, h.refused matched _⟩

theorem open_ : Meet (fun a b => b = a) Failure.Alike (b.open_ (Key.ofAsset k name))
    (b'.open_ (Key.ofAsset k' name)) := by
  unfold Backend.open_
  rw [h.driver]
  cases b.driver with
  | «local» =>
    refine matched.bind ?_
    rw [h.entry fair paired matched]
    split
    · exact .ok rfl
    · exact .ok rfl
    · exact .error (Local.failure_alike _ _ _)
  | _ => exact h.refused matched _

theorem size : Meet (fun n n' => n' = n ∧ b.driver = .local) Failure.Alike
    (b.size (Key.ofAsset k name)) (b'.size (Key.ofAsset k' name)) := by
  unfold Backend.size
  rw [h.driver]
  cases b.driver with
  | «local» =>
    refine matched.bind ?_
    rw [h.entry fair paired matched]
    split
    · exact .error (.missing _ _)
    · exact .ok ⟨rfl, rfl⟩
    · exact .error (Local.failure_alike _ _ _)
  | _ => exact h.refused matched _

omit fair paired in
theorem url (own : b.driver = .local) :
    Meet (fun url url' => ∃ base, url = base ++ Key.ofAsset k name ∧
      url' = base ++ Key.ofAsset k' name) Failure.Alike
      (b.url (Key.ofAsset k name)) (b'.url (Key.ofAsset k' name)) := by
  unfold Backend.url
  rw [h.driver, own, h.settings]
  dsimp only [Local.url]
  rcases matched.canonical with ⟨fault, fault', bad, bad'⟩ | ⟨good, good'⟩
  · rw [bad, bad']
    exact .error (.badKey _ _)
  · rw [good, good']
    exact .ok ⟨_, rfl, rfl⟩

end Asset

end Backend.Twin

end DiagramShare.Storage
