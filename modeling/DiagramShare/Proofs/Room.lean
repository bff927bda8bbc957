import DiagramShare.Proofs.Isolation
import DiagramShare.Proofs.Together

/-! Room for names. An upload fills a staging file whose name is 23 bytes longer than that of the
attachment, so that an attachment can be stored if and only if its name leaves room for these bytes,
though a longer name could stand in the tree itself. -/
namespace DiagramShare.Storage

namespace Disk

variable {d : Disk} {here rest : Path}

theorem makeBelow_clear (short : ∀ name ∈ rest, isTooLong name = false)
    (free : ∀ p, p <+: here ++ rest → d.file? p = none) : (d.makeBelow here rest).2 = none := by
  induction rest generalizing d here with
  | nil => rfl
  | cons name rest ih =>
    rw [List.append_cons] at free
    have later : ∀ name ∈ rest, isTooLong name = false :=
      fun name listed => short name (List.mem_cons_of_mem _ listed)
    simp only [makeBelow, short name List.mem_cons_self, free _ (List.prefix_append _ rest),
      Bool.false_eq_true, if_false, Option.isSome_none]
    split
    · exact ih later free
    · exact ih later free

end Disk

variable {d made : Disk} {way : Path} {document : Int} {name : String} {number : Nat}
  {content : Content}

/-- How the upload of a whole content ends in a directory that can be made: the length of the staging
file's name decides. -/
theorem Local.uploaded_whole (root : String) (makes : d.makeDirectories way = (made, none))
    (tidy : made.Tidy) (there : made.isDirectory way = true)
    (other : ∀ file, made.isDirectory (way ++ [file]) = false)
    (complete : content.ending = .complete) :
    (uploaded root d (way ++ [name]) number content).2.1 =
      if name.utf8ByteSize + 23 ≤ maxName then .ok ()
      else .error (.io Disk.Fault.nameTooLong.message) := by
  have long : Disk.isTooLong (stagingName name number) =
      decide (maxName < name.utf8ByteSize + 23) := by
    rw [Disk.isTooLong, utf8ByteSize_stagingName]
  have create := tidy.create_in there (stagingName name number)
  rw [long, other] at create
  simp only [uploaded, List.dropLast_concat, makes, settled, stagingPath_append, create,
    failureOf_none.mpr complete, other]
  by_cases room : name.utf8ByteSize + 23 ≤ maxName
  · simp [room, Nat.not_lt.mpr room]
  · simp [room, Nat.not_le.mp room]

namespace Disk.Shelved

theorem folder_made (h : d.Shelved) (fits : Key.Fits64 document) :
    ∃ made, d.makeDirectories [Key.root, toString document] = (made, none) ∧ made.Tidy ∧
      made.isDirectory [Key.root, toString document] = true ∧
      ∀ file, made.isDirectory [Key.root, toString document, file] = false := by
  have short : ∀ name ∈ [Key.root, toString document], isTooLong name = false := by
    simpa using ⟨by decide, Key.isTooLong_toString fits⟩
  have free : ∀ p, p <+: [] ++ [Key.root, toString document] → d.file? p = none := by
    intro p above
    apply Option.eq_none_iff_forall_ne_some.mpr
    intro content found
    obtain ⟨other, name, _, rfl⟩ := h.placed p content found
    have longer := above.length_le
    simp [Key.pathOf_ofAsset] at longer
  obtain ⟨tidy, grown, directory⟩ :=
    makeBelow_grown h.tidy isDirectory_root [Key.root, toString document]
  have clear := makeBelow_clear short free
  refine ⟨_, Prod.ext rfl clear, tidy, directory clear, fun file => ?_⟩
  rw [← Bool.not_eq_true]
  intro there
  rcases grown.new _ there with old | new
  · rw [h.unfiled] at old
    cases old
  · have longer := new.length_le
    simp at longer

theorem upload_whole (h : d.Shelved) (root : String) (fits : Key.Fits64 document)
    (accepted : Key.normalize (Key.ofAsset document name) = .ok (Key.ofAsset document name))
    (begun : content.cancelledBefore = false) (complete : content.ending = .complete) :
    (Local.upload root d (Key.ofAsset document name) number content).2.1 =
      if (Key.segment name).utf8ByteSize + 23 ≤ maxName then .ok (Key.ofAsset document name)
      else .error (.io Fault.nameTooLong.message) := by
  obtain ⟨made, makes, tidy, there, other⟩ := h.folder_made fits
  have done : (Local.uploaded root d ([Key.root, toString document] ++ [Key.segment name]) number
      content).2.1 = if (Key.segment name).utf8ByteSize + 23 ≤ maxName then .ok ()
        else .error (.io Fault.nameTooLong.message) :=
    Local.uploaded_whole root makes tidy there other complete
  have path : Local.pathOf (Key.ofAsset document name) =
      [Key.root, toString document] ++ [Key.segment name] := Key.pathOf_ofAsset document name
  rw [Local.upload_eq, Local.canonical_ok.mpr accepted]
  simp only [begun, path, Bool.false_eq_true, if_false]
  revert done
  generalize Local.uploaded _ _ _ _ _ = out
  rcases out with ⟨x, e | _, records⟩ <;> split <;> simp_all

end Disk.Shelved

end DiagramShare.Storage

namespace DiagramShare.Service

open DiagramShare.Access
open DiagramShare.Repository (Memory)
open DiagramShare.Storage (Content)
open DiagramShare.Storage.Key (Fits64 ofAsset segment)

variable {settings : Settings.Storage} {root : String} {events : List Event}
  {w w' : World Memory} {c : Conditions} {caller : Caller} {document : Int} {name : String}
  {content : Content} {r : Except Failure Answer}

theorem uploadAsset_answer (isLocal : settings.driver = .local)
    (course : Course settings root events w) (fits : Fits64 document)
    (accepted : Storage.Key.normalize (ofAsset document name) = .ok (ofAsset document name))
    (begun : content.cancelledBefore = false) (complete : content.ending = .complete)
    (calm : c.Calm)
    (ends : (serve caller (.uploadAsset document name content)).Ends inMemory c w w' r)
    (allowed : Allowed w.store.tables caller document .write (c.clock (w'.readings - 1))) :
    r = if (segment name).utf8ByteSize + 23 ≤ Storage.maxName then
        .ok (.asset (infoFor w.backend (ofAsset document name) content.bytes.length))
      else .error (.unavailable (.storage (.io Storage.Disk.Fault.nameTooLong.message))) := by
  obtain ⟨driver, shelved, _⟩ := course.stored isLocal
  obtain ⟨b, done, rfl⟩ := ends_as.mp ends
  rcases ends_bind.mp done with ⟨e, refused, rfl⟩ | ⟨v, _, admitted, _⟩
  · cases allow_passes course.reachable.numbered calm refused allowed
  · obtain ⟨u, _, _, done'⟩ := uploadAsset_ends driver shelved admitted
    obtain ⟨_, rfl⟩ := ends_unique done' done
    rw [shelved.upload_whole w.backend.root fits accepted begun complete]
    split <;> rfl

/-- A whole content is stored and then shown exactly if the name of the attachment leaves room for the
23 bytes that staging adds. A longer name is refused and nothing changes, though the tree itself could
take a name of up to 255 bytes. -/
theorem uploadAsset_room (isLocal : settings.driver = .local)
    (course : Course settings root events w) (fits : Fits64 document)
    (accepted : Storage.Key.normalize (ofAsset document name) = .ok (ofAsset document name))
    (begun : content.cancelledBefore = false) (complete : content.ending = .complete)
    (calm : c.Calm)
    (ends : (serve caller (.uploadAsset document name content)).Ends inMemory c w w' r)
    (allowed : Allowed w.store.tables caller document .write (c.clock (w'.readings - 1))) :
    ((segment name).utf8ByteSize + 23 ≤ Storage.maxName →
      r = .ok (.asset (infoFor w.backend (ofAsset document name) content.bytes.length)) ∧
        ∀ reader, Shows w' reader document (.openAsset document name)
          (some (.content (.ok content.bytes)))) ∧
    (Storage.maxName < (segment name).utf8ByteSize + 23 →
      r = .error (.unavailable (.storage (.io Storage.Disk.Fault.nameTooLong.message))) ∧
        ∀ path, w'.backend.disk.file? path = w.backend.disk.file? path) := by
  obtain ⟨driver, shelved, _⟩ := course.stored isLocal
  have answer := uploadAsset_answer isLocal course fits accepted begun complete calm ends allowed
  obtain ⟨refiled, _⟩ := serve_refiled driver shelved rfl ends
  have after := course.served ends
  obtain ⟨driver', _, _⟩ := after.stored isLocal
  constructor
  · intro room
    rw [if_pos room] at answer
    subst answer
    refine ⟨rfl, fun reader => ?_⟩
    have shows := openAsset_shows driver' refiled.shelved after.reachable.numbered reader document name
    rwa [refiled.files, if_pos rfl] at shows
  · intro long
    rw [if_neg (Nat.not_le.mpr long)] at answer
    subst answer
    refine ⟨rfl, fun path => ?_⟩
    rw [refiled.files]
    split <;> rfl

theorem sample_owned (kind : Kind) (now : Time.Instant) :
    Allowed sample.store.tables ⟨some 1, none⟩ 2 kind now := by
  have rows : ∃ d ∈ sample.store.tables.documents, ∃ ws ∈ sample.store.tables.workspaces,
      d.workspace = ws.id ∧ d.isLive = true ∧ ws.isLive = true ∧ d.id = 2 ∧ some 1 = some ws.owner := by
    decide +kernel
  obtain ⟨d, stored, ws, stored', inside, live, live', number, own⟩ := rows
  exact ⟨d, ws, ⟨stored, stored', inside, live, live'⟩, number, .owner own⟩

theorem sample_room : ∃ w', (serve ⟨some 1, none⟩ (.uploadAsset 2 "plan.png" (.ofBytes [1, 2]))).Ends
      inMemory steady sample w' (.ok (.asset ⟨"documents/2/plan.png",
        "http://localhost:8000/storage/documents/2/plan.png", 2⟩)) ∧
    ∀ reader, Shows w' reader 2 (.openAsset 2 "plan.png") (some (.content (.ok [1, 2]))) := by
  obtain ⟨events, course⟩ := sample_course
  have fits : Fits64 2 := ⟨by decide, by decide⟩
  have ends := ends_run (s := inMemory) (c := steady)
    (serve ⟨some 1, none⟩ (.uploadAsset 2 "plan.png" (.ofBytes [1, 2]))) sample
  obtain ⟨room, _⟩ := uploadAsset_room rfl course fits (by decide) rfl rfl (fun _ => rfl) ends
    (sample_owned _ _)
  obtain ⟨answer, shows⟩ := room (by decide)
  rw [answer] at ends
  exact ⟨_, ends, shows⟩

/-- A name of 236 bytes is not too long for a tree, but too long to be staged. -/
theorem sample_cramped :
    Storage.Key.normalize (ofAsset 2 (wide 59)) = .ok (ofAsset 2 (wide 59)) ∧
    (segment (wide 59)).utf8ByteSize = 236 ∧
    ∃ w', (serve ⟨some 1, none⟩ (.uploadAsset 2 (wide 59) (.ofBytes [1, 2]))).Ends inMemory steady
        sample w'
        (.error (.unavailable (.storage (.io Storage.Disk.Fault.nameTooLong.message)))) ∧
      Allowed sample.store.tables ⟨some 1, none⟩ 2 .write (steady.clock (w'.readings - 1)) := by
  obtain ⟨events, course⟩ := sample_course
  have fits : Fits64 2 := ⟨by decide, by decide⟩
  have accepted : Storage.Key.normalize (ofAsset 2 (wide 59)) = .ok (ofAsset 2 (wide 59)) := by
    rw [normalize_wide (by decide) (by decide), if_neg (by decide)]
  have size : (segment (wide 59)).utf8ByteSize = 236 := by
    rw [segment_wide (by decide) (by decide), utf8ByteSize_wide]
  have ends := ends_run (s := inMemory) (c := steady)
    (serve ⟨some 1, none⟩ (.uploadAsset 2 (wide 59) (.ofBytes [1, 2]))) sample
  have answer := uploadAsset_answer rfl course fits accepted rfl rfl (fun _ => rfl) ends
    (sample_owned _ _)
  rw [size, if_neg (by decide)] at answer
  rw [answer] at ends
  exact ⟨accepted, size, _, ends, sample_owned _ _⟩

end DiagramShare.Service
