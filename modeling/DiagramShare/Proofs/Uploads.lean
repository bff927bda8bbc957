import DiagramShare.Proofs.Spellings
import DiagramShare.Proofs.Tree

/-! Uploads. An upload makes the directories on its way, fills a file beside its destination and moves it
there. However it ends, it leaves a tidy tree; one that fails leaves the destination as it was, and at
most further directories. -/
namespace DiagramShare.Storage.Local

variable {root : String} {d made : Disk} {path staging : Path} {content : Content}

theorem mem_fill {written : Bytes} {pieces : List Bytes} {x : Disk}
    (listed : x ∈ fill d path written pieces) : ∃ bytes, x = d.write path bytes := by
  induction pieces generalizing written with
  | nil => cases listed
  | cons piece rest ih =>
    rcases List.mem_cons.mp listed with rfl | later
    · exact ⟨_, rfl⟩
    · exact ih later

theorem getLastD_fill (d : Disk) (path : Path) (written : Bytes) (pieces : List Bytes) :
    (fill d path written pieces).getLastD (d.write path written) =
      d.write path (written ++ pieces.flatten) := by
  induction pieces generalizing written with
  | nil => simp [fill]
  | cons piece rest ih =>
    rw [fill, List.getLastD_cons, ih, List.flatten_cons, List.append_assoc]

theorem stagingPath_append (parent : Path) (name : String) (number : Nat) :
    stagingPath (parent ++ [name]) number = parent ++ [stagingName name number] := by
  simp [stagingPath]

theorem stagingName_ne (name : String) (number : Nat) : stagingName name number ≠ name := by
  intro same
  have size := utf8ByteSize_stagingName name number
  rw [same] at size
  omega

theorem stagingPath_ne {path : Path} (some : path ≠ []) (number : Nat) :
    stagingPath path number ≠ path := by
  obtain ⟨parent, name, rfl⟩ := (List.eq_nil_or_concat' path).resolve_left some
  rw [stagingPath_append]
  intro same
  exact stagingName_ne name number (List.append_singleton_inj.mp same).2

theorem isTooLong_stagingName {name : String} {number : Nat}
    (short : Disk.isTooLong (stagingName name number) = false) : Disk.isTooLong name = false := by
  have size := utf8ByteSize_stagingName name number
  simp only [Disk.isTooLong, decide_eq_false_iff_not, size] at short ⊢
  omega

def failureOf : Ending → Option Failure
  | .complete => none
  | .broken text => some (.io text)
  | .cancelled => some .cancelled
  | .cancelledAtEnd => some .cancelled

def settled (root : String) (made : Disk) (path staging : Path) (content : Content) :
    Disk × Except Failure Unit × List LogRecord :=
  match made.create staging with
  | .error fault =>
    (made, .error (.io fault.message),
      if fault = .missing then [] else [leftover root staging fault])
  | .ok _ =>
    match failureOf content.ending with
    | some e => (made.erase staging, .error e, [])
    | none =>
      if made.isDirectory path then
        (made.erase staging, .error (.io Disk.Fault.isDirectory.message), [])
      else ((made.erase staging).write path content.bytes, .ok (), [])

def Upload.final (u : Upload) (d : Disk) : Disk × Except Failure Unit × List LogRecord :=
  (u.states.getLastD d, u.result, u.records)

def Upload.running (u : Upload) : List Disk :=
  match u.result with
  | .ok () => u.states.dropLast
  | .error _ => u.states

theorem Upload.running_cons {u : Upload} {first x : Disk}
    (listed : x ∈ (⟨first :: u.states, u.result, u.records⟩ : Upload).running) :
    x = first ∨ x ∈ u.running := by
  obtain ⟨states, _ | _, records⟩ := u
  · exact List.mem_cons.mp listed
  · cases states with
    | nil => cases listed
    | cons second more => exact List.mem_cons.mp listed

inductive During (made : Disk) (staging : Path) : Disk → Prop where
  | without : During made staging made
  | filling (bytes : Bytes) : During made staging (made.write staging bytes)
  | dropped : During made staging (made.erase staging)

theorem create_ok {created : Disk} (done : made.create staging = .ok created) :
    created = made.write staging [] := by
  unfold Disk.create at done
  split at done <;> cases done <;> rfl

theorem fill_last (made : Disk) (staging : Path) (content : Content) :
    (fill (made.write staging []) staging [] content.pieces).getLastD (made.write staging []) =
      made.write staging content.bytes := by
  have all := getLastD_fill (made.write staging []) staging [] content.pieces
  rwa [Disk.write_write, Disk.write_write, List.nil_append] at all

theorem fill_during {x : Disk} {pieces : List Bytes}
    (listed : x ∈ made.write staging [] :: fill (made.write staging []) staging [] pieces) :
    During made staging x := by
  rcases List.mem_cons.mp listed with rfl | later
  · exact .filling []
  · obtain ⟨bytes, rfl⟩ := mem_fill later
    rw [Disk.write_write]
    exact .filling bytes

theorem dropped_during {states : List Disk} (during : ∀ x ∈ states, During made staging x)
    (e : Failure) :
    let u : Upload := ⟨states ++ [made.erase staging], .error e, []⟩
    u.final made = (made.erase staging, .error e, []) ∧ ∀ x ∈ u.running, During made staging x := by
  refine ⟨by simp [Upload.final], fun x listed => ?_⟩
  rcases List.mem_append.mp listed with earlier | final
  · exact during x earlier
  · rw [List.mem_singleton.mp final]
    exact .dropped

theorem moved_during {states : List Disk} (during : ∀ x ∈ states, During made staging x)
    (moved : Disk) :
    let u : Upload := ⟨states ++ [moved], .ok (), []⟩
    u.final made = (moved, .ok (), []) ∧ ∀ x ∈ u.running, During made staging x := by
  refine ⟨by simp [Upload.final], fun x listed => during x ?_⟩
  simpa [Upload.running] using listed

theorem transfer_settled (root : String) (made : Disk) (path staging : Path)
    (content : Content) :
    (transfer root made path staging content).final made =
        settled root made path staging content ∧
      ∀ x ∈ (transfer root made path staging content).running, During made staging x := by
  unfold transfer settled
  cases create : made.create staging with
  | error fault => exact ⟨rfl, nofun⟩
  | ok created =>
    obtain rfl := create_ok create
    simp only [fill_last, dropStaging, Disk.erase_write]
    have during : ∀ x ∈ made.write staging [] :: fill (made.write staging []) staging []
        content.pieces, During made staging x := fun _ => fill_during
    cases ending : content.ending with
    | complete =>
      simp only [failureOf, Disk.move, Disk.file_write, if_true, Disk.isDirectory_write,
        Disk.erase_write]
      cases made.isDirectory path with
      | true => exact dropped_during during _
      | false => exact moved_during during _
    | broken text => exact dropped_during during _
    | cancelled => exact dropped_during during _
    | cancelledAtEnd => exact dropped_during during _

def uploaded (root : String) (d : Disk) (path : Path) (number : Nat) (content : Content) :
    Disk × Except Failure Unit × List LogRecord :=
  match d.makeDirectories path.dropLast with
  | (made, some fault) => (made, .error (.io fault.message), [])
  | (made, none) => settled root made path (stagingPath path number) content

theorem uploadTo_final (root : String) (d : Disk) (path : Path) (number : Nat)
    (content : Content) :
    (uploadTo root d path number content).final d = uploaded root d path number content := by
  unfold uploadTo uploaded
  rcases d.makeDirectories path.dropLast with ⟨made, _ | fault⟩
  · simp only [← (transfer_settled root made path (stagingPath path number) content).1,
      Upload.final, List.getLastD_cons]
  · rfl

theorem uploadTo_running (h : d.Tidy) {path : Path} {number : Nat} {x : Disk}
    (listed : x ∈ (uploadTo root d path number content).running) :
    ∃ made, d.Grown made path.dropLast ∧ During made (stagingPath path number) x := by
  obtain ⟨_, grown, _⟩ := Disk.makeBelow_grown h Disk.isDirectory_root path.dropLast
  rw [List.nil_append] at grown
  unfold uploadTo Disk.makeDirectories at listed
  rcases below : d.makeBelow [] path.dropLast with ⟨made, _ | fault⟩
  · rw [below] at grown listed
    refine ⟨made, grown, ?_⟩
    rcases Upload.running_cons listed with rfl | later
    · exact .without
    · exact (transfer_settled root made path (stagingPath path number) content).2 x later
  · rw [below] at grown listed
    rw [List.mem_singleton.mp listed]
    exact ⟨made, grown, .without⟩

/-- What an upload to a path leaves and answers. On its way, directories are made. -/
inductive Outcome (d : Disk) (path staging : Path) (content : Content) :
    Disk → Except Failure Unit → Prop where
  | refused {made : Disk} {e : Failure} (tidy : made.Tidy) (grown : d.Grown made path.dropLast) :
      Outcome d path staging content made (.error e)
  | dropped {made : Disk} {e : Failure} (tidy : made.Tidy) (grown : d.Grown made path.dropLast) :
      Outcome d path staging content (made.erase staging) (.error e)
  | moved {made : Disk} (tidy : made.Tidy) (grown : d.Grown made path.dropLast)
      (complete : content.ending = .complete) (place : made.Stands path)
      (other : made.isDirectory path = false) :
      Outcome d path staging content ((made.erase staging).write path content.bytes) (.ok ())

theorem failureOf_none {ending : Ending} : failureOf ending = none ↔ ending = .complete := by
  cases ending <;> simp [failureOf]

theorem stands_of_create (tidy : made.Tidy) {path : Path} {number : Nat} {created : Disk}
    (some : path ≠ []) (there : made.isDirectory path.dropLast = true)
    (done : made.create (stagingPath path number) = .ok created) : made.Stands path := by
  obtain ⟨parent, name, rfl⟩ := (List.eq_nil_or_concat' path).resolve_left some
  rw [List.dropLast_concat] at there
  rw [stagingPath_append, tidy.create_in there] at done
  refine ⟨parent, name, rfl, there, ?_⟩
  cases long : Disk.isTooLong (stagingName name number) with
  | false => exact isTooLong_stagingName long
  | true => simp [long] at done

theorem uploaded_outcome (h : d.Tidy) (root : String) {path : Path} (some : path ≠ [])
    (number : Nat) (content : Content) :
    Outcome d path (stagingPath path number) content (uploaded root d path number content).1
      (uploaded root d path number content).2.1 := by
  obtain ⟨tidy, grown, directory⟩ := Disk.makeBelow_grown h Disk.isDirectory_root path.dropLast
  rw [List.nil_append] at grown directory
  unfold uploaded Disk.makeDirectories
  rcases below : d.makeBelow [] path.dropLast with ⟨made, _ | fault⟩
  · rw [below] at tidy grown directory
    have there : made.isDirectory path.dropLast = true := directory rfl
    simp only [settled]
    cases create : made.create (stagingPath path number) with
    | error fault => exact .refused tidy grown
    | ok created =>
      have place := stands_of_create tidy some there create
      cases failure : failureOf content.ending with
      | some e => exact .dropped tidy grown
      | none =>
        by_cases directory : made.isDirectory path = true
        · simp only [directory, if_true]
          exact .dropped tidy grown
        · simp only [directory]
          exact .moved tidy grown (failureOf_none.mp failure) place
            (Bool.not_eq_true _ ▸ directory)
  · rw [below] at tidy grown
    exact .refused tidy grown

theorem During.file {x : Disk} {q : Path} (h : During made staging x) (other : q ≠ staging) :
    x.file? q = made.file? q := by
  cases h with
  | without => rfl
  | filling bytes => rw [Disk.file_write, if_neg other]
  | dropped => rw [Disk.file_erase, if_neg other]

namespace Outcome

variable {x : Disk} {result : Except Failure Unit} {e : Failure}

theorem tidy (h : Outcome d path staging content x result) : x.Tidy := by
  cases h with
  | refused tidy => exact tidy
  | dropped tidy => exact tidy.erase staging
  | moved tidy _ _ place other => exact (tidy.erase staging).write place other _

theorem failed (h : Outcome d path staging content x (.error e))
    (unused : d.file? staging = none) : d.Grown x path.dropLast := by
  cases h with
  | refused _ grown => exact grown
  | dropped _ grown => rwa [Disk.erase_absent ((grown.file staging).trans unused)]

theorem succeeded (h : Outcome d path staging content x (.ok ()))
    (unused : d.file? staging = none) (q : Path) :
    x.file? q = if q = path then some content.bytes else d.file? q := by
  cases h with
  | moved _ grown =>
    rw [Disk.file_write, Disk.erase_absent ((grown.file staging).trans unused), grown.file]

theorem whole (h : Outcome d path staging content x (.ok ()))
    (begun : content.cancelledBefore = false) : content.whole? = some content.bytes := by
  cases h with
  | moved _ _ complete => simp [Content.whole?, begun, complete]

end Outcome

theorem canonical_ok {key k : String} : canonical key = .ok k ↔ Key.normalize key = .ok k := by
  rw [canonical]
  cases Key.normalize key <;> simp [Except.mapError]

theorem running_place {key : String} {number : Nat} {x : Disk}
    (listed : x ∈ (uploadStates root d key number content).1.running) :
    ∃ k, Key.normalize key = .ok k ∧
      x ∈ (uploadTo root d (pathOf k) number content).running := by
  unfold uploadStates at listed
  cases accepted : canonical key with
  | error e =>
    rw [accepted] at listed
    cases listed
  | ok k =>
    rw [accepted] at listed
    cases early : content.cancelledBefore with
    | true => simp [early, Upload.running] at listed
    | false => exact ⟨k, canonical_ok.mp accepted, by simpa [early] using listed⟩

theorem upload_eq (root : String) (d : Disk) (key : String) (number : Nat) (content : Content) :
    upload root d key number content =
      match canonical key with
      | .error e => (d, .error e, [])
      | .ok k =>
        if content.cancelledBefore then (d, .error .cancelled, [])
        else
          match uploaded root d (pathOf k) number content with
          | (x, .ok (), _) => (x, .ok k, [stored root k content.bytes.length])
          | (x, .error e, records) => (x, .error e, records) := by
  unfold upload uploadStates
  cases canonical key with
  | error e => rfl
  | ok k =>
    cases content.cancelledBefore with
    | true => rfl
    | false =>
      simp only [← uploadTo_final, Upload.final, Bool.false_eq_true, if_false]
      cases (uploadTo root d (pathOf k) number content).result <;> rfl

/-- An upload by key changes nothing and fails, or ends as one to the place of its key. -/
theorem upload_cases (h : d.Tidy) (root key : String) (number : Nat) (content : Content) :
    (∃ e records, upload root d key number content = (d, .error e, records)) ∨
      ∃ k x result records, Key.normalize key = .ok k ∧ content.cancelledBefore = false ∧
        Outcome d (pathOf k) (stagingPath (pathOf k) number) content x result ∧
        upload root d key number content = (x, result.map fun _ => k, records) := by
  rw [upload_eq]
  cases accepted : canonical key with
  | error e => exact .inl ⟨e, [], rfl⟩
  | ok k =>
    cases begun : content.cancelledBefore with
    | true => exact .inl ⟨.cancelled, [], rfl⟩
    | false =>
      have outcome := uploaded_outcome h root (Key.pathOf_ne_nil k) number content
      rcases done : uploaded root d (pathOf k) number content with ⟨x, e | _, records⟩
      · rw [done] at outcome
        refine .inr ⟨k, x, .error e, records, canonical_ok.mp accepted, rfl, outcome, ?_⟩
        simp [done, Except.map]
      · rw [done] at outcome
        refine .inr ⟨k, x, .ok (), [stored root k content.bytes.length], canonical_ok.mp accepted,
          rfl, outcome, ?_⟩
        simp [done, Except.map]

theorem delete_cases (d : Disk) (key : String) :
    (∃ e, delete d key = (d, .error e)) ∨
      ∃ k, Key.normalize key = .ok k ∧ delete d key = (d.erase (pathOf k), .ok ()) := by
  unfold delete Disk.remove
  cases accepted : canonical key with
  | error e => exact .inl ⟨e, rfl⟩
  | ok k =>
    cases there : d.entry (pathOf k) with
    | error fault => exact .inl ⟨failure k fault, by simp [there]⟩
    | ok entry =>
      cases entry with
      | directory => exact .inl ⟨failure k .isDirectory, by simp [there]⟩
      | file content => exact .inr ⟨k, canonical_ok.mp accepted, by simp [there]⟩

end DiagramShare.Storage.Local
