import DiagramShare.Proofs.Renumbered

/-! Runs side by side. Two services are asked for the same things in the same order, one over each
store. At every step both answer alike, as long as the keys of an attachment are both short enough or
both too long and an expiry lies ahead for both. -/
namespace DiagramShare.Service

open DiagramShare.Access
open DiagramShare.Repository (Memory Relational Coupled Paired)
open DiagramShare.Repository.Relational (isSendable)
open DiagramShare.Storage (Backend Disk)
open DiagramShare.Time (Instant)

/-- A service over each store, and which of their numbers stand for one row. -/
structure Tandem where
  pairing : Pairing
  left : World Memory
  right : World Relational

namespace Tandem

def start (settings : Settings.Storage) (root root' : String) : Tandem :=
  ⟨⟨[], [], [], []⟩, World.start .empty (Backend.opened settings root).1,
    World.start .empty (Backend.opened settings root').1⟩

variable (c c' : Conditions) (caller : Caller) (op op' : Operation) (t : Tandem)

def result : Except Failure Answer := ((serve caller op).run inMemory c t.left).2.1

def result' : Except Failure Answer := ((serve caller op').run inDatabase c' t.right).2.1

/-- Both services after one request, made with the numbers of each side. -/
def next : Tandem where
  pairing := op.extend t.pairing (t.result c caller op) (t.result' c' caller op')
  left := ((serve caller op).run inMemory c t.left).1
  right := ((serve caller op').run inDatabase c' t.right).1

/-- Both services do what is asked, and their answers say the same under paired numbers, or both
refuse it with an error of one kind. No number is paired with two others. -/
structure AnswersAlike : Prop where
  paired : (t.next c c' caller op op').pairing.OneToOne
  met : Meet (Answer.Alike (t.next c c' caller op op').pairing) (fun e e' => e'.code = e.code)
    (t.result c caller op) (t.result' c' caller op')

end Tandem

/-- What the same requests, one after another, lead both services to. -/
inductive Together (c c' : Conditions) : Tandem → Prop where
  | start (settings : Settings.Storage) (root root' : String) :
    Together c c' (.start settings root root')
  | next {t : Tandem} (before : Together c c' t) {caller : Caller} {op op' : Operation}
    (asked : Asked t.pairing caller op op') (matching : Matching c c' op op') :
    Together c c' (t.next c c' caller op op')

variable {c c' : Conditions} {t : Tandem} {caller : Caller} {op op' : Operation}

theorem inStep_start (settings : Settings.Storage) (root root' : String) :
    let t := Tandem.start settings root root'
    InStep c c' t.pairing t.left t.right := by
  refine ⟨rfl, rfl, ⟨rfl, .nil, .nil⟩, ?_⟩
  exact {
    users := rfl
    sane := ⟨rfl, Repository.numbered_empty, ⟨fun _ => rfl, nofun⟩, Repository.unique_empty⟩
    sound := Relational.sound_empty
    paired := ⟨.nil, .nil, .nil, .nil⟩
    tables := ⟨.nil, .nil, .nil, .nil⟩
    dated := Repository.Tables.dated_empty
    dated' := Repository.Tables.dated_empty }

theorem extend_error (op : Operation) (π : Pairing) (e e' : Failure) :
    op.extend π (.error e) (.error e') = π := by
  cases op <;> rfl

/-- One request leaves both services in step and is answered alike. -/
theorem next_inStep (cmp : Comparable c c') (step : InStep c c' t.pairing t.left t.right)
    (asked : Asked t.pairing caller op op') (matching : Matching c c' op op') :
    let t' := t.next c c' caller op op'
    InStep c c' t'.pairing t'.left t'.right ∧
      Meet (Answer.Alike t'.pairing) (fun e e' => e'.code = e.code) (t.result c caller op)
        (t.result' c' caller op') := by
  have met := serve_parallel cmp step.coupled.paired.oneToOne asked matching t.left t.right _ _ _ _
    ⟨step, trivial⟩ (ends_run _ _) (ends_run _ _)
  simp only [Tandem.next, Tandem.result, Tandem.result']
  generalize (serve caller op).run inMemory c t.left = out at met ⊢
  generalize (serve caller op').run inDatabase c' t.right = out' at met ⊢
  obtain ⟨w, r, records⟩ := out
  obtain ⟨w', r', records'⟩ := out'
  dsimp only at met ⊢
  cases met with
  | ok done => exact ⟨done.2, .ok done.1⟩
  | error refused =>
    rw [extend_error]
    exact ⟨refused.2, .error refused.1⟩

theorem Together.inStep (cmp : Comparable c c') (run : Together c c' t) :
    InStep c c' t.pairing t.left t.right := by
  induction run with
  | start settings root root' => exact inStep_start settings root root'
  | next _ asked matching ih => exact (next_inStep cmp ih asked matching).1

/-- The store in memory stands in for the database: whatever has been asked before, both services
answer alike. -/
theorem together_answersAlike (cmp : Comparable c c') (run : Together c c' t)
    (asked : Asked t.pairing caller op op') (matching : Matching c c' op op') :
    t.AnswersAlike c c' caller op op' := by
  obtain ⟨step, met⟩ := next_inStep cmp (run.inStep cmp) asked matching
  exact ⟨step.coupled.paired.oneToOne, met⟩

def owner : Caller := ⟨some 1, none⟩

def leaf (n : Nat) : DocumentRequest := ⟨"Page", .mermaid, some s!"page-{n}", none, some "a-->b"⟩

def binder (c c' : Conditions) : Nat → Tandem
  | 0 => (Tandem.start {} "left" "right").next c c' owner (.createWorkspace ⟨"Team", none, none⟩)
    (.createWorkspace ⟨"Team", none, none⟩)
  | n + 1 => (binder c c' n).next c c' owner (.createDocument 1 (leaf n))
    (.createDocument 1 (leaf n))

theorem paired_workspaces (π : Pairing) (a b : DocumentDetail) :
    (paired π a b).workspaces = π.workspaces := by
  unfold paired Pairing.addDetail
  split <;> rfl

theorem extend_createDocument (id : Int) (request : DocumentRequest) (π : Pairing)
    (r r' : Except Failure Answer) :
    ((Operation.createDocument id request).extend π r r').workspaces = π.workspaces := by
  unfold Operation.extend
  split
  · contradiction
  · exact paired_workspaces _ _ _
  · contradiction
  · contradiction
  · rfl

theorem asked_leaf {π : Pairing} (stand : Stand π.workspaces 1 1) (n : Nat) :
    Asked π owner (.createDocument 1 (leaf n)) (.createDocument 1 (leaf n)) := by
  refine ⟨.createDocument stand _, by decide, ⟨?_, nofun⟩, nofun⟩
  simp only [Operation.texts, leaf]
  decide

theorem binder_together (paired : (binder c c' 0).pairing.workspaces = [(1, 1)]) (n : Nat) :
    (binder c c' n).pairing.workspaces = [(1, 1)] ∧ Together c c' (binder c c' n) := by
  induction n with
  | zero =>
    exact ⟨paired, .next (.start _ _ _) ⟨.createWorkspace _, by decide, ⟨by decide, nofun⟩, nofun⟩
      ⟨nofun, nofun⟩⟩
  | succ n ih =>
    have stand : Stand (binder c c' n).pairing.workspaces 1 1 := by
      rw [ih.1]
      decide
    exact ⟨(extend_createDocument _ _ _ _ _).trans ih.1,
      .next ih.2 (asked_leaf stand n) ⟨nofun, nofun⟩⟩

theorem brief_rising (m n : Nat) (le : m ≤ n) : brief.clock m ≤ brief.clock n := by
  simp only [brief, Instant.le_iff, Instant.ofSeconds]
  omega

theorem brief_paced {clock clock' : Nat → Instant} (rising : ∀ m n, m ≤ n → clock m ≤ clock n)
    (rising' : ∀ m n, m ≤ n → clock' m ≤ clock' n) :
    Paced { brief with clock := clock } { brief with clock := clock' } :=
  ⟨fun _ => rfl, fun _ => rfl, rising, rising', rfl, brief_keepable.sendable⟩

theorem brief_comparable : Comparable brief brief where
  toPaced := brief_paced brief_rising brief_rising
  held := fun n => inRange_of_recent (brief_recent n)
  ordinary := fun _ => Nat.zero_lt_succ _
  short := brief_keepable.short

/-- The document that is number 2 in memory is number 1 in the database. Both services share it for
a while. -/
theorem binder_answersAlike :
    (binder brief brief 1).AnswersAlike brief brief owner
      (.shareDocument 2 ⟨some 2, .edit, some (.ofSeconds 1000)⟩)
      (.shareDocument 1 ⟨some 2, .edit, some (.ofSeconds 1000)⟩) ∧
    ((binder brief brief 1).result brief owner
      (.shareDocument 2 ⟨some 2, .edit, some (.ofSeconds 1000)⟩)).isOk = true := by
  have run : Together brief brief (binder brief brief 1) := (binder_together (by decide +kernel) 1).2
  refine ⟨together_answersAlike brief_comparable run ?_ ⟨fun _ _ _ => Iff.rfl, nofun⟩,
    by decide +kernel⟩
  refine ⟨.shareDocument (by decide +kernel) _, by decide, ⟨List.forall_mem_nil _, nofun⟩, ?_⟩
  rintro t ⟨⟩
  exact ⟨by decide, by decide⟩

def glimpse : Except Failure Answer → Except String (List String)
  | .ok (.workspaces page) => .ok (page.data.map Workspace.name)
  | .ok _ => .ok []
  | .error e => .error e.code

theorem Tandem.AnswersAlike.glimpse_eq (h : t.AnswersAlike c c' caller op op') :
    glimpse (t.result' c' caller op') = glimpse (t.result c caller op) := by
  have met := h.met
  generalize t.result c caller op = r at met ⊢
  generalize t.result' c' caller op' = r' at met ⊢
  cases met with
  | error same => exact congrArg Except.error same
  | ok alike =>
    cases alike with
    | workspaces alike =>
      exact congrArg Except.ok (Repository.map_twin alike.data fun _ _ row => row.name)
    | _ => rfl

/-- The same requests on both sides, the last of which is not answered alike. -/
structure Apart (c c' : Conditions) (t : Tandem) (op op' : Operation) : Prop where
  paced : Paced c c'
  run : Together c c' t
  asked : Asked t.pairing owner op op'
  differ : ¬ t.AnswersAlike c c' owner op op'

def wide (n : Nat) : String := String.ofList (List.replicate n '𝄞')

section Wide

variable {n : Nat} (named : n ≠ 0) (short : n ≤ 255)

theorem utf8ByteSize_wide (n : Nat) : (wide n).utf8ByteSize = 4 * n := by
  induction n with
  | zero => rfl
  | succ n ih =>
    rw [wide] at ih ⊢
    rw [List.replicate_succ, String.ofList_cons, String.utf8ByteSize_append, ih]
    change 4 + 4 * n = _
    omega

theorem isDangerous_wide (n : Nat) : Storage.Key.isDangerous (wide n).toList = false := by
  rw [wide, String.toList_ofList, ← List.append_nil (List.replicate n '𝄞'),
    Storage.Key.isDangerous_append]
  · rfl
  · intro c hc
    rw [List.eq_of_mem_replicate hc]
    decide

include named short

theorem segment_wide : Storage.Key.segment (wide n) = wide n := by
  have kept : Storage.Key.isReplaced '𝄞' = false := by decide
  simp [Storage.Key.segment, wide, Text.stripWhere, Storage.Key.maxSegment, kept, named, short]

theorem normalize_wide (id : Int) : Storage.Key.normalize (Storage.Key.ofAsset id (wide n)) =
    if 1024 < 11 + (toString id).utf8ByteSize + 4 * n then .error .tooLong
    else .ok (Storage.Key.ofAsset id (wide n)) := by
  rw [Storage.Key.normalize_ofAsset, Storage.Key.utf8ByteSize_ofAsset, segment_wide named short,
    utf8ByteSize_wide, isDangerous_wide, if_neg Bool.false_ne_true, Storage.Key.maxBytes]

theorem delete_wide {b : Backend} (own : b.driver = .local) (bare : b.disk = .empty) (id : Int) :
    (b.delete (Storage.Key.ofAsset id (wide n))).2 =
      if 1024 < 11 + (toString id).utf8ByteSize + 4 * n then .error (.badKey .tooLong)
      else .error (.missing (Storage.Key.ofAsset id (wide n))) := by
  have absent : Disk.empty.remove (Storage.Local.pathOf (Storage.Key.ofAsset id (wide n))) =
      .error .missing := by
    rw [Storage.Key.pathOf_ofAsset]
    rfl
  simp only [Backend.delete, own, bare, Storage.Local.delete, Storage.Local.canonical,
    normalize_wide named short id]
  by_cases long : 1024 < 11 + (toString id).utf8ByteSize + 4 * n
  · simp only [if_pos long]
    rfl
  · simp only [if_neg long, Except.mapError, absent]
    rfl

end Wide

section Deletion

variable {σ : Type} {s : Store σ} {w v : World σ} {id : Int} {name : String}
variable (allowed : (allow caller id .write).Ends s c w v (.ok ()))

include allowed

theorem deleteAsset_refused {fault : Storage.Key.Fault}
    (bad : (v.backend.delete (Storage.Key.ofAsset id name)).2 = .error (.badKey fault)) :
    ((serve caller (.deleteAsset id name)).run s c w).2.1 = .error (.invalid (.key fault)) := by
  let left : World σ := { v with
    backend := (v.backend.delete (Storage.Key.ofAsset id name)).1, uploads := v.uploads + 1 }
  have refused : (deleteAsset caller id name).Ends s c w left (.error (.invalid (.key fault))) := by
    refine ends_then allowed ?_
    simp only [Program.Ends, Program.run, Backend.answer, bad]
    exact ⟨rfl, rfl⟩
  exact (ends_as.mpr ⟨_, refused, rfl⟩).2

theorem deleteAsset_absent {key : String}
    (absent : (v.backend.delete (Storage.Key.ofAsset id name)).2 = .error (.missing key)) :
    ((serve caller (.deleteAsset id name)).run s c w).2.1 = .ok .nothing := by
  let left : World σ := { v with
    backend := (v.backend.delete (Storage.Key.ofAsset id name)).1, uploads := v.uploads + 1 }
  have removed : (deleteAsset caller id name).Ends s c w left (.ok ()) := by
    refine ends_then allowed ?_
    simp only [Program.Ends, Program.run, Backend.answer, absent]
    exact ⟨rfl, rfl⟩
  exact (ends_as.mpr ⟨_, removed, rfl⟩).2

end Deletion

/-- With five documents the last one is number 10 in memory and number 5 in the database, so that its
attachment has a key of 1025 bytes here and of 1024 bytes there. -/
theorem apart_keys : Apart brief brief (binder brief brief 5) (.deleteAsset 10 (wide 253))
    (.deleteAsset 5 (wide 253)) where
  paced := brief_comparable.toPaced
  run := (binder_together (by decide +kernel) 5).2
  asked := ⟨.deleteAsset (by decide +kernel) _, by decide, ⟨List.forall_mem_nil _, nofun⟩, nofun⟩
  differ := by
    let p := (allow owner 10 .write).run inMemory brief (binder brief brief 5).left
    let p' := (allow owner 5 .write).run inDatabase brief (binder brief brief 5).right
    have here : p.2.1 = .ok () ∧ p.1.backend.driver = .local ∧ p.1.backend.disk = .empty := by
      decide +kernel
    have there : p'.2.1 = .ok () ∧ p'.1.backend.driver = .local ∧ p'.1.backend.disk = .empty := by
      decide +kernel
    have long : (p.1.backend.delete (Storage.Key.ofAsset 10 (wide 253))).2 = _ :=
      (delete_wide (by decide) (by decide) here.2.1 here.2.2 10).trans (if_pos (by decide))
    have short : (p'.1.backend.delete (Storage.Key.ofAsset 5 (wide 253))).2 = _ :=
      (delete_wide (by decide) (by decide) there.2.1 there.2.2 5).trans (if_neg (by decide))
    have refused := deleteAsset_refused ⟨rfl, here.1⟩ long
    have done := deleteAsset_absent ⟨rfl, there.1⟩ short
    intro alike
    have same := alike.glimpse_eq
    rw [Tandem.result, Tandem.result', refused, done] at same
    cases same

def still : Conditions := { brief with clock := fun _ => .epoch }

def early : Conditions := { brief with clock := fun _ => .ofSeconds (-300000000000) }

/-- A clock that shows a leap second until the first workspace is made, and then the next second. -/
def leaping : Conditions :=
  { brief with clock := fun n => if n < 3 then ⟨0, 1500000000, by decide⟩ else .ofSeconds 1 }

def wordy : Conditions := { brief with token := fun _ => String.ofList (List.replicate 65 'a') }

theorem leaping_rising (m n : Nat) (le : m ≤ n) : leaping.clock m ≤ leaping.clock n := by
  simp only [leaping]
  split <;> split
  · exact Instant.le_refl _
  · decide
  · omega
  · exact Instant.le_refl _

/-- Of two clocks, one has passed an expiry that lies ahead for the other. -/
theorem apart_expiry : Apart brief still (binder brief still 1)
    (.shareDocument 2 ⟨none, .view, some (.ofSeconds 1)⟩)
    (.shareDocument 1 ⟨none, .view, some (.ofSeconds 1)⟩) where
  paced := brief_paced brief_rising fun _ _ _ => Instant.le_refl _
  run := (binder_together (by decide +kernel) 1).2
  asked := by
    refine ⟨.shareDocument (by decide +kernel) _, by decide, ⟨List.forall_mem_nil _, nofun⟩, ?_⟩
    rintro t ⟨⟩
    exact ⟨by decide, by decide⟩
  differ := fun alike => absurd alike.glimpse_eq (by decide +kernel)

theorem apart_early : Apart early early (binder early early 0) (.deleteWorkspace 1)
    (.deleteWorkspace 1) where
  paced := brief_paced (fun _ _ _ => Instant.le_refl _) fun _ _ _ => Instant.le_refl _
  run := (binder_together (by decide +kernel) 0).2
  asked := ⟨.deleteWorkspace (by decide +kernel), by decide, ⟨List.forall_mem_nil _, nofun⟩, nofun⟩
  differ := fun alike => absurd alike.glimpse_eq (by decide +kernel)

theorem apart_wordy : Apart wordy wordy (binder wordy wordy 1)
    (.shareDocument 2 ⟨none, .view, none⟩) (.shareDocument 1 ⟨none, .view, none⟩) where
  paced := ⟨fun _ => rfl, fun _ => rfl, brief_rising, brief_rising, rfl, fun n => by
    simp [wordy, isSendable]⟩
  run := (binder_together (by decide +kernel) 1).2
  asked := ⟨.shareDocument (by decide +kernel) _, by decide, ⟨List.forall_mem_nil _, nofun⟩, nofun⟩
  differ := fun alike => absurd alike.glimpse_eq (by decide +kernel)

def shelves (c c' : Conditions) : Tandem :=
  (binder c c' 0).next c c' owner (.createWorkspace ⟨"Other", none, none⟩)
    (.createWorkspace ⟨"Other", none, none⟩)

theorem newestFirst_two {α : Type} (key : α → Instant × Int) (a b : α) :
    Repository.newestFirst key [a, b] =
      if Repository.isNewer (key a) (key b) then [a, b] else [b, a] := by
  simp [Repository.newestFirst, List.mergeSort, List.merge]

theorem apart_leaping : Apart brief leaping (shelves brief leaping) (.listWorkspaces ⟨none, none⟩)
    (.listWorkspaces ⟨none, none⟩) where
  paced := brief_paced brief_rising leaping_rising
  run := .next (binder_together (by decide +kernel) 0).2
    ⟨.createWorkspace _, by decide, ⟨by decide, nofun⟩, nofun⟩ ⟨nofun, nofun⟩
  asked := ⟨.listWorkspaces _, by decide, ⟨List.forall_mem_nil _, nofun⟩, nofun⟩
  differ := by
    let rows := (shelves brief leaping).left.store.tables
    let rows' := (shelves brief leaping).right.store.tables
    have here : rows.owned 1 = [⟨1, "Team", none, 1, false, .ofSeconds 2, .ofSeconds 2, none⟩,
        ⟨2, "Other", none, 1, false, .ofSeconds 5, .ofSeconds 5, none⟩] := by decide +kernel
    have there : rows'.owned 1 = [⟨1, "Team", none, 1, false, ⟨1, 500000000, by decide⟩,
        ⟨1, 500000000, by decide⟩, none⟩,
        ⟨2, "Other", none, 1, false, .ofSeconds 1, .ofSeconds 1, none⟩] := by decide +kernel
    intro alike
    have same : Except.ok ((rows'.ownedPage 1 10 0).map Workspace.name) =
      Except.ok ((rows.ownedPage 1 10 0).map Workspace.name) := alike.glimpse_eq
    rw [Repository.Tables.ownedPage, Repository.Tables.ownedPage, here, there, newestFirst_two,
      newestFirst_two] at same
    exact absurd same (by decide)

/-- Each of the conditions is needed. Without it, both services are asked for the same things and do
not answer alike: a key may be too long for one of them alone, a clock may have passed an expiry that
lies ahead for the other, and the database can neither keep all instants nor all tokens. -/
theorem answers_apart :
    Apart brief brief (binder brief brief 5) (.deleteAsset 10 (wide 253))
      (.deleteAsset 5 (wide 253)) ∧
    Apart brief still (binder brief still 1)
      (.shareDocument 2 ⟨none, .view, some (.ofSeconds 1)⟩)
      (.shareDocument 1 ⟨none, .view, some (.ofSeconds 1)⟩) ∧
    Apart early early (binder early early 0) (.deleteWorkspace 1) (.deleteWorkspace 1) ∧
    Apart brief leaping (shelves brief leaping) (.listWorkspaces ⟨none, none⟩)
      (.listWorkspaces ⟨none, none⟩) ∧
    Apart wordy wordy (binder wordy wordy 1) (.shareDocument 2 ⟨none, .view, none⟩)
      (.shareDocument 1 ⟨none, .view, none⟩) :=
  ⟨apart_keys, apart_expiry, apart_early, apart_leaping, apart_wordy⟩

end DiagramShare.Service
