import DiagramShare.Proofs.Effect

/-! What rows hang on. A live share is on a live document, a live document is in a live workspace,
and every user that a row names is known. The store does not ask for live parents; the operations
find them first, and deletions go down to every child. -/
namespace DiagramShare.Repository

open DiagramShare.Time (Instant)

def Tables.HasWorkspace (t : Tables) (id : Int) : Prop :=
  ∃ w ∈ t.workspaces, w.id = id ∧ w.isLive = true

def Tables.HasDocument (t : Tables) (id : Int) : Prop :=
  ∃ d ∈ t.documents, d.id = id ∧ d.isLive = true

/-- No row hangs on something that is not there. -/
structure Memory.Rooted (m : Memory) : Prop where
  shares : ∀ s ∈ m.tables.shares, s.isLive = true → m.tables.HasDocument s.document
  documents : ∀ d ∈ m.tables.documents, d.isLive = true → m.tables.HasWorkspace d.workspace
  versions : ∀ v ∈ m.tables.versions, ∃ d ∈ m.tables.documents, d.id = v.document
  owners : ∀ w ∈ m.tables.workspaces, w.owner ∈ m.users
  authors : ∀ v ∈ m.tables.versions, ∀ user, v.author = some user → user ∈ m.users
  holders : ∀ s ∈ m.tables.shares, ∀ user, s.user = some user → user ∈ m.users

theorem rooted_empty : Memory.empty.Rooted := by
  constructor <;> simp [Memory.empty, Tables.empty]

variable {m m' : Memory}

theorem Memory.Rooted.kept {used : Nat} (h : m.Rooted) (kept : m.Kept used m') : m'.Rooted := by
  refine ⟨?_, ?_, ?_, ?_, ?_, ?_⟩ <;> rw [kept.tables]
  · exact h.shares
  · exact h.documents
  · exact h.versions
  · exact fun w hw => kept.users (h.owners w hw)
  · exact fun v hv user wrote => kept.users (h.authors v hv user wrote)
  · exact fun s hs user holds => kept.users (h.holders s hs user holds)

def Change.Parented (change : Change) (t : Tables) : Prop :=
  match change with
  | addDocument new _ | addDocumentWithVersion new _ _ => t.HasWorkspace new.workspace
  | addShare new _ => t.HasDocument new.document
  | _ => True

namespace Memory.Rooted

theorem addWorkspace (h : m.Rooted) {w : Workspace} (known : w.owner ∈ m.users) :
    (m.take (m.tables.addWorkspace w)).Rooted := by
  refine ⟨h.shares, ?_, h.versions, ?_, h.authors, h.holders⟩
  · intro d hd live
    obtain ⟨v, hv, found⟩ := h.documents d hd live
    exact ⟨v, List.mem_append_left _ hv, found⟩
  · intro v hv
    rcases List.mem_append.mp hv with hv | hv
    · exact h.owners v hv
    · cases List.mem_singleton.mp hv
      exact known

theorem addDocument (h : m.Rooted) {d : Document} (inside : m.tables.HasWorkspace d.workspace) :
    (m.take (m.tables.addDocument d)).Rooted := by
  refine ⟨?_, ?_, ?_, h.owners, h.authors, h.holders⟩
  · intro s hs live
    obtain ⟨e, he, found⟩ := h.shares s hs live
    exact ⟨e, List.mem_append_left _ he, found⟩
  · intro e he live
    rcases List.mem_append.mp he with he | he
    · exact h.documents e he live
    · cases List.mem_singleton.mp he
      exact inside
  · intro v hv
    obtain ⟨e, he, found⟩ := h.versions v hv
    exact ⟨e, List.mem_append_left _ he, found⟩

theorem addVersion (h : m.Rooted) {v : Version} (inside : ∃ d ∈ m.tables.documents, d.id = v.document)
    (known : ∀ user, v.author = some user → user ∈ m.users) :
    (m.take (m.tables.addVersion v)).Rooted := by
  refine ⟨h.shares, h.documents, ?_, h.owners, ?_, h.holders⟩
  · intro u hu
    rcases List.mem_append.mp hu with hu | hu
    · exact h.versions u hu
    · cases List.mem_singleton.mp hu
      exact inside
  · intro u hu
    rcases List.mem_append.mp hu with hu | hu
    · exact h.authors u hu
    · cases List.mem_singleton.mp hu
      exact known

theorem addShare (h : m.Rooted) {s : Share} (on : m.tables.HasDocument s.document)
    (known : ∀ user, s.user = some user → user ∈ m.users) :
    (m.take (m.tables.addShare s)).Rooted := by
  refine ⟨?_, h.documents, h.versions, h.owners, h.authors, ?_⟩
  · intro r hr live
    rcases List.mem_append.mp hr with hr | hr
    · exact h.shares r hr live
    · cases List.mem_singleton.mp hr
      exact on
  · intro r hr
    rcases List.mem_append.mp hr with hr | hr
    · exact h.holders r hr
    · cases List.mem_singleton.mp hr
      exact known

theorem setWorkspace (h : m.Rooted) {w : Workspace} (known : w.owner ∈ m.users)
    (live : w.isLive = true) : ({ m with tables := m.tables.setWorkspace w } : Memory).Rooted := by
  refine ⟨h.shares, ?_, h.versions, ?_, h.authors, h.holders⟩
  · intro d hd liveD
    refine exists_updateWhere (h.documents d hd liveD) ?_ ?_
    · intro v _ found same
      exact ⟨(beq_iff_eq.mp same).symm.trans found.1, live⟩
    · intro v _ found _
      exact found
  · exact forall_updateWhere (fun _ _ _ => known) fun v hv _ => h.owners v hv

theorem setDocument (h : m.Rooted) {d : Document} (inside : m.tables.HasWorkspace d.workspace)
    (live : d.isLive = true) : ({ m with tables := m.tables.setDocument d } : Memory).Rooted := by
  refine ⟨?_, ?_, ?_, h.owners, h.authors, h.holders⟩
  · intro s hs liveS
    refine exists_updateWhere (h.shares s hs liveS) ?_ ?_
    · intro e _ found same
      exact ⟨(beq_iff_eq.mp same).symm.trans found.1, live⟩
    · intro e _ found _
      exact found
  · exact forall_updateWhere (fun _ _ _ _ => inside) fun e he _ => h.documents e he
  · intro v hv
    refine exists_updateWhere (h.versions v hv) ?_ ?_
    · intro e _ found same
      exact (beq_iff_eq.mp same).symm.trans found
    · intro e _ found _
      exact found

theorem setShare (h : m.Rooted) {s : Share} (on : s.isLive = true → m.tables.HasDocument s.document)
    (known : ∀ user, s.user = some user → user ∈ m.users) :
    ({ m with tables := m.tables.setShare s } : Memory).Rooted := by
  refine ⟨?_, h.documents, h.versions, h.owners, h.authors, ?_⟩
  · exact forall_updateWhere (fun _ _ _ => on) fun r hr _ => h.shares r hr
  · exact forall_updateWhere (fun _ _ _ => known) fun r hr _ => h.holders r hr

theorem deleteDocument (h : m.Rooted) (d : Document) (time : Instant) :
    ((Change.deleteDocument d time).on m).Rooted := by
  refine ⟨?_, ?_, ?_, h.owners, h.authors, ?_⟩
  · refine forall_updateWhere (fun s _ _ live => nomatch live) fun s hs unhit live => ?_
    have other : s.document ≠ d.id := by simpa [live] using unhit
    refine exists_updateWhere (h.shares s hs live) ?_ fun e _ found _ => found
    intro e _ found same
    exact absurd (found.1.symm.trans (beq_iff_eq.mp same)) other
  · exact forall_updateWhere (fun e _ _ live => nomatch live) fun e he _ => h.documents e he
  · intro v hv
    refine exists_updateWhere (h.versions v hv) ?_ fun e _ found _ => found
    intro e _ found same
    exact (beq_iff_eq.mp same).symm.trans found
  · exact forall_updateWhere (fun s hs _ => h.holders s hs) fun s hs _ => h.holders s hs

theorem deleteWorkspace (h : m.Rooted) {w : Workspace} (known : w.owner ∈ m.users)
    (time : Instant) : ((Change.deleteWorkspace w time).on m).Rooted := by
  refine ⟨?_, ?_, ?_, ?_, h.authors, ?_⟩
  · refine forall_updateWhere (fun s _ _ live => nomatch live) fun s hs unhit live => ?_
    refine exists_updateWhere (h.shares s hs live) ?_ fun d _ found _ => found
    intro d hd found hit
    have listed : d.id ∈ (m.tables.documentsOf w.id).map Document.id :=
      List.mem_map_of_mem (List.mem_filter.mpr ⟨hd, hit⟩)
    rw [found.1] at listed
    simp [listed, live] at unhit
  · refine forall_updateWhere (fun d _ _ live => nomatch live) fun d hd unhit live => ?_
    have other : d.workspace ≠ w.id := by simpa [live] using unhit
    refine exists_updateWhere (h.documents d hd live) ?_ fun v _ found _ => found
    intro v _ found same
    exact absurd (found.1.symm.trans (beq_iff_eq.mp same)) other
  · intro v hv
    exact exists_updateWhere (h.versions v hv) (fun d _ found _ => found) fun d _ found _ => found
  · exact forall_updateWhere (fun _ _ _ => known) fun v hv _ => h.owners v hv
  · exact forall_updateWhere (fun s hs _ => h.holders s hs) fun s hs _ => h.holders s hs

/-- Every change that the store makes keeps its rows rooted, if new rows have live parents. -/
theorem change (h : m.Rooted) {change : Change} (fits : change.Fits m)
    (parented : change.Parented m.tables) : (change.on m).Rooted := by
  cases change with
  | nothing => exact h
  | know user => exact h.kept (m.kept_know user)
  | addWorkspace new now => exact h.addWorkspace fits.1
  | setWorkspace w changes now =>
    have live : w.isLive = true := also_of_find fits.1
    exact h.setWorkspace (h.owners w (List.mem_of_find?_eq_some fits.1)) live
  | deleteWorkspace w time =>
    exact h.deleteWorkspace (h.owners w (List.mem_of_find?_eq_some fits)) time
  | addDocument new now => exact h.addDocument parented
  | addDocumentWithVersion new first now =>
    refine (h.addDocument (d := new.row m.nextId now) parented).addVersion ?_ fits.2
    exact ⟨new.row m.nextId now, List.mem_append_right _ (List.mem_singleton_self _), rfl⟩
  | setDocument d changes now =>
    have live : d.isLive = true := also_of_find fits.1
    exact h.setDocument (h.documents d (List.mem_of_find?_eq_some fits.1) live) live
  | deleteDocument d time => exact h.deleteDocument d time
  | addVersion new now =>
    obtain ⟨d, found⟩ := fits.1
    exact h.addVersion ⟨d, List.mem_of_find?_eq_some found, key_of_find found⟩ fits.2
  | addShare new now => exact h.addShare parented fun user given => (fits.1 user given).1
  | setShare s changes now =>
    have stored := List.mem_of_find?_eq_some fits
    exact h.setShare (h.shares s stored) (h.holders s stored)
  | deleteShare s time =>
    have stored := List.mem_of_find?_eq_some fits
    exact h.setShare (fun live => nomatch live) (h.holders s stored)

end Memory.Rooted

end DiagramShare.Repository

namespace DiagramShare.Service

open DiagramShare.Access
open DiagramShare.Repository (Memory Tables Call Change)
open DiagramShare.Time (Instant)

variable {c : Conditions} {w w' : World Memory} {caller : Caller} {op : Operation} {m : Memory}

theorem Warrant.parented {moment : Instant → Prop} {t : Tables} {change : Change}
    (warrant : Warrant moment caller t op change) : change.Parented t := by
  cases warrant with
  | addDocument stored live _ inside => exact ⟨_, stored, inside.symm, live⟩
  | addDocumentWithVersion stored live _ inside => exact ⟨_, stored, inside.symm, live⟩
  | addShare present _ document =>
    exact ⟨_, present.document, document.symm, present.documentLive⟩
  | _ => trivial

theorem serve_rooted (numbered : w.store.Numbered) (h : w.store.Rooted) (c : Conditions)
    (caller : Caller) (op : Operation) :
    ((serve caller op).run inMemory c w).1.store.Rooted := by
  rcases serve_cases numbered (ends_run (s := inMemory) (c := c) (serve caller op) w) with
    ⟨_, _, _, kept⟩ | ⟨_, m, change, _, effect⟩
  · exact h.kept kept
  · rw [effect.result]
    have parented := effect.warrant.parented
    rw [← effect.kept.tables] at parented
    exact (h.kept effect.kept).change effect.fits parented

/-- Whatever has been asked of the service, by whomever and with whatever outcome, no row hangs on
something that is not there. -/
theorem Reachable.rooted (reached : Reachable m) : m.Rooted := by
  induction reached with
  | empty => exact Repository.rooted_empty
  | served before c caller op ih => exact serve_rooted before.numbered ih c caller op
  | failing _ fail ih =>
    exact ⟨ih.shares, ih.documents, ih.versions, ih.owners, ih.authors, ih.holders⟩

theorem sample_rooted : ∃ s ∈ sample.store.tables.shares, s.isLive = true ∧
    sample.store.tables.HasDocument s.document := by
  have live : ∃ s ∈ sample.store.tables.shares, s.isLive = true := by decide +kernel
  obtain ⟨s, hs, live⟩ := live
  exact ⟨s, hs, live, sample_reachable.rooted.shares s hs live⟩

end DiagramShare.Service
