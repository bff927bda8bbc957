import DiagramShare.Proofs.Listing
import DiagramShare.Proofs.Numbering
import DiagramShare.Repository.Memory
import DiagramShare.Repository.Relational

/-! Order of insertion. A store appends its rows, numbers them upward and dates them by a clock that
is not turned back; so the rows of a table stand in the order of their dates and numbers, and its
listings are the rows turned round. -/
namespace DiagramShare.Repository

open DiagramShare.Time (Instant)

structure Rising (stamps : List (Instant × Int)) (time : Instant) (last : Int) : Prop where
  order : stamps.Pairwise fun a b => a.1 ≤ b.1 ∧ a.2 < b.2
  bound : ∀ a ∈ stamps, a.1 ≤ time ∧ a.2 ≤ last

theorem isNewer_iff {a b : Instant × Int} :
    isNewer a b = true ↔ b.1 ≤ a.1 ∧ (a.1 = b.1 → b.2 ≤ a.2) := by
  unfold isNewer
  split
  · rename_i same
    simp [same, Instant.le_refl]
  · rename_i other
    simp [other]

theorem isNewer_trans (a b c : Instant × Int) (first : isNewer a b = true)
    (second : isNewer b c = true) : isNewer a c = true := by
  rw [isNewer_iff] at *
  refine ⟨Instant.le_trans second.1 first.1, fun same => ?_⟩
  have middle : b.1 = a.1 := Instant.le_antisymm first.1 (same ▸ second.1)
  exact Int.le_trans (second.2 (middle.trans same)) (first.2 middle.symm)

theorem isNewer_total (a b : Instant × Int) : (isNewer a b || isNewer b a) = true := by
  rw [Bool.or_eq_true, isNewer_iff, isNewer_iff]
  by_cases same : a.1 = b.1
  · rcases Int.le_total b.2 a.2 with le | le
    · exact .inl ⟨same ▸ Instant.le_refl _, fun _ => le⟩
    · exact .inr ⟨same ▸ Instant.le_refl _, fun _ => le⟩
  · rcases Instant.le_total b.1 a.1 with le | le
    · exact .inl ⟨le, fun h => absurd h same⟩
    · exact .inr ⟨le, fun h => absurd h.symm same⟩

namespace Rising

variable {stamps : List (Instant × Int)} {time time' : Instant} {last last' : Int}

theorem nil : Rising [] time last := ⟨.nil, fun _ h => absurd h List.not_mem_nil⟩

theorem later (h : Rising stamps time last) (le : time ≤ time') (most : last ≤ last') :
    Rising stamps time' last' :=
  ⟨h.order, fun a ha =>
    ⟨Instant.le_trans (h.bound a ha).1 le, Int.le_trans (h.bound a ha).2 most⟩⟩

theorem snoc (h : Rising stamps time last) (le : time ≤ time') (next : last < last') :
    Rising (stamps ++ [(time', last')]) time' last' := by
  have earlier := h.later le (Int.le_of_lt next)
  refine ⟨List.pairwise_append.mpr ⟨h.order, List.pairwise_singleton _ _, ?_⟩, ?_⟩
  · intro a ha b hb
    cases List.mem_singleton.mp hb
    exact ⟨(earlier.bound a ha).1, Int.lt_of_le_of_lt (h.bound a ha).2 next⟩
  · intro a ha
    rcases List.mem_append.mp ha with ha | ha
    · exact earlier.bound a ha
    · cases List.mem_singleton.mp ha
      exact ⟨Instant.le_refl _, Int.le_refl _⟩

theorem distinct {rows : List α} {stamp : α → Instant × Int}
    (h : Rising (rows.map stamp) time last) : (rows.map fun r => (stamp r).2).Nodup :=
  List.pairwise_map.mpr ((List.pairwise_map.mp h.order).imp fun less => Int.ne_of_lt less.2)

theorem newestFirst_filter {rows : List α} {stamp : α → Instant × Int}
    (h : Rising (rows.map stamp) time last) (p : α → Bool) :
    newestFirst stamp (rows.filter p) = (rows.filter p).reverse := by
  refine mergeSort_eq_reverse (fun a b c => isNewer_trans _ _ _) (fun a b => isNewer_total _ _) ?_
  refine ((List.pairwise_map.mp h.order).filter p).imp fun {a b} ahead => ⟨?_, ?_⟩
  · exact isNewer_iff.mpr ⟨ahead.1, fun _ => Int.le_of_lt ahead.2⟩
  · rw [← Bool.not_eq_true, isNewer_iff]
    rintro ⟨back, least⟩
    have same := Instant.le_antisymm ahead.1 back
    have le := least same
    omega

end Rising

def workspaceStamp (w : Workspace) : Instant × Int := (w.createdAt, w.id)
def documentStamp (d : Document) : Instant × Int := (d.createdAt, d.id)
def shareStamp (s : Share) : Instant × Int := (s.createdAt, s.id)

/-- The rows that are listed by their age stand in the order of insertion. -/
structure Tables.Dated (t : Tables) (time : Instant) (numbers : Sequences) : Prop where
  workspaces : Rising (t.workspaces.map workspaceStamp) time numbers.workspaces
  documents : Rising (t.documents.map documentStamp) time numbers.documents
  shares : Rising (t.shares.map shareStamp) time numbers.shares

structure Sequences.Before (q q' : Sequences) : Prop where
  workspaces : q.workspaces ≤ q'.workspaces
  documents : q.documents ≤ q'.documents
  versions : q.versions ≤ q'.versions
  shares : q.shares ≤ q'.shares

theorem Sequences.Before.refl (q : Sequences) : q.Before q :=
  ⟨Nat.le_refl _, Nat.le_refl _, Nat.le_refl _, Nat.le_refl _⟩

structure Tables.Restated (t t' : Tables) : Prop where
  workspaces : t'.workspaces.map workspaceStamp = t.workspaces.map workspaceStamp
  documents : t'.documents.map documentStamp = t.documents.map documentStamp
  shares : t'.shares.map shareStamp = t.shares.map shareStamp

namespace Tables

variable {t t' : Tables} {time time' : Instant} {q q' : Sequences}

theorem dated_empty : empty.Dated time q := ⟨.nil, .nil, .nil⟩

theorem Restated.trans {t'' : Tables} (h : Restated t t') (k : Restated t' t'') :
    Restated t t'' :=
  ⟨k.workspaces.trans h.workspaces, k.documents.trans h.documents, k.shares.trans h.shares⟩

namespace Dated

theorem later (h : t.Dated time q) (le : time ≤ time') (most : q.Before q') :
    t.Dated time' q' :=
  ⟨h.workspaces.later le (Int.ofNat_le.mpr most.workspaces),
    h.documents.later le (Int.ofNat_le.mpr most.documents),
    h.shares.later le (Int.ofNat_le.mpr most.shares)⟩

theorem restated (h : t.Dated time q) (same : Restated t t') : t'.Dated time q :=
  ⟨same.workspaces ▸ h.workspaces, same.documents ▸ h.documents, same.shares ▸ h.shares⟩

theorem distinctWorkspaces (h : t.Dated time q) : (t.workspaces.map Workspace.id).Nodup :=
  h.workspaces.distinct

theorem distinctDocuments (h : t.Dated time q) : (t.documents.map Document.id).Nodup :=
  h.documents.distinct

theorem distinctShares (h : t.Dated time q) : (t.shares.map Share.id).Nodup :=
  h.shares.distinct

theorem ownedPage_eq (h : t.Dated time q) (owner limit offset : Int) :
    t.ownedPage owner limit offset = window limit offset (t.owned owner).reverse :=
  congrArg (window limit offset) (h.workspaces.newestFirst_filter _)

theorem documentPage_eq (h : t.Dated time q) (workspace limit offset : Int) :
    t.documentPage workspace limit offset =
      window limit offset (t.documentsOf workspace).reverse :=
  congrArg (window limit offset) (h.documents.newestFirst_filter _)

theorem sharePage_eq (h : t.Dated time q) (document limit offset : Int) :
    t.sharePage document limit offset = window limit offset (t.sharesOf document).reverse :=
  congrArg (window limit offset) (h.shares.newestFirst_filter _)

theorem addWorkspace (h : t.Dated time q) {w : Workspace} (le : time ≤ time')
    (most : q.Before q') (dated : w.createdAt = time') (number : w.id = q'.workspaces)
    (next : q.workspaces < q'.workspaces) : (t.addWorkspace w).Dated time' q' := by
  have rest := h.later le most
  refine ⟨?_, rest.documents, rest.shares⟩
  have added := h.workspaces.snoc le (Int.ofNat_lt.mpr next)
  rw [← dated, ← number] at added
  simpa [Tables.addWorkspace, workspaceStamp, dated, number] using added

theorem addDocument (h : t.Dated time q) {d : Document} (le : time ≤ time')
    (most : q.Before q') (dated : d.createdAt = time') (number : d.id = q'.documents)
    (next : q.documents < q'.documents) : (t.addDocument d).Dated time' q' := by
  have rest := h.later le most
  refine ⟨rest.workspaces, ?_, rest.shares⟩
  have added := h.documents.snoc le (Int.ofNat_lt.mpr next)
  rw [← dated, ← number] at added
  simpa [Tables.addDocument, documentStamp, dated, number] using added

theorem addShare (h : t.Dated time q) {s : Share} (le : time ≤ time')
    (most : q.Before q') (dated : s.createdAt = time') (number : s.id = q'.shares)
    (next : q.shares < q'.shares) : (t.addShare s).Dated time' q' := by
  have rest := h.later le most
  refine ⟨rest.workspaces, rest.documents, ?_⟩
  have added := h.shares.snoc le (Int.ofNat_lt.mpr next)
  rw [← dated, ← number] at added
  simpa [Tables.addShare, shareStamp, dated, number] using added

theorem setWorkspace (h : t.Dated time q) {v w : Workspace} (stored : v ∈ t.workspaces)
    (same : workspaceStamp w = workspaceStamp v) : Restated t (t.setWorkspace w) := by
  refine ⟨map_updateWhere fun u hu hit => ?_, rfl, rfl⟩
  have number : u.id = v.id := (beq_iff_eq.mp hit).trans (congrArg Prod.snd same)
  rw [eq_of_key h.distinctWorkspaces hu stored number]
  exact same

theorem setDocument (h : t.Dated time q) {d e : Document} (stored : e ∈ t.documents)
    (same : documentStamp d = documentStamp e) : Restated t (t.setDocument d) := by
  refine ⟨rfl, map_updateWhere fun u hu hit => ?_, rfl⟩
  have number : u.id = e.id := (beq_iff_eq.mp hit).trans (congrArg Prod.snd same)
  rw [eq_of_key h.distinctDocuments hu stored number]
  exact same

theorem setShare (h : t.Dated time q) {s r : Share} (stored : r ∈ t.shares)
    (same : shareStamp s = shareStamp r) : Restated t (t.setShare s) := by
  refine ⟨rfl, rfl, map_updateWhere fun u hu hit => ?_⟩
  have number : u.id = r.id := (beq_iff_eq.mp hit).trans (congrArg Prod.snd same)
  rw [eq_of_key h.distinctShares hu stored number]
  exact same

end Dated

theorem restated_deleteSharesOf (documents : List Int) (time : Instant) :
    Restated t (t.deleteSharesOf documents time).1 :=
  ⟨rfl, rfl, map_updateWhere fun _ _ _ => rfl⟩

theorem restated_deleteDocumentsOf (workspace : Int) (time : Instant) :
    Restated t (t.deleteDocumentsOf workspace time) :=
  ⟨rfl, map_updateWhere fun _ _ _ => rfl, rfl⟩

namespace Dated

variable {id : Int} {at_ : Instant} {summary : CascadeSummary}

theorem deleteWorkspace (h : t.Dated time q)
    (deleted : t.deleteWorkspace id at_ = some (t', summary)) : Restated t t' := by
  unfold Tables.deleteWorkspace at deleted
  split at deleted
  · cases deleted
  · rename_i w found
    cases deleted
    have stored := List.mem_of_find?_eq_some found
    exact ((h.setWorkspace (w := w.tombstone at_) stored rfl).trans
      (restated_deleteDocumentsOf id at_)).trans (restated_deleteSharesOf _ at_)

theorem deleteDocument (h : t.Dated time q)
    (deleted : t.deleteDocument id at_ = some (t', summary)) : Restated t t' := by
  unfold Tables.deleteDocument at deleted
  split at deleted
  · cases deleted
  · rename_i d found
    cases deleted
    have stored := List.mem_of_find?_eq_some found
    exact (h.setDocument (d := d.tombstone at_) stored rfl).trans (restated_deleteSharesOf _ at_)

theorem deleteShare (h : t.Dated time q) (deleted : t.deleteShare id at_ = some t') :
    Restated t t' := by
  obtain ⟨s, found, rfl⟩ := Option.map_eq_some_iff.mp deleted
  exact h.setShare (s := s.tombstone at_) (List.mem_of_find?_eq_some found) rfl

end Dated

end Tables

def Memory.numbers (m : Memory) : Sequences := ⟨m.lastId, m.lastId, m.lastId, m.lastId⟩

end DiagramShare.Repository
