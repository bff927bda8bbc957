import DiagramShare.Repository.Memory
import Mathlib.Data.List.Nodup
import Mathlib.Data.List.Perm.Basic

/-! Numbers of rows. The store in memory gives every row of every table a number of its own, so that
a row is found by its number wherever it stands, and a document that is taken out again leaves the
tables as they were. -/
namespace DiagramShare.Repository

open DiagramShare.Time (Instant)

theorem mem_updateWhere {p : α → Bool} {f : α → α} {rows : List α} {r : α} :
    r ∈ updateWhere p f rows ↔ ∃ x ∈ rows, (if p x then f x else x) = r := List.mem_map

theorem forall_updateWhere {p : α → Bool} {f : α → α} {rows : List α} {P : α → Prop}
    (changed : ∀ r ∈ rows, p r = true → P (f r)) (kept : ∀ r ∈ rows, p r = false → P r) :
    ∀ r ∈ updateWhere p f rows, P r := by
  intro r hr
  obtain ⟨x, hx, rfl⟩ := mem_updateWhere.mp hr
  cases hp : p x with
  | true => exact changed x hx hp
  | false => exact kept x hx hp

theorem exists_updateWhere {p : α → Bool} {f : α → α} {rows : List α} {P Q : α → Prop}
    (there : ∃ r ∈ rows, P r) (changed : ∀ r ∈ rows, P r → p r = true → Q (f r))
    (kept : ∀ r ∈ rows, P r → p r = false → Q r) : ∃ r ∈ updateWhere p f rows, Q r := by
  obtain ⟨x, hx, holds⟩ := there
  refine ⟨if p x then f x else x, mem_updateWhere.mpr ⟨x, hx, rfl⟩, ?_⟩
  cases hp : p x with
  | true => exact changed x hx holds hp
  | false => exact kept x hx holds hp

theorem map_updateWhere {p : α → Bool} {f : α → α} {rows : List α} {key : α → κ}
    (kept : ∀ r ∈ rows, p r = true → key (f r) = key r) :
    (updateWhere p f rows).map key = rows.map key := by
  simp only [updateWhere, List.map_map]
  apply List.map_congr_left
  intro r hr
  by_cases h : p r = true
  · simp [h, kept r hr h]
  · simp [h]

theorem eq_of_key {rows : List α} {key : α → κ} (distinct : (rows.map key).Nodup) {a b : α}
    (ha : a ∈ rows) (hb : b ∈ rows) (same : key a = key b) : a = b :=
  List.inj_on_of_nodup_map distinct ha hb same

theorem updateWhere_congr {p q : α → Bool} {f g : α → α} {rows : List α}
    (same : ∀ r ∈ rows, p r = q r) (alike : ∀ r ∈ rows, q r = true → f r = g r) :
    updateWhere p f rows = updateWhere q g rows := by
  apply List.map_congr_left
  intro r hr
  rw [same r hr]
  by_cases hit : q r = true
  · rw [if_pos hit, if_pos hit, alike r hr hit]
  · rw [if_neg hit, if_neg hit]

theorem contains_picked {rows : List α} {key : α → Int} (p live : α → Bool)
    (distinct : (rows.map key).Nodup) {r : α} (stored : r ∈ rows) :
    (((rows.filter fun x => p x && live x).map key).contains (key r) && live r) =
      (p r && live r) := by
  rw [Bool.eq_iff_iff]
  simp only [Bool.and_eq_true, List.contains_iff_mem, List.mem_map, List.mem_filter]
  constructor
  · rintro ⟨⟨x, ⟨there, picked, _⟩, same⟩, alive⟩
    obtain rfl := eq_of_key distinct there stored same
    exact ⟨picked, alive⟩
  · rintro ⟨picked, alive⟩
    exact ⟨⟨r, ⟨stored, picked, alive⟩, rfl⟩, alive⟩

theorem key_of_find {rows : List α} {key : α → Int} {also : α → Bool} {k : Int} {r : α}
    (found : (rows.find? fun x => key x == k && also x) = some r) : key r = k := by
  have passed := List.find?_some found
  simp only [Bool.and_eq_true, beq_iff_eq] at passed
  exact passed.1

theorem also_of_find {rows : List α} {key : α → Int} {also : α → Bool} {k : Int} {r : α}
    (found : (rows.find? fun x => key x == k && also x) = some r) : also r = true := by
  have passed := List.find?_some found
  simp only [Bool.and_eq_true, beq_iff_eq] at passed
  exact passed.2

theorem find_iff_of_distinct {rows : List α} {key : α → Int} (distinct : (rows.map key).Nodup)
    {also : α → Bool} {k : Int} {r : α} :
    (rows.find? fun x => key x == k && also x) = some r ↔ r ∈ rows ∧ key r = k ∧ also r = true := by
  constructor
  · intro h
    have passed := List.find?_some h
    simp only [Bool.and_eq_true, beq_iff_eq] at passed
    exact ⟨List.mem_of_find?_eq_some h, passed⟩
  · rintro ⟨hr, hk, ha⟩
    cases found : rows.find? fun x => key x == k && also x with
    | none =>
      have missed := List.find?_eq_none.mp found r hr
      simp [hk, ha] at missed
    | some x =>
      have passed := List.find?_some found
      simp only [Bool.and_eq_true, beq_iff_eq] at passed
      have hx := List.mem_of_find?_eq_some found
      rw [eq_of_key distinct hx hr (passed.1.trans hk.symm)]

def Tables.ids (t : Tables) : List Int :=
  t.workspaces.map Workspace.id ++ t.documents.map Document.id ++ t.versions.map Version.id ++
    t.shares.map Share.id

theorem Tables.workspace_mem_ids {t : Tables} {w : Workspace} (h : w ∈ t.workspaces) :
    w.id ∈ t.ids := by
  simp only [ids, List.mem_append, List.mem_map]
  exact .inl (.inl (.inl ⟨w, h, rfl⟩))

theorem Tables.document_mem_ids {t : Tables} {d : Document} (h : d ∈ t.documents) :
    d.id ∈ t.ids := by
  simp only [ids, List.mem_append, List.mem_map]
  exact .inl (.inl (.inr ⟨d, h, rfl⟩))

/-- No two rows have the same number, and no number is beyond the counter. -/
structure Memory.Numbered (m : Memory) : Prop where
  distinct : m.tables.ids.Nodup
  inRange : ∀ i ∈ m.tables.ids, 0 < i ∧ i ≤ m.lastId

theorem numbered_empty : Memory.empty.Numbered := ⟨List.nodup_nil, by simp [Memory.empty,
  Tables.empty, Tables.ids]⟩

namespace Memory.Numbered

variable {m : Memory}

theorem workspaces (h : m.Numbered) : (m.tables.workspaces.map Workspace.id).Nodup :=
  h.distinct.of_append_left.of_append_left.of_append_left

theorem documents (h : m.Numbered) : (m.tables.documents.map Document.id).Nodup :=
  h.distinct.of_append_left.of_append_left.of_append_right

theorem shares (h : m.Numbered) : (m.tables.shares.map Share.id).Nodup :=
  h.distinct.of_append_right

theorem workspace_iff (h : m.Numbered) {id : Int} {w : Workspace} :
    m.tables.workspace? id = some w ↔ w ∈ m.tables.workspaces ∧ w.id = id ∧ w.isLive = true :=
  find_iff_of_distinct h.workspaces

theorem document_iff (h : m.Numbered) {id : Int} {d : Document} :
    m.tables.document? id = some d ↔ d ∈ m.tables.documents ∧ d.id = id ∧ d.isLive = true :=
  find_iff_of_distinct h.documents

theorem nextId_fresh (h : m.Numbered) : m.nextId ∉ m.tables.ids := by
  intro hm
  have bound := (h.inRange _ hm).2
  simp only [nextId] at bound
  omega

theorem take (h : m.Numbered) {t : Tables} (joined : t.ids.Perm (m.nextId :: m.tables.ids)) :
    (m.take t).Numbered := by
  constructor
  · exact joined.nodup_iff.mpr (List.nodup_cons.mpr ⟨h.nextId_fresh, h.distinct⟩)
  · intro i hi
    rcases List.mem_cons.mp (joined.subset hi) with rfl | hi
    · simp only [nextId, Memory.take]
      omega
    · have bound := h.inRange i hi
      simp only [Memory.take]
      omega

theorem withTables (h : m.Numbered) {t : Tables} (same : t.ids = m.tables.ids) :
    ({ m with tables := t } : Memory).Numbered :=
  ⟨same ▸ h.distinct, fun i hi => h.inRange i (same ▸ hi)⟩

end Memory.Numbered

namespace Tables

variable (t : Tables)

theorem ids_addWorkspace (w : Workspace) : (t.addWorkspace w).ids.Perm (w.id :: t.ids) := by
  simp [ids, addWorkspace]

theorem ids_addDocument (d : Document) : (t.addDocument d).ids.Perm (d.id :: t.ids) := by
  have middle := @List.perm_middle _ d.id (t.workspaces.map Workspace.id ++
    t.documents.map Document.id) (t.versions.map Version.id ++ t.shares.map Share.id)
  simpa [ids, addDocument] using middle

theorem ids_addVersion (v : Version) : (t.addVersion v).ids.Perm (v.id :: t.ids) := by
  have middle := @List.perm_middle _ v.id (t.workspaces.map Workspace.id ++
    t.documents.map Document.id ++ t.versions.map Version.id) (t.shares.map Share.id)
  simpa [ids, addVersion] using middle

theorem ids_addShare (s : Share) : (t.addShare s).ids.Perm (s.id :: t.ids) := by
  have last := @List.perm_middle _ s.id t.ids []
  simpa [ids, addShare] using last

theorem ids_setWorkspace (w : Workspace) : (t.setWorkspace w).ids = t.ids := by
  have same : (t.setWorkspace w).workspaces.map Workspace.id = t.workspaces.map Workspace.id :=
    map_updateWhere fun v _ h => (beq_iff_eq.mp h).symm
  simp only [ids, same]
  rfl

theorem ids_setDocument (d : Document) : (t.setDocument d).ids = t.ids := by
  have same : (t.setDocument d).documents.map Document.id = t.documents.map Document.id :=
    map_updateWhere fun e _ h => (beq_iff_eq.mp h).symm
  simp only [ids, same]
  rfl

theorem ids_setShare (s : Share) : (t.setShare s).ids = t.ids := by
  have same : (t.setShare s).shares.map Share.id = t.shares.map Share.id :=
    map_updateWhere fun r _ h => (beq_iff_eq.mp h).symm
  simp only [ids, same]
  rfl

theorem ids_deleteSharesOf (documents : List Int) (time : Instant) :
    (t.deleteSharesOf documents time).1.ids = t.ids := by
  have same : (t.deleteSharesOf documents time).1.shares.map Share.id = t.shares.map Share.id :=
    map_updateWhere fun _ _ _ => rfl
  simp only [ids, same]
  rfl

theorem ids_deleteDocumentsOf (workspace : Int) (time : Instant) :
    (t.deleteDocumentsOf workspace time).ids = t.ids := by
  have same : (t.deleteDocumentsOf workspace time).documents.map Document.id =
      t.documents.map Document.id := map_updateWhere fun _ _ _ => rfl
  simp only [ids, same]
  rfl

end Tables

end DiagramShare.Repository
