import DiagramShare.Proofs.Calls

/-! Names that are used once. No two live workspaces of one owner have the same name, and no two live
documents of one workspace the same slug; a name that is given up by a deletion may be used again. -/
namespace DiagramShare.Repository

open DiagramShare.Time (Instant)

/-- Live rows with one label are one row. -/
def Apart (live : α → Bool) (label : α → κ) (number : α → Int) (rows : List α) : Prop :=
  ∀ a ∈ rows, ∀ b ∈ rows, live a = true → live b = true → label a = label b → number a = number b

namespace Apart

variable {live : α → Bool} {label : α → κ} {number : α → Int} {rows : List α}

theorem snoc (h : Apart live label number rows) {r : α}
    (free : ∀ a ∈ rows, live a = true → label a ≠ label r) :
    Apart live label number (rows ++ [r]) := by
  intro a ha b hb liveA liveB same
  rcases List.mem_append.mp ha with ha | ha <;> rcases List.mem_append.mp hb with hb | hb
  · exact h a ha b hb liveA liveB same
  · cases List.mem_singleton.mp hb
    exact absurd same (free a ha liveA)
  · cases List.mem_singleton.mp ha
    exact absurd same.symm (free b hb liveB)
  · rw [List.mem_singleton.mp ha, List.mem_singleton.mp hb]

theorem delete (h : Apart live label number rows) {p : α → Bool} {f : α → α}
    (dead : ∀ r, live (f r) = false) : Apart live label number (updateWhere p f rows) := by
  have left : ∀ x ∈ updateWhere p f rows, live x = true → x ∈ rows := by
    refine forall_updateWhere (fun r _ _ lives => ?_) fun r hr _ _ => hr
    rw [dead r] at lives
    cases lives
  intro a ha b hb liveA liveB
  exact h a (left a ha liveA) b (left b hb liveB) liveA liveB

theorem set (h : Apart live label number rows) {r : α}
    (free : ∀ a ∈ rows, live a = true → label a = label r → number a = number r) :
    Apart live label number (updateWhere (fun x => number x == number r) (fun _ => r) rows) := by
  have origin : ∀ x ∈ updateWhere (fun x => number x == number r) (fun _ => r) rows,
      x = r ∨ x ∈ rows :=
    forall_updateWhere (fun _ _ _ => .inl rfl) fun x hx _ => .inr hx
  intro a ha b hb liveA liveB same
  rcases origin a ha with rfl | oldA <;> rcases origin b hb with rfl | oldB
  · rfl
  · exact (free b oldB liveB same.symm).symm
  · exact free a oldA liveA same
  · exact h a oldA b oldB liveA liveB same

end Apart

namespace Tables

variable {t : Tables}

theorem nameExists_eq_false {owner : Int} {name : String} {except : Option Int} :
    t.nameExists owner name except = false ↔ ∀ w ∈ t.workspaces, w.isLive = true →
      (w.owner, w.name) = (owner, name) → some w.id = except := by
  simp only [nameExists, List.any_eq_false, Bool.and_eq_true, beq_iff_eq, bne_iff_ne, ne_eq,
    not_and, Decidable.not_not, Prod.mk.injEq, and_imp]

theorem slugExists_eq_false {workspace : Int} {slug : String} {except : Option Int} :
    t.slugExists workspace slug except = false ↔ ∀ d ∈ t.documents, d.isLive = true →
      (d.workspace, d.slug) = (workspace, slug) → some d.id = except := by
  simp only [slugExists, List.any_eq_false, Bool.and_eq_true, beq_iff_eq, bne_iff_ne, ne_eq,
    not_and, Decidable.not_not, Prod.mk.injEq, and_imp]

end Tables

structure Memory.Unique (m : Memory) : Prop where
  names : Apart Workspace.isLive (fun w => (w.owner, w.name)) Workspace.id m.tables.workspaces
  slugs : Apart Document.isLive (fun d => (d.workspace, d.slug)) Document.id m.tables.documents

theorem unique_empty : Memory.empty.Unique := ⟨nofun, nofun⟩

namespace Memory.Unique

variable {m m' : Memory}

theorem kept {used : Nat} (h : m.Unique) (kept : m.Kept used m') : m'.Unique :=
  ⟨kept.tables ▸ h.names, kept.tables ▸ h.slugs⟩

theorem own_name (h : m.Unique) {w : Workspace} (stored : w ∈ m.tables.workspaces)
    (live : w.isLive = true) : m.tables.nameExists w.owner w.name (some w.id) = false :=
  Tables.nameExists_eq_false.mpr fun v hv liveV same =>
    congrArg some (h.names v hv w stored liveV live same)

theorem own_slug (h : m.Unique) {d : Document} (stored : d ∈ m.tables.documents)
    (live : d.isLive = true) : m.tables.slugExists d.workspace d.slug (some d.id) = false :=
  Tables.slugExists_eq_false.mpr fun e he liveE same =>
    congrArg some (h.slugs e he d stored liveE live same)

theorem setWorkspace (h : m.Unique) {w : Workspace} {changes : WorkspaceChanges} {now : Instant}
    (fits : (Change.setWorkspace w changes now).Fits m) :
    ({ m with tables := m.tables.setWorkspace (w.change changes now) } : Memory).Unique := by
  obtain ⟨found, free⟩ := fits
  refine ⟨h.names.set (r := w.change changes now) ?_, h.slugs⟩
  intro v hv live same
  cases given : changes.name with
  | none =>
    refine h.names v hv w (List.mem_of_find?_eq_some found) live (also_of_find found) ?_
    simpa [Workspace.change, given] using same
  | some name =>
    refine Option.some.inj (Tables.nameExists_eq_false.mp (free name given) v hv live ?_)
    simpa [Workspace.change, given] using same

theorem setDocument (h : m.Unique) {d : Document} {changes : DocumentChanges} {now : Instant}
    (fits : (Change.setDocument d changes now).Fits m) :
    ({ m with tables := m.tables.setDocument (d.change changes now) } : Memory).Unique := by
  obtain ⟨found, free⟩ := fits
  refine ⟨h.names, h.slugs.set (r := d.change changes now) ?_⟩
  intro e he live same
  cases given : changes.slug with
  | none =>
    refine h.slugs e he d (List.mem_of_find?_eq_some found) live (also_of_find found) ?_
    simpa [Document.change, given] using same
  | some slug =>
    refine Option.some.inj (Tables.slugExists_eq_false.mp (free slug given) e he live ?_)
    simpa [Document.change, given] using same

theorem tombstoneWorkspace (h : m.Unique) (w : Workspace) (time : Instant) :
    Apart Workspace.isLive (fun w => (w.owner, w.name)) Workspace.id
      (m.tables.setWorkspace (w.tombstone time)).workspaces :=
  h.names.delete fun _ => rfl

theorem change (h : m.Unique) {change : Change} (fits : change.Fits m) : (change.on m).Unique := by
  cases change with
  | know user => exact h.kept (m.kept_know user)
  | addWorkspace new now =>
    refine ⟨h.names.snoc fun v hv live same => ?_, h.slugs⟩
    cases Tables.nameExists_eq_false.mp fits.2 v hv live same
  | setWorkspace w changes now => exact h.setWorkspace fits
  | deleteWorkspace w time =>
    exact ⟨h.tombstoneWorkspace w time, h.slugs.delete fun _ => rfl⟩
  | addDocument new now =>
    refine ⟨h.names, h.slugs.snoc fun e he live same => ?_⟩
    cases Tables.slugExists_eq_false.mp fits.2 e he live same
  | addDocumentWithVersion new first now =>
    refine ⟨h.names, h.slugs.snoc fun e he live same => ?_⟩
    cases Tables.slugExists_eq_false.mp fits.1.2 e he live same
  | setDocument d changes now => exact h.setDocument fits
  | deleteDocument d time => exact ⟨h.names, h.slugs.delete fun _ => rfl⟩
  | _ => exact ⟨h.names, h.slugs⟩

end Memory.Unique

end DiagramShare.Repository
