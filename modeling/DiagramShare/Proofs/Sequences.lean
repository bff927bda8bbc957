import DiagramShare.Proofs.Rising
import DiagramShare.Proofs.Served

/-! Numbers in the relational store. Each table numbers its rows by a sequence of its own, so that no
two rows of a table have one number. No clock has a part in this. -/
namespace DiagramShare.Repository

open DiagramShare.Time (Instant)

structure Issued (ids : List Int) (last : Nat) : Prop where
  distinct : ids.Nodup
  bound : ∀ i ∈ ids, i ≤ last

namespace Issued

variable {ids : List Int} {last : Nat}

theorem nil : Issued [] last := ⟨List.nodup_nil, nofun⟩

theorem later (h : Issued ids last) {more : Nat} (le : last ≤ more) : Issued ids more :=
  ⟨h.distinct, fun i hi => Int.le_trans (h.bound i hi) (Int.ofNat_le.mpr le)⟩

theorem snoc (h : Issued ids last) : Issued (ids ++ [((last + 1 : Nat) : Int)]) (last + 1) := by
  constructor
  · refine h.distinct.append (List.nodup_singleton _) fun i hi next => ?_
    have bound := h.bound i hi
    cases List.mem_singleton.mp next
    omega
  · intro i hi
    rcases List.mem_append.mp hi with hi | hi
    · exact (h.later (Nat.le_succ _)).bound i hi
    · exact Int.le_of_eq (List.mem_singleton.mp hi)

end Issued

namespace Relational

variable {r r' : Relational} {now : Instant}

/-- The rows that others refer to by their numbers have numbers of their own. -/
structure Keyed (r : Relational) : Prop where
  workspaces : Issued (r.tables.workspaces.map Workspace.id) r.sequences.workspaces
  documents : Issued (r.tables.documents.map Document.id) r.sequences.documents

structure Renamed (r r' : Relational) : Prop where
  workspaces : r'.tables.workspaces.map Workspace.id = r.tables.workspaces.map Workspace.id
  documents : r'.tables.documents.map Document.id = r.tables.documents.map Document.id
  before : r.sequences.Before r'.sequences

theorem keyed_empty : Relational.empty.Keyed := ⟨.nil, .nil⟩

theorem Renamed.refl (r : Relational) : Renamed r r := ⟨rfl, rfl, .refl _⟩

theorem Keyed.renamed (h : r.Keyed) (same : Renamed r r') : r'.Keyed :=
  ⟨same.workspaces ▸ h.workspaces.later same.before.workspaces,
    same.documents ▸ h.documents.later same.before.documents⟩

theorem Keyed.restated (h : r.Keyed) {t : Tables}
    (workspaces : t.workspaces.map Workspace.id = r.tables.workspaces.map Workspace.id)
    (documents : t.documents.map Document.id = r.tables.documents.map Document.id) :
    ({ r with tables := t } : Relational).Keyed :=
  h.renamed ⟨workspaces, documents, .refl _⟩

theorem createWorkspace_keyed (h : r.Keyed) (new : NewWorkspace) :
    (createWorkspace new now r).1.Keyed := by
  simp only [createWorkspace]
  split
  · exact h
  · split
    · exact ⟨h.workspaces.later (Nat.le_succ _), h.documents⟩
    · refine ⟨?_, h.documents⟩
      simp only [Tables.addWorkspace, List.map_append]
      exact h.workspaces.snoc

theorem updateWorkspace_keyed (h : r.Keyed) (id : Int) (changes : WorkspaceChanges) :
    (updateWorkspace id changes now r).1.Keyed := by
  simp only [updateWorkspace]
  split
  · exact h
  · exact h.restated (map_updateWhere fun _ _ hit => (beq_iff_eq.mp hit).symm) rfl

theorem deleteWorkspace_keyed (h : r.Keyed) (id : Int) (time : Instant) :
    (deleteWorkspace id time r).1.Keyed := by
  simp only [deleteWorkspace, eraseWorkspace]
  split
  · exact h
  · cases r.tables.workspace? id with
    | none => exact h
    | some w =>
      refine h.restated ?_ (map_updateWhere fun _ _ _ => rfl)
      exact map_updateWhere (f := fun _ => w.tombstone _) fun _ _ hit => (beq_iff_eq.mp hit).symm

theorem createDocument_keyed (h : r.Keyed) (new : NewDocument) :
    (createDocument new now r).1.Keyed := by
  simp only [createDocument]
  split
  · exact h
  · split
    · exact ⟨h.workspaces, h.documents.later (Nat.le_succ _)⟩
    · refine ⟨h.workspaces, ?_⟩
      simp only [Tables.addDocument, List.map_append]
      exact h.documents.snoc

theorem createNextVersion_renamed (new : NewVersion) :
    Renamed r (createNextVersion new now r).1 := by
  simp only [createNextVersion]
  split
  · exact .refl r
  · split
    · exact ⟨rfl, rfl, ⟨Nat.le_refl _, Nat.le_refl _, Nat.le_succ _, Nat.le_refl _⟩⟩
    · exact ⟨rfl, rfl, ⟨Nat.le_refl _, Nat.le_refl _, Nat.le_succ _, Nat.le_refl _⟩⟩

theorem createDocumentWithVersion_keyed (h : r.Keyed) (new : NewDocument)
    (first : Option FirstVersion) : (createDocumentWithVersion new first now r).1.Keyed := by
  have made : (createDocument new now r).1.Keyed := createDocument_keyed h new
  have before : r.sequences.Before (createDocument new now r).1.sequences := by
    simp only [createDocument]
    split
    · exact .refl _
    · split
      · exact ⟨Nat.le_refl _, Nat.le_succ _, Nat.le_refl _, Nat.le_refl _⟩
      · exact ⟨Nat.le_refl _, Nat.le_succ _, Nat.le_refl _, Nat.le_refl _⟩
  unfold createDocumentWithVersion
  split
  · rename_i result
    rwa [result] at made
  · rename_i r' d result
    rw [result] at made before
    cases first with
    | none => exact made
    | some f =>
      have added : Renamed r' (createNextVersion (f.of d.id) now r').1 :=
        createNextVersion_renamed _
      simp only
      split
      · rename_i result
        rw [result] at added
        exact made.renamed added
      · rename_i result
        rw [result] at added
        exact ⟨h.workspaces.later (Nat.le_trans before.workspaces added.before.workspaces),
          h.documents.later (Nat.le_trans before.documents added.before.documents)⟩

theorem updateDocument_keyed (h : r.Keyed) (id : Int) (changes : DocumentChanges) :
    (updateDocument id changes now r).1.Keyed := by
  simp only [updateDocument]
  split
  · exact h
  · exact h.restated rfl (map_updateWhere fun _ _ hit => (beq_iff_eq.mp hit).symm)

theorem deleteDocument_keyed (h : r.Keyed) (id : Int) (time : Instant) :
    (deleteDocument id time r).1.Keyed := by
  simp only [deleteDocument, Tables.deleteDocument]
  split
  · exact h
  · cases r.tables.document? id with
    | none => exact h
    | some d =>
      refine h.restated rfl ?_
      exact map_updateWhere (f := fun _ => d.tombstone _) fun _ _ hit => (beq_iff_eq.mp hit).symm

theorem createShare_renamed (new : NewShare) : Renamed r (createShare new now r).1 := by
  simp only [createShare]
  split
  · exact .refl r
  · split
    · exact ⟨rfl, rfl, ⟨Nat.le_refl _, Nat.le_refl _, Nat.le_refl _, Nat.le_succ _⟩⟩
    · exact ⟨rfl, rfl, ⟨Nat.le_refl _, Nat.le_refl _, Nat.le_refl _, Nat.le_succ _⟩⟩

theorem updateShare_renamed (id : Int) (changes : ShareChanges) :
    Renamed r (updateShare id changes now r).1 := by
  simp only [updateShare]
  split
  · exact .refl r
  · exact ⟨rfl, rfl, .refl _⟩

theorem deleteShare_renamed (id : Int) (time : Instant) :
    Renamed r (deleteShare id time r).1 := by
  simp only [deleteShare, Tables.deleteShare]
  split
  · exact .refl r
  · cases r.tables.share? id with
    | none => exact .refl r
    | some s => exact ⟨rfl, rfl, .refl _⟩

theorem ensureUser_renamed (id : Int) : Renamed r (ensureUser id r).1 := by
  unfold ensureUser
  split
  · exact .refl r
  · split
    · exact .refl r
    · exact ⟨rfl, rfl, .refl _⟩

theorem answer_keyed (h : r.Keyed) (call : Call β) (now : Instant) : (answer now call r).1.Keyed := by
  cases call with
  | ensureUser id => exact h.renamed (ensureUser_renamed id)
  | createWorkspace new => exact createWorkspace_keyed h new
  | updateWorkspace id changes => exact updateWorkspace_keyed h id changes
  | deleteWorkspace id time => exact deleteWorkspace_keyed h id time
  | createDocument new => exact createDocument_keyed h new
  | createDocumentWithVersion new first => exact createDocumentWithVersion_keyed h new first
  | updateDocument id changes => exact updateDocument_keyed h id changes
  | deleteDocument id time => exact deleteDocument_keyed h id time
  | createNextVersion new => exact h.renamed (createNextVersion_renamed new)
  | createShare new => exact h.renamed (createShare_renamed new)
  | updateShare id changes => exact h.renamed (updateShare_renamed id changes)
  | deleteShare id time => exact h.renamed (deleteShare_renamed id time)
  | _ => exact h

end Relational

end DiagramShare.Repository

namespace DiagramShare.Service

open DiagramShare.Repository (Relational)

theorem Stored.keyed {r : Relational} (stored : Stored r) : r.Keyed :=
  stored.holds Relational.keyed_empty fun call now _ keyed => Relational.answer_keyed keyed call now

end DiagramShare.Service
