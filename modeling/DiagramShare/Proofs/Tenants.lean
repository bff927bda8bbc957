import DiagramShare.Proofs.Containment
import DiagramShare.Proofs.Unseen

/-! What one tenant learns of another. Whoever does not own a workspace, and may read neither it nor
any of its documents, is answered the same whatever it and its documents are called and whatever is
in them. -/
namespace DiagramShare

open DiagramShare.Time (Instant)
open List (Forall₂)

def Workspace.masked (room : Int) (w : Workspace) : Workspace :=
  if w.id = room then { w with name := "", description := none } else w

def Document.masked (room : Int) (d : Document) : Document :=
  if d.workspace = room then { d with title := "", kind := .mermaid, slug := "" } else d

namespace Repository

def Tables.holds (t : Tables) (room document : Int) : Bool :=
  t.documents.any fun d => d.id == document && d.workspace == room

/-- The tables without the texts of a workspace and of its documents, and without the versions of
these. -/
def Tables.outside (t : Tables) (room : Int) : Tables where
  workspaces := t.workspaces.map (Workspace.masked room)
  documents := t.documents.map (Document.masked room)
  versions := t.versions.filter fun v => !t.holds room v.document
  shares := t.shares

/-- Two stores that are the same but for the texts of a workspace and of its documents, and for the
versions of these. -/
structure Memory.AlikeBut (room : Int) (m m' : Memory) : Prop where
  lastId : m'.lastId = m.lastId
  users : ∀ user, user ∈ m'.users ↔ user ∈ m.users
  failVersions : m'.failVersions = m.failVersions
  outside : m'.tables.outside room = m.tables.outside room

/-- Hides a workspace from a user, with the documents that are in it. -/
def veilOver (user : Option Int) (room : Int) (t : Tables) : Veil where
  user := user
  shut := fun id => id == room
  closed := t.holds room
  secret := fun _ => False
  known := fun _ => True

section Rows

variable {V : Veil} {room : Int} {t t' : Tables}

theorem holds_iff {document : Int} : t.holds room document = true ↔
    ∃ d ∈ t.documents, d.id = document ∧ d.workspace = room := by
  simp only [Tables.holds, List.any_eq_true, Bool.and_eq_true, beq_iff_eq]

theorem forall₂_of_map {f : α → β} {rows rows' : List α} (same : rows'.map f = rows.map f) :
    Forall₂ (fun a b => f b = f a) rows rows' := by
  have rows : Forall₂ Eq (rows'.map f) (rows.map f) := List.forall₂_eq_eq_eq ▸ same
  exact (List.forall₂_map_left_iff.mp (List.forall₂_map_right_iff.mp rows)).flip

theorem workspace_of_masked {w w' : Workspace} (shut : V.shut room = true)
    (same : w'.masked room = w.masked room) : w.Veiled V w' := by
  have id : w'.id = w.id := by
    have ids : (w'.masked room).id = (w.masked room).id := congrArg Workspace.id same
    simp only [Workspace.masked] at ids
    split at ids <;> split at ids <;> exact ids
  by_cases here : w.id = room
  · simp only [Workspace.masked, id, here, if_true, Workspace.mk.injEq] at same
    obtain ⟨_, _, _, owner, isPublic, created, updated, deleted⟩ := same
    have changed : w' = { w with name := w'.name, description := w'.description } := by
      cases w'
      simp_all
    rw [changed]
    exact .text (here ▸ shut) _ _
  · simp only [Workspace.masked, id, here, if_false] at same
    rw [same]
    exact .same

theorem document_of_masked {d d' : Document} (same : d'.masked room = d.masked room)
    (closed : d.workspace = room → V.closed d.id = true) : d.Veiled V d' := by
  have workspace : d'.workspace = d.workspace := by
    have places : (d'.masked room).workspace = (d.masked room).workspace :=
      congrArg Document.workspace same
    simp only [Document.masked] at places
    split at places <;> split at places <;> exact places
  by_cases here : d.workspace = room
  · simp only [Document.masked, workspace, here, if_true, Document.mk.injEq] at same
    obtain ⟨id, _, _, _, _, isPublic, created, updated, deleted⟩ := same
    have changed : d' = { d with title := d'.title, kind := d'.kind, slug := d'.slug } := by
      cases d'
      simp_all
    rw [changed]
    exact .text (closed here) _ _ _
  · simp only [Document.masked, workspace, here, if_false] at same
    rw [same]
    exact .same

theorem masked_of_workspace {w w' : Workspace} (row : w.Veiled V w')
    (shut : V.shut w.id = true → w.id = room) : w'.masked room = w.masked room := by
  cases row with
  | same => rfl
  | text hidden name description => simp only [Workspace.masked, shut hidden, if_true]

theorem masked_of_document {d d' : Document} (row : d.Veiled V d')
    (closed : V.closed d.id = true → d.workspace = room) : d'.masked room = d.masked room := by
  cases row with
  | same => rfl
  | text hidden title kind slug => simp only [Document.masked, closed hidden, if_true]

theorem holds_twin (rows : Forall₂ (fun d d' : Document => d'.id = d.id ∧
    d'.workspace = d.workspace) t.documents t'.documents) : t'.holds room = t.holds room := by
  funext document
  rw [Tables.holds, Tables.holds]
  refine any_twin rows fun d d' r => ?_
  rw [r.1, r.2]

end Rows

section Stores

variable {user : Option Int} {m m' : Memory} {ws : Workspace}

theorem holds_of_mem {room : Int} (numbered : m.Numbered) {d : Document}
    (stored : d ∈ m.tables.documents) : m.tables.holds room d.id = (d.workspace == room) := by
  rw [Bool.eq_iff_iff, holds_iff, beq_iff_eq]
  constructor
  · rintro ⟨e, there, same, inside⟩
    rwa [eq_of_key numbered.documents there stored same] at inside
  · intro inside
    exact ⟨d, stored, rfl, inside⟩

theorem over_foreign (numbered : m.Numbered) (stored : ws ∈ m.tables.workspaces)
    (foreign : user ≠ some ws.owner) : Over (veilOver user ws.id m.tables) m.tables := by
  constructor
  · intro id shut
    exact ⟨ws, stored, (beq_iff_eq.mp shut).symm⟩
  · intro id closed
    obtain ⟨d, there, number, _⟩ := holds_iff.mp closed
    exact ⟨d, there, number⟩
  · intro d there
    exact holds_of_mem numbered there
  · intro w there shut
    obtain rfl := eq_of_key numbered.workspaces there stored (beq_iff_eq.mp shut)
    exact foreign
  · intro id secret
    exact secret.elim

theorem Memory.AlikeBut.veiled {room : Int} (h : m.AlikeBut room m') (numbered : m.Numbered)
    (hides : Over (veilOver user room m.tables) m.tables) :
    m.Veiled (veilOver user room m.tables) m' := by
  obtain ⟨workspaces, documents, versions, shares⟩ := Tables.mk.inj h.outside
  have placed : Forall₂ (fun d d' : Document => d'.masked room = d.masked room)
      m.tables.documents m'.tables.documents := forall₂_of_map documents
  have rows : Forall₂ (Document.Veiled (veilOver user room m.tables)) m.tables.documents
      m'.tables.documents := by
    refine (listed_twin placed).imp fun d d' ⟨stored, same⟩ => ?_
    refine document_of_masked same fun here => ?_
    exact (holds_of_mem numbered stored).trans (beq_iff_eq.mpr here)
  have held : m'.tables.holds room = m.tables.holds room :=
    holds_twin (rows.imp fun _ _ r => ⟨r.id, r.workspace⟩)
  refine ⟨h.lastId, h.users, h.failVersions, ?_, rows, ?_, ?_, hides⟩
  · exact (forall₂_of_map workspaces).imp fun _ _ same =>
      workspace_of_masked (beq_self_eq_true room) same
  · rw [held] at versions
    exact versions
  · rw [shares]
    exact List.forall₂_same.mpr fun _ _ => .same

theorem Memory.Veiled.alikeBut {room : Int} {t : Tables} (h : m.Veiled (veilOver user room t) m') :
    m.AlikeBut room m' := by
  have inside : ∀ d ∈ m.tables.documents, t.holds room d.id = (d.workspace == room) :=
    h.tables.hides.inside
  have closed : m.tables.holds room = t.holds room := by
    funext id
    rw [Bool.eq_iff_iff, holds_iff]
    constructor
    · rintro ⟨d, stored, rfl, here⟩
      rw [inside d stored, here, beq_self_eq_true]
    · intro closed
      obtain ⟨d, stored, rfl⟩ := h.tables.hides.files id closed
      rw [inside d stored, beq_iff_eq] at closed
      exact ⟨d, stored, rfl, closed⟩
  have held : m'.tables.holds room = m.tables.holds room :=
    holds_twin (h.tables.documents.imp fun _ _ r => ⟨r.id, r.workspace⟩)
  have workspaces : m'.tables.workspaces.map (Workspace.masked room) =
      m.tables.workspaces.map (Workspace.masked room) :=
    map_twin h.tables.workspaces fun _ _ row => masked_of_workspace row beq_iff_eq.mp
  have documents : m'.tables.documents.map (Document.masked room) =
      m.tables.documents.map (Document.masked room) := by
    refine map_twin (listed_twin h.tables.documents) fun d d' ⟨stored, row⟩ => ?_
    refine masked_of_document row fun closed => ?_
    exact beq_iff_eq.mp ((inside d stored).symm.trans closed)
  have versions : m'.tables.versions.filter (fun v => !m'.tables.holds room v.document) =
      m.tables.versions.filter fun v => !m.tables.holds room v.document := by
    rw [held, closed]
    exact h.tables.versions
  have shares : m'.tables.shares = m.tables.shares := by
    have same : Forall₂ Eq m.tables.shares m'.tables.shares :=
      h.tables.shares.imp fun _ _ row => (row.eq not_false).symm
    exact (List.forall₂_eq_eq_eq ▸ same : m.tables.shares = m'.tables.shares).symm
  refine ⟨h.lastId, h.users, h.failVersions, ?_⟩
  rw [Tables.outside, Tables.outside, workspaces, documents, versions, shares]

end Stores

end Repository

namespace Service

open DiagramShare.Access
open DiagramShare.Repository (Memory Tables veilOver)

variable {c : Conditions} {w : World Memory} {caller : Caller}

/-- A caller may read neither a workspace nor any document in it. -/
structure Barred (t : Tables) (caller : Caller) (ws : Workspace) (now : Instant) : Prop where
  workspace : authorize (some (.workspace ws)) caller .read [] now ≠ .allowed
  documents : ∀ d ∈ documentsIn t ws.id, ¬ Allowed t caller d.id .read now

theorem barred_of_private {m : Memory} {ws : Workspace} {now : Instant} (numbered : m.Numbered)
    (stored : ws ∈ m.tables.workspaces) (foreign : caller.user ≠ some ws.owner)
    (shut : ws.isPublic = false) (closed : ∀ d ∈ documentsIn m.tables ws.id, d.isPublic = false)
    (unshared : ∀ s ∈ sharesIn m.tables ws.id, ¬ InForce s caller now) :
    Barred m.tables caller ws now := by
  constructor
  · have open_ : isOpen (.workspace ws) caller .read [] now = false := shut
    simp only [authorize, Resource.owner, beq_eq_false_iff_ne.mpr foreign, open_]
    split <;> exact Decision.noConfusion
  · rintro d inside ⟨e, v, present, number, entitled⟩
    obtain ⟨there, here⟩ := List.mem_filter.mp inside
    obtain rfl := Repository.eq_of_key numbered.documents present.document there number
    have room : v.id = ws.id := present.inside.symm.trans (beq_iff_eq.mp here)
    obtain rfl := Repository.eq_of_key numbered.workspaces present.workspace stored room
    rcases entitled with own | ⟨_, shown | shown⟩ | ⟨s, lent, on, inForce, _⟩
    · exact foreign own
    · exact Bool.noConfusion ((closed e inside).symm.trans shown)
    · exact Bool.noConfusion (shut.symm.trans shown)
    · have listed : e.id ∈ (documentsIn m.tables v.id).map Document.id :=
        List.mem_map_of_mem inside
      refine unshared s (List.mem_filter.mpr ⟨lent, ?_⟩) inForce
      rw [List.contains_iff_mem, on]
      exact listed

theorem Barred.keptOut {m : Memory} {ws : Workspace} {now : Instant} (numbered : m.Numbered)
    (stored : ws ∈ m.tables.workspaces) (barred : Barred m.tables caller ws now) :
    KeptOut (veilOver caller.user ws.id m.tables) caller m.tables now := by
  constructor
  · intro w there shut
    obtain rfl := Repository.eq_of_key numbered.workspaces there stored (beq_iff_eq.mp shut)
    exact barred.workspace
  · intro id closed
    obtain ⟨d, there, rfl, inside⟩ := Repository.holds_iff.mp closed
    exact barred.documents d (List.mem_filter.mpr ⟨there, beq_iff_eq.mpr inside⟩)

/-- Two stores that requests have led to are the same but for the texts of a workspace and of its
documents and for the versions of these. A caller who does not own the workspace, and may read
neither it nor any of its documents while an operation runs, is answered the same on both, and the
stores are left the same but for the workspace again. -/
theorem tenant_noninterference {m' : Memory} {ws : Workspace} (reached : Reachable w.store)
    (reached' : Reachable m') (stored : ws ∈ w.store.tables.workspaces)
    (alike : w.store.AlikeBut ws.id m') (foreign : caller.user ≠ some ws.owner) (op : Operation) :
    let out := (serve caller op).run inMemory c w
    let out' := (serve caller op).run inMemory c { w with store := m' }
    (∀ now, Shown c w out.1 now → Barred w.store.tables caller ws now) →
      out'.2.1 = out.2.1 ∧ out.1.store.AlikeBut ws.id out'.1.store ∧
        out'.1 = { out.1 with store := out'.1.store } := by
  intro out out' barred
  have numbered := reached.numbered
  have own : Veil.For (veilOver caller.user ws.id w.store.tables) caller :=
    ⟨rfl, fun _ _ => trivial⟩
  have hides := Repository.over_foreign numbered stored foreign
  have start : World.Veiled (veilOver caller.user ws.id w.store.tables) c w
      { w with store := m' } :=
    .beside (fun _ _ => trivial) (alike.veiled numbered hides) numbered reached'.numbered
  obtain ⟨same, left⟩ := serve_guarded own op _ _ _ _ _ _ start (ends_run _ _) (ends_run _ _)
    fun now shown => (barred now shown).keptOut numbered stored
  exact ⟨same, left.store.alikeBut, left.elsewhere⟩

def retitled : World Memory :=
  (((World.start Memory.empty (Storage.Backend.opened {} "root").1).after ⟨some 1, none⟩
    (.createWorkspace ⟨"Plans", none, none⟩)).after ⟨some 1, none⟩
    (.createDocument 1 ⟨"Tree", .markdown, none, none, some "root"⟩)).after ⟨some 1, none⟩
    (.shareDocument 2 ⟨none, .edit, none⟩)

theorem retitled_reachable : Reachable retitled.store :=
  .served (.served (.served .empty _ _ _) _ _ _) _ _ _

theorem sample_alikeBut_retitled : sample.store.AlikeBut 1 retitled.store := by
  constructor
  · decide +kernel
  · have same : retitled.store.users = sample.store.users := by decide +kernel
    rw [same]
    exact fun _ => Iff.rfl
  · decide +kernel
  · simp only [Tables.outside, Tables.mk.injEq]
    decide +kernel

/-- User 2 may call a workspace as user 1 calls another, and does not learn of it. -/
theorem stranger_unaware :
    let caller : Caller := ⟨some 2, none⟩
    let op : Operation := .createWorkspace ⟨"Plans", none, none⟩
    let out := (serve caller op).run inMemory steady sample
    let out' := (serve caller op).run inMemory steady { sample with store := retitled.store }
    retitled.store.tables.workspaces ≠ sample.store.tables.workspaces ∧
      out.2.1.toOption.isSome = true ∧ out'.2.1 = out.2.1 ∧
      out.1.store.AlikeBut 1 out'.1.store := by
  intro caller op out out'
  have rows : ∃ ws ∈ sample.store.tables.workspaces, ws.id = 1 ∧ caller.user ≠ some ws.owner ∧
      ws.isPublic = false ∧ (∀ d ∈ documentsIn sample.store.tables ws.id, d.isPublic = false) ∧
      ∀ s ∈ sharesIn sample.store.tables ws.id, s.user = none := by decide +kernel
  obtain ⟨ws, stored, number, foreign, shut, closed, tokens⟩ := rows
  have unshared : ∀ now, ∀ s ∈ sharesIn sample.store.tables ws.id, ¬ InForce s caller now := by
    intro now s lent inForce
    rcases inForce.held with ⟨user, bound, _⟩ | ⟨_, shown⟩
    · cases (tokens s lent).symm.trans bound
    · cases shown
  have alike : sample.store.AlikeBut ws.id retitled.store := number ▸ sample_alikeBut_retitled
  have barred : ∀ now, Barred sample.store.tables caller ws now := fun now =>
    barred_of_private sample_reachable.numbered stored foreign shut closed (unshared now)
  obtain ⟨same, left, _⟩ := tenant_noninterference (c := steady) sample_reachable
    retitled_reachable stored alike foreign op fun now _ => barred now
  rw [number] at left
  refine ⟨?_, ?_, same, left⟩
  · decide +kernel
  · decide +kernel

end Service

end DiagramShare
