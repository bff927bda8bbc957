import DiagramShare.Proofs.Atomicity
import DiagramShare.Proofs.Effect
import Mathlib.Data.List.Forall2

/-! What others can do to a workspace. Whoever is not its owner leaves its row, who may see what in
it and its shares as they are, and changes its documents only where a share lets them. -/
namespace DiagramShare.Service

open DiagramShare.Access
open DiagramShare.Repository (Memory Tables Change)
open DiagramShare.Time (Instant)

def documentsIn (t : Tables) (workspace : Int) : List Document :=
  t.documents.filter fun d => d.workspace == workspace

def sharesIn (t : Tables) (workspace : Int) : List Share :=
  t.shares.filter fun s => ((documentsIn t workspace).map Document.id).contains s.document

/-- A document as it was, or rewritten or deleted by someone who may write it. -/
inductive Edited (write : Int → Prop) : Document → Document → Prop where
  | kept (d : Document) : Edited write d d
  | rewritten (d : Document) (may : write d.id) (title : String) (kind : DocumentKind)
      (slug : String) (time : Instant) :
      Edited write d { d with title := title, kind := kind, slug := slug, updatedAt := time }
  | deleted (d : Document) (may : write d.id) (time : Instant) : Edited write d (d.tombstone time)

/-- A share as it was, or deleted with its document. -/
inductive Dropped (gone : Int → Prop) : Share → Share → Prop where
  | kept (s : Share) : Dropped gone s s
  | deleted (s : Share) (along : gone s.document) (time : Instant) :
      Dropped gone s (s.tombstone time)

/-- One state of the rows differs from another, as far as a workspace goes, only by documents that
may be written and by shares that go with their documents. -/
structure Contained (ws : Workspace) (write gone : Int → Prop) (t t' : Tables) : Prop where
  workspace : ∀ v, v ∈ t'.workspaces ∧ v.id = ws.id ↔ v = ws
  documents : List.Forall₂ (Edited write) (documentsIn t ws.id) (documentsIn t' ws.id)
  shares : List.Forall₂ (Dropped gone) (sharesIn t ws.id) (sharesIn t' ws.id)

variable {write gone : Int → Prop}

theorem forall₂_updateWhere {R : α → α → Prop} {p : α → Bool} {f : α → α} {rows : List α}
    (refl : ∀ r, R r r) (changed : ∀ r ∈ rows, p r = true → R r (f r)) :
    List.Forall₂ R rows (Repository.updateWhere p f rows) := by
  rw [Repository.updateWhere, List.forall₂_map_right_iff, List.forall₂_same]
  intro r hr
  cases hp : p r with
  | true => exact changed r hr hp
  | false => exact refl r

theorem filter_updateWhere {p q : α → Bool} {f : α → α} {rows : List α}
    (same : ∀ r ∈ rows, p r = true → q (f r) = q r) :
    (Repository.updateWhere p f rows).filter q = Repository.updateWhere p f (rows.filter q) := by
  rw [Repository.updateWhere, List.filter_map, Repository.updateWhere]
  congr 1
  apply List.filter_congr
  intro r hr
  cases hp : p r with
  | true => simp [hp, same r hr hp]
  | false => simp [hp]

theorem edited_ids {ds ds' : List Document} (h : List.Forall₂ (Edited write) ds ds') :
    ds'.map Document.id = ds.map Document.id := by
  induction h with
  | nil => rfl
  | cons edited _ ih =>
    rw [List.map_cons, List.map_cons, ih]
    cases edited <;> rfl

theorem sharesIn_eq {t t' : Tables} {workspace : Int}
    (h : List.Forall₂ (Edited write) (documentsIn t workspace) (documentsIn t' workspace)) :
    sharesIn t' workspace = t'.shares.filter fun s =>
      ((documentsIn t workspace).map Document.id).contains s.document := by
  rw [sharesIn, edited_ids h]

section Changes

variable {m : Memory} {ws : Workspace}

theorem workspace_kept (numbered : m.Numbered) (stored : ws ∈ m.tables.workspaces)
    (u : Workspace) : u ∈ m.tables.workspaces ∧ u.id = ws.id ↔ u = ws := by
  constructor
  · rintro ⟨hu, same⟩
    exact Repository.eq_of_key numbered.workspaces hu stored same
  · rintro rfl
    exact ⟨stored, rfl⟩

theorem workspace_added (numbered : m.Numbered) (stored : ws ∈ m.tables.workspaces)
    {v : Workspace} (other : v.id ≠ ws.id) (u : Workspace) :
    u ∈ (m.tables.addWorkspace v).workspaces ∧ u.id = ws.id ↔ u = ws := by
  rw [← workspace_kept numbered stored u, Tables.addWorkspace, List.mem_append,
    List.mem_singleton]
  constructor
  · rintro ⟨hu | rfl, same⟩
    · exact ⟨hu, same⟩
    · exact absurd same other
  · rintro ⟨hu, same⟩
    exact ⟨.inl hu, same⟩

theorem workspace_set (numbered : m.Numbered) (stored : ws ∈ m.tables.workspaces)
    {v : Workspace} (other : v.id ≠ ws.id) (u : Workspace) :
    u ∈ (m.tables.setWorkspace v).workspaces ∧ u.id = ws.id ↔ u = ws := by
  rw [Tables.setWorkspace, Repository.mem_updateWhere]
  constructor
  · rintro ⟨⟨x, hx, rfl⟩, same⟩
    split at same
    · exact absurd same other
    · rename_i unhit
      rw [if_neg unhit]
      exact Repository.eq_of_key numbered.workspaces hx stored same
  · rintro rfl
    refine ⟨⟨u, stored, ?_⟩, rfl⟩
    rw [if_neg]
    simpa using Ne.symm other

theorem foreign_id (numbered : m.Numbered) (stored : ws ∈ m.tables.workspaces)
    {caller : Caller} (foreign : caller.user ≠ some ws.owner) {v : Workspace}
    (hv : v ∈ m.tables.workspaces) (own : caller.user = some v.owner) : v.id ≠ ws.id := by
  intro same
  obtain rfl := Repository.eq_of_key numbered.workspaces hv stored same
  exact foreign own

theorem documents_kept (t : Tables) (workspace : Int) :
    List.Forall₂ (Edited write) (documentsIn t workspace) (documentsIn t workspace) :=
  List.forall₂_same.mpr fun d _ => .kept d

theorem documents_added {t : Tables} {d : Document} {workspace : Int}
    (other : d.workspace ≠ workspace) :
    documentsIn (t.addDocument d) workspace = documentsIn t workspace := by
  simp [documentsIn, Tables.addDocument, List.filter_append, other]

theorem documents_set (numbered : m.Numbered) {d e : Document} {workspace : Int}
    (stored : d ∈ m.tables.documents) (number : e.id = d.id) (inside : e.workspace = d.workspace)
    (edited : d.workspace = workspace → Edited write d e) :
    List.Forall₂ (Edited write) (documentsIn m.tables workspace)
      (documentsIn (m.tables.setDocument e) workspace) := by
  have only : ∀ r ∈ m.tables.documents, (r.id == e.id) = true → r = d := fun r hr hit =>
    Repository.eq_of_key numbered.documents hr stored ((beq_iff_eq.mp hit).trans number)
  rw [documentsIn, documentsIn, Tables.setDocument, filter_updateWhere]
  · apply forall₂_updateWhere Edited.kept
    intro r hr hit
    obtain ⟨hr, within⟩ := List.mem_filter.mp hr
    obtain rfl := only r hr hit
    exact edited (beq_iff_eq.mp within)
  · intro r hr hit
    obtain rfl := only r hr hit
    rw [inside]

theorem documents_deleted {t : Tables} {v workspace : Int} (other : v ≠ workspace)
    (time : Instant) :
    List.Forall₂ (Edited write) (documentsIn t workspace)
      (documentsIn (t.deleteDocumentsOf v time) workspace) := by
  rw [documentsIn, documentsIn, Tables.deleteDocumentsOf, filter_updateWhere]
  · apply forall₂_updateWhere Edited.kept
    intro r hr hit
    have within := beq_iff_eq.mp (List.mem_filter.mp hr).2
    have hit := beq_iff_eq.mp (Bool.and_eq_true_iff.mp hit).1
    exact absurd (hit.symm.trans within) other
  · intro r _ _
    rfl

theorem not_in_documents (numbered : m.Numbered) {d : Document} {workspace : Int}
    (stored : d ∈ m.tables.documents) (other : d.workspace ≠ workspace) :
    d.id ∉ (documentsIn m.tables workspace).map Document.id := by
  intro listed
  obtain ⟨e, he, same⟩ := List.mem_map.mp listed
  obtain ⟨he, within⟩ := List.mem_filter.mp he
  obtain rfl := Repository.eq_of_key numbered.documents he stored same
  exact other (beq_iff_eq.mp within)

theorem shares_kept (t : Tables) (workspace : Int) :
    List.Forall₂ (Dropped gone) (sharesIn t workspace) (sharesIn t workspace) :=
  List.forall₂_same.mpr fun s _ => .kept s

theorem shares_updated {p : Share → Bool} {f : Share → Share} {shares : List Share}
    {documents : List Int} (same : ∀ s ∈ shares, p s = true → (f s).document = s.document)
    (dropped : ∀ s ∈ shares, p s = true → s.document ∈ documents → Dropped gone s (f s)) :
    List.Forall₂ (Dropped gone) (shares.filter fun s => documents.contains s.document)
      ((Repository.updateWhere p f shares).filter fun s => documents.contains s.document) := by
  rw [filter_updateWhere]
  · apply forall₂_updateWhere Dropped.kept
    intro s hs hit
    obtain ⟨hs, listed⟩ := List.mem_filter.mp hs
    exact dropped s hs hit (by simpa using listed)
  · intro s hs hit
    rw [same s hs hit]

theorem shares_added {s : Share} {shares : List Share} {documents : List Int}
    (other : s.document ∉ documents) :
    (shares ++ [s]).filter (fun s => documents.contains s.document) =
      shares.filter fun s => documents.contains s.document := by
  simp [List.filter_append, other]

theorem contained_addDocument (numbered : m.Numbered) (stored : ws ∈ m.tables.workspaces)
    {d : Document} (other : d.workspace ≠ ws.id) :
    Contained ws write gone m.tables (m.tables.addDocument d) := by
  have documents : List.Forall₂ (Edited write) (documentsIn m.tables ws.id)
      (documentsIn (m.tables.addDocument d) ws.id) := by
    rw [documents_added other]
    exact documents_kept _ _
  refine ⟨workspace_kept numbered stored, documents, ?_⟩
  rw [sharesIn_eq documents]
  exact shares_kept _ _

theorem contained_setDocument (numbered : m.Numbered) (stored : ws ∈ m.tables.workspaces)
    {d e : Document} (there : d ∈ m.tables.documents) (number : e.id = d.id)
    (inside : e.workspace = d.workspace) (edited : d.workspace = ws.id → Edited write d e) :
    Contained ws write gone m.tables (m.tables.setDocument e) := by
  have documents := documents_set numbered there number inside edited
  refine ⟨workspace_kept numbered stored, documents, ?_⟩
  rw [sharesIn_eq documents]
  exact shares_kept _ _

theorem contained_deleteDocument (numbered : m.Numbered) (stored : ws ∈ m.tables.workspaces)
    {d : Document} (there : d ∈ m.tables.documents) (may : write d.id) (along : gone d.id)
    (time : Instant) :
    Contained ws write gone m.tables ((Change.deleteDocument d time).on m).tables := by
  have documents : List.Forall₂ (Edited write) (documentsIn m.tables ws.id)
      (documentsIn ((Change.deleteDocument d time).on m).tables ws.id) :=
    documents_set (e := d.tombstone time) numbered there rfl rfl fun _ => .deleted d may time
  refine ⟨workspace_kept (m := m) numbered stored, documents, ?_⟩
  rw [sharesIn_eq documents]
  refine shares_updated (fun _ _ _ => rfl) fun s hs hit _ => .deleted s ?_ time
  obtain ⟨on, _⟩ := Bool.and_eq_true_iff.mp hit
  rw [List.mem_singleton.mp (List.contains_iff_mem.mp on)]
  exact along

theorem contained_deleteWorkspace (numbered : m.Numbered) (stored : ws ∈ m.tables.workspaces)
    {v : Workspace} (other : v.id ≠ ws.id) (time : Instant) :
    Contained ws write gone m.tables ((Change.deleteWorkspace v time).on m).tables := by
  have documents : List.Forall₂ (Edited write) (documentsIn m.tables ws.id)
      (documentsIn ((Change.deleteWorkspace v time).on m).tables ws.id) :=
    documents_deleted (t := m.tables.setWorkspace (v.tombstone time)) other time
  refine ⟨workspace_set numbered stored other, documents, ?_⟩
  rw [sharesIn_eq documents]
  refine shares_updated (fun _ _ _ => rfl) fun s hs hit listed => ?_
  obtain ⟨on, _⟩ := Bool.and_eq_true_iff.mp hit
  obtain ⟨d, hd, same⟩ := List.mem_map.mp (List.contains_iff_mem.mp on)
  obtain ⟨hd, within⟩ := List.mem_filter.mp hd
  have outside : d.workspace ≠ ws.id := by
    rw [beq_iff_eq.mp (Bool.and_eq_true_iff.mp within).1]
    exact other
  exact absurd (same ▸ listed) (not_in_documents numbered hd outside)

theorem contained_addShare (numbered : m.Numbered) (stored : ws ∈ m.tables.workspaces)
    {s : Share} (other : s.document ∉ (documentsIn m.tables ws.id).map Document.id) :
    Contained ws write gone m.tables (m.tables.addShare s) := by
  have shares : sharesIn (m.tables.addShare s) ws.id = sharesIn m.tables ws.id :=
    shares_added other
  refine ⟨workspace_kept numbered stored, documents_kept _ _, ?_⟩
  rw [shares]
  exact shares_kept _ _

theorem contained_setShare (numbered : m.Numbered) (stored : ws ∈ m.tables.workspaces)
    {s r : Share} (there : s ∈ m.tables.shares) (number : r.id = s.id)
    (on : r.document = s.document)
    (other : s.document ∉ (documentsIn m.tables ws.id).map Document.id) :
    Contained ws write gone m.tables (m.tables.setShare r) := by
  have only : ∀ x ∈ m.tables.shares, (x.id == r.id) = true → x = s := fun x hx hit =>
    Repository.eq_of_key numbered.shares hx there ((beq_iff_eq.mp hit).trans number)
  refine ⟨workspace_kept numbered stored, documents_kept _ _, ?_⟩
  refine shares_updated ?_ ?_
  · intro x hx hit
    obtain rfl := only x hx hit
    exact on
  · intro x hx hit listed
    obtain rfl := only x hx hit
    exact absurd listed other

/-- A change that an operation makes for someone else than the owner of a workspace leaves the
workspace as it was, up to documents that the caller may write. -/
theorem Warrant.contained {moment : Instant → Prop} {caller : Caller} {op : Operation}
    {change : Change} (warrant : Warrant moment caller m.tables op change) (fits : change.Fits m)
    (numbered : m.Numbered) (stored : ws ∈ m.tables.workspaces)
    (foreign : caller.user ≠ some ws.owner) (deletes : ∀ id, op = .deleteDocument id → gone id) :
    Contained ws (fun id => ∃ seen, moment seen ∧ Allowed m.tables caller id .write seen) gone
      m.tables (change.on m).tables := by
  have kept := workspace_kept numbered stored
  have outside : ∀ {d v}, Present m.tables d v → caller.user = some v.owner →
      d.workspace ≠ ws.id := fun present own =>
    present.inside ▸ foreign_id numbered stored foreign present.workspace own
  cases warrant with
  | nothing => exact ⟨kept, documents_kept _ _, shares_kept _ _⟩
  | @addWorkspace request new now own =>
    have other : m.nextId ≠ ws.id := by
      intro same
      exact numbered.nextId_fresh (same ▸ Tables.workspace_mem_ids stored)
    exact ⟨workspace_added numbered stored other, documents_kept _ _, shares_kept _ _⟩
  | setWorkspace own =>
    have other := foreign_id numbered stored foreign (List.mem_of_find?_eq_some fits.1) own
    exact ⟨workspace_set numbered stored other, documents_kept _ _, shares_kept _ _⟩
  | deleteWorkspace own =>
    have other := foreign_id numbered stored foreign (List.mem_of_find?_eq_some fits) own
    exact contained_deleteWorkspace numbered stored other _
  | @addDocument request v new now there _ own inside =>
    have other : new.workspace ≠ ws.id := by
      rw [inside]
      exact foreign_id numbered stored foreign there own
    exact contained_addDocument numbered stored (d := new.row m.nextId now) other
  | @addDocumentWithVersion request v new first now there _ own inside =>
    have other : new.workspace ≠ ws.id := by
      rw [inside]
      exact foreign_id numbered stored foreign there own
    obtain ⟨workspace, documents, shares⟩ :=
      contained_addDocument numbered stored (d := new.row m.nextId now) other
    exact ⟨workspace, documents, shares⟩
  | @setDocument request d v changes now seen present shown entitled _ _ isPublic =>
    refine contained_setDocument (e := d.change changes now) numbered stored present.document rfl
      rfl fun within => ?_
    have unshown : request.isPublic = none := by
      cases shown : request.isPublic with
      | none => rfl
      | some isPublic =>
        rw [shown] at entitled
        exact absurd within (outside present (entitled_manage entitled))
    rw [unshown] at entitled isPublic
    have row : d.change changes now = { d with
        title := changes.title.getD d.title, kind := changes.kind.getD d.kind,
        slug := changes.slug.getD d.slug, updatedAt := now } := by
      simp only [Document.change, isPublic, Option.getD_none]
    rw [row]
    exact .rewritten d ⟨seen, shown, d, v, present, rfl, entitled⟩ _ _ _ _
  | @deleteDocument d v time seen present shown entitled =>
    exact contained_deleteDocument numbered stored present.document
      ⟨seen, shown, _, _, present, rfl, entitled⟩ (deletes _ rfl) _
  | addVersion => exact ⟨kept, documents_kept _ _, shares_kept _ _⟩
  | @addShare request d v new now present own document =>
    have other := not_in_documents numbered present.document (outside present own)
    rw [← document] at other
    exact contained_addShare numbered stored (s := new.row m.nextId now) other
  | @setShare request s d v now present own document =>
    have other := not_in_documents numbered present.document (outside present own)
    exact contained_setShare numbered stored (List.mem_of_find?_eq_some fits) rfl rfl
      (document ▸ other)
  | @deleteShare s d v time present own document =>
    have other := not_in_documents numbered present.document (outside present own)
    exact contained_setShare numbered stored (List.mem_of_find?_eq_some fits) rfl rfl
      (document ▸ other)

end Changes

theorem exists_before {R : α → α → Prop} {l l' : List α} (h : List.Forall₂ R l l') {b : α}
    (hb : b ∈ l') : ∃ a ∈ l, R a b := by
  induction h with
  | nil => cases hb
  | @cons a b' l l' related _ ih =>
    rcases List.mem_cons.mp hb with rfl | hb
    · exact ⟨a, List.mem_cons_self, related⟩
    · obtain ⟨x, hx, holds⟩ := ih hb
      exact ⟨x, List.mem_cons_of_mem _ hx, holds⟩

theorem Edited.before {d d' : Document} (edited : Edited write d d') (live : d'.isLive = true) :
    d.isLive = true ∧ d.id = d'.id ∧ d.isPublic = d'.isPublic := by
  cases edited with
  | kept => exact ⟨live, rfl, rfl⟩
  | rewritten => exact ⟨live, rfl, rfl⟩
  | deleted => exact nomatch live

theorem Dropped.before {s s' : Share} (dropped : Dropped gone s s') (live : s'.deletedAt = none) :
    s = s' := by
  cases dropped with
  | kept => rfl
  | deleted => exact nomatch live

theorem Contained.allowed {m m' : Memory} {ws : Workspace}
    (h : Contained ws write gone m.tables m'.tables) (stored : ws ∈ m.tables.workspaces)
    (numbered : m'.Numbered) {d : Document} (inside : d ∈ documentsIn m.tables ws.id)
    {x : Caller} {kind : Kind} {now : Instant} (allowed : Allowed m'.tables x d.id kind now) :
    Allowed m.tables x d.id kind now := by
  obtain ⟨e, v, present, number, entitled⟩ := allowed
  have listed : d.id ∈ (documentsIn m'.tables ws.id).map Document.id := by
    rw [edited_ids h.documents]
    exact List.mem_map_of_mem inside
  obtain ⟨e', he', same⟩ := List.mem_map.mp listed
  obtain ⟨there, within⟩ := List.mem_filter.mp he'
  obtain rfl := Repository.eq_of_key numbered.documents there present.document
    (same.trans number.symm)
  obtain rfl : v = ws :=
    (h.workspace v).mp ⟨present.workspace, present.inside.symm.trans (beq_iff_eq.mp within)⟩
  obtain ⟨d', hd', edited⟩ := exists_before h.documents he'
  obtain ⟨live, number', isPublic⟩ := edited.before present.documentLive
  obtain ⟨there', within'⟩ := List.mem_filter.mp hd'
  refine ⟨d', v, ⟨there', stored, beq_iff_eq.mp within', live, present.workspaceLive⟩,
    number'.trans same, ?_⟩
  rcases entitled with own | ⟨reading, seen⟩ | ⟨s', hs', on, inForce, enough⟩
  · exact .owner own
  · exact .visible reading (isPublic ▸ seen)
  · have found : s' ∈ sharesIn m'.tables v.id := by
      refine List.mem_filter.mpr ⟨hs', List.contains_iff_mem.mpr ?_⟩
      rw [on]
      exact List.mem_map_of_mem he'
    obtain ⟨s, hs, dropped⟩ := exists_before h.shares found
    obtain rfl := dropped.before inForce.live
    exact .share s (List.mem_filter.mp hs).1 (on.trans number'.symm) inForce enough

variable {c : Conditions} {w w' : World Memory}

theorem ends_contained (numbered : w.store.Numbered) {caller : Caller} {op : Operation}
    {r : Except Failure Answer} (ends : (serve caller op).Ends inMemory c w w' r) {ws : Workspace}
    (stored : ws ∈ w.store.tables.workspaces) (foreign : caller.user ≠ some ws.owner) :
    Contained ws
      (fun id => ∃ now, Shown c w w' now ∧ Allowed w.store.tables caller id .write now)
      (fun id => op = .deleteDocument id ∧ ∃ a, r = .ok a) w.store.tables w'.store.tables := by
  cases r with
  | error e =>
    obtain ⟨used, _, kept⟩ := (serve_whole caller op).kept numbered ends
    rw [kept.tables]
    exact ⟨workspace_kept numbered stored, documents_kept _ _, shares_kept _ _⟩
  | ok a =>
    obtain ⟨m, change, effect⟩ := serve_effect numbered ends
    have same := effect.kept.tables
    have warrant := effect.warrant
    rw [← same] at stored warrant
    have deletes : ∀ id, op = .deleteDocument id →
        op = .deleteDocument id ∧ ∃ b, (.ok a : Except Failure Answer) = .ok b :=
      fun id asked => ⟨asked, a, rfl⟩
    have contained :=
      warrant.contained effect.fits (effect.kept.numbered numbered) stored foreign deletes
    rw [same, ← effect.result] at contained
    exact contained

/-- Whatever a caller asks for, a workspace of someone else keeps its row, gets no document, and
loses documents, or has them rewritten, only where the caller may write them at a moment of the
operation; their shares go only when the caller deletes their document. So nobody may do more to a
document of the workspace than before. -/
theorem serve_contained (reached : Reachable w.store) (c : Conditions) (caller : Caller)
    (op : Operation) {ws : Workspace} (stored : ws ∈ w.store.tables.workspaces)
    (foreign : caller.user ≠ some ws.owner) :
    let out := (serve caller op).run inMemory c w
    let t := w.store.tables
    let t' := out.1.store.tables
    Contained ws (fun id => ∃ now, Shown c w out.1 now ∧ Allowed t caller id .write now)
      (fun id => op = .deleteDocument id ∧ ∃ a, out.2.1 = .ok a) t t' ∧
    ∀ d ∈ documentsIn t ws.id, ∀ x kind now,
      Allowed t' x d.id kind now → Allowed t x d.id kind now := by
  intro out t t'
  have ends := ends_run (s := inMemory) (c := c) (serve caller op) w
  have contained := ends_contained reached.numbered ends stored foreign
  refine ⟨contained, fun d inside x kind now allowed => ?_⟩
  exact contained.allowed stored (ends_numbered ends reached.numbered) inside allowed

/-- User 2, who presents the token of the sample's share, deletes the document of user 1, and opens
nothing to anyone by it. -/
theorem sample_contained :
    let caller : Caller := ⟨some 2, some "a"⟩
    let out := (serve caller (.deleteDocument 2)).run inMemory steady sample
    ∃ ws ∈ sample.store.tables.workspaces, caller.user ≠ some ws.owner ∧
      (∀ d ∈ documentsIn out.1.store.tables ws.id, d.isLive = false) ∧
      (∀ v, v ∈ out.1.store.tables.workspaces ∧ v.id = ws.id ↔ v = ws) ∧
      ∀ d ∈ documentsIn sample.store.tables ws.id, ∀ x kind now,
        Allowed out.1.store.tables x d.id kind now → Allowed sample.store.tables x d.id kind now := by
  intro caller out
  have theirs : ∃ ws ∈ sample.store.tables.workspaces, caller.user ≠ some ws.owner ∧
      ∀ d ∈ documentsIn out.1.store.tables ws.id, d.isLive = false := by decide +kernel
  obtain ⟨ws, stored, foreign, deleted⟩ := theirs
  obtain ⟨contained, access⟩ := serve_contained sample_reachable steady caller
    (.deleteDocument 2) stored foreign
  exact ⟨ws, stored, foreign, deleted, contained.workspace, access⟩

end DiagramShare.Service
