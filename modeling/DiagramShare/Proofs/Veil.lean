import DiagramShare.Proofs.Twin

/-! What a caller does not see of a store. A veil hides the texts of some workspaces and of their
documents, the versions of these documents, and the tokens of some shares. Two stores that differ
only behind a veil answer alike what does not reach behind it. -/
namespace DiagramShare

open DiagramShare.Time (Instant)
open List (Forall₂)

structure Veil where
  user : Option Int
  shut : Int → Bool
  closed : Int → Bool
  secret : Int → Prop
  known : String → Prop

variable {V : Veil}

inductive Workspace.Veiled (V : Veil) (w : Workspace) : Workspace → Prop where
  | same : w.Veiled V w
  | text (shut : V.shut w.id = true) (name : String) (description : Option String) :
      w.Veiled V { w with name := name, description := description }

inductive Document.Veiled (V : Veil) (d : Document) : Document → Prop where
  | same : d.Veiled V d
  | text (closed : V.closed d.id = true) (title : String) (kind : DocumentKind) (slug : String) :
      d.Veiled V { d with title := title, kind := kind, slug := slug }

inductive Share.Veiled (V : Veil) (s : Share) : Share → Prop where
  | same : s.Veiled V s
  | token (secret : V.secret s.document) (token : String) (hidden : ¬ V.known s.token)
      (hidden' : ¬ V.known token) : s.Veiled V { s with token := token }

namespace Workspace.Veiled

variable {w w' : Workspace}

theorem id (h : w.Veiled V w') : w'.id = w.id := by cases h <;> rfl
theorem owner (h : w.Veiled V w') : w'.owner = w.owner := by cases h <;> rfl
theorem isPublic (h : w.Veiled V w') : w'.isPublic = w.isPublic := by cases h <;> rfl
theorem live (h : w.Veiled V w') : w'.isLive = w.isLive := by cases h <;> rfl

theorem eq (h : w.Veiled V w') (seen : V.shut w.id = false) : w' = w := by
  cases h with
  | same => rfl
  | text shut => cases seen.symm.trans shut

theorem tombstone (h : w.Veiled V w') (time : Instant) :
    (w.tombstone time).Veiled V (w'.tombstone time) := by
  cases h with
  | same => exact .same
  | text shut name description => exact .text (w := w.tombstone time) shut name description

end Workspace.Veiled

namespace Document.Veiled

variable {d d' : Document}

theorem id (h : d.Veiled V d') : d'.id = d.id := by cases h <;> rfl
theorem workspace (h : d.Veiled V d') : d'.workspace = d.workspace := by cases h <;> rfl
theorem isPublic (h : d.Veiled V d') : d'.isPublic = d.isPublic := by cases h <;> rfl
theorem live (h : d.Veiled V d') : d'.isLive = d.isLive := by cases h <;> rfl

theorem eq (h : d.Veiled V d') (seen : V.closed d.id = false) : d' = d := by
  cases h with
  | same => rfl
  | text closed => cases seen.symm.trans closed

theorem tombstone (h : d.Veiled V d') (time : Instant) :
    (d.tombstone time).Veiled V (d'.tombstone time) := by
  cases h with
  | same => exact .same
  | text closed title kind slug => exact .text (d := d.tombstone time) closed title kind slug

end Document.Veiled

namespace Share.Veiled

variable {s s' : Share}

theorem id (h : s.Veiled V s') : s'.id = s.id := by cases h <;> rfl
theorem document (h : s.Veiled V s') : s'.document = s.document := by cases h <;> rfl
theorem user (h : s.Veiled V s') : s'.user = s.user := by cases h <;> rfl
theorem permission (h : s.Veiled V s') : s'.permission = s.permission := by cases h <;> rfl
theorem expiresAt (h : s.Veiled V s') : s'.expiresAt = s.expiresAt := by cases h <;> rfl
theorem live (h : s.Veiled V s') : s'.isLive = s.isLive := by cases h <;> rfl

theorem eq (h : s.Veiled V s') (seen : ¬ V.secret s.document) : s' = s := by
  cases h with
  | same => rfl
  | token secret => exact absurd secret seen

theorem beq (h : s.Veiled V s') {token : String} (known : V.known token) :
    (s'.token == token) = (s.token == token) := by
  cases h with
  | same => rfl
  | token _ other hidden hidden' =>
    have here : (s.token == token) = false := by
      rw [beq_eq_false_iff_ne]
      rintro rfl
      exact hidden known
    have there : (other == token) = false := by
      rw [beq_eq_false_iff_ne]
      rintro rfl
      exact hidden' known
    rw [here, there]

theorem tombstone (h : s.Veiled V s') (time : Instant) :
    (s.tombstone time).Veiled V (s'.tombstone time) := by
  cases h with
  | same => exact .same
  | token secret other hidden hidden' =>
    exact .token (s := s.tombstone time) secret other hidden hidden'

end Share.Veiled

namespace Repository

section Seen

variable {R : α → α → Prop} {rows rows' : List α} {p : α → Bool}

theorem filter_seen (h : Forall₂ R rows rows')
    (seen : ∀ a b, R a b → p a = true ∨ p b = true → b = a) : rows'.filter p = rows.filter p := by
  induction h with
  | nil => rfl
  | @cons a b _ _ r _ ih =>
    by_cases picked : p a = true ∨ p b = true
    · rw [seen a b r picked, List.filter_cons, List.filter_cons, ih]
    · obtain ⟨left, right⟩ := not_or.mp picked
      rw [List.filter_cons_of_neg left, List.filter_cons_of_neg right, ih]

theorem find_seen (h : Forall₂ R rows rows')
    (seen : ∀ a b, R a b → p a = true ∨ p b = true → b = a) : rows'.find? p = rows.find? p := by
  rw [← List.head?_filter, ← List.head?_filter, filter_seen h seen]

theorem any_seen (h : Forall₂ R rows rows')
    (seen : ∀ a b, R a b → p a = true ∨ p b = true → b = a) : rows'.any p = rows.any p := by
  rw [Bool.eq_iff_iff, List.any_eq_true, List.any_eq_true]
  simp only [← List.mem_filter, filter_seen h seen]

theorem listed_twin (h : Forall₂ R rows rows') :
    Forall₂ (fun a b => a ∈ rows ∧ R a b) rows rows' :=
  (List.forall₂_and_left rows rows').mpr ⟨fun _ listed => listed, h⟩

end Seen

/-- Which rows a veil hides something of. The caller owns no workspace that is shut, and the
documents that are closed are those in shut workspaces. -/
structure Over (V : Veil) (t : Tables) : Prop where
  rooms : ∀ id, V.shut id = true → ∃ w ∈ t.workspaces, w.id = id
  files : ∀ id, V.closed id = true → ∃ d ∈ t.documents, d.id = id
  inside : ∀ d ∈ t.documents, V.closed d.id = V.shut d.workspace
  foreign : ∀ w ∈ t.workspaces, V.shut w.id = true → V.user ≠ some w.owner
  others : ∀ id, V.secret id → ∃ d ∈ t.documents, ∃ w ∈ t.workspaces, d.id = id ∧
    d.workspace = w.id ∧ V.user ≠ some w.owner

theorem mem_of_places {rows rows' : List α} {place : α → κ}
    (same : rows'.map place = rows.map place) {r : α} (hr : r ∈ rows) :
    ∃ r' ∈ rows', place r' = place r := by
  have placed : place r ∈ rows'.map place := same ▸ List.mem_map_of_mem hr
  exact List.mem_map.mp placed

theorem Over.of_places {t t' : Tables} (hides : Over V t)
    (ws : t'.workspaces.map (fun w => (w.id, w.owner)) = t.workspaces.map fun w => (w.id, w.owner))
    (ds : t'.documents.map (fun d => (d.id, d.workspace)) =
      t.documents.map fun d => (d.id, d.workspace)) : Over V t' := by
  constructor
  · intro id shut
    obtain ⟨w, hw, rfl⟩ := hides.rooms id shut
    obtain ⟨w', hw', same⟩ := mem_of_places ws hw
    exact ⟨w', hw', congrArg Prod.fst same⟩
  · intro id closed
    obtain ⟨d, hd, rfl⟩ := hides.files id closed
    obtain ⟨d', hd', same⟩ := mem_of_places ds hd
    exact ⟨d', hd', congrArg Prod.fst same⟩
  · intro d' hd'
    obtain ⟨d, hd, same⟩ := mem_of_places ds.symm hd'
    obtain ⟨id, workspace⟩ := Prod.mk.inj same
    rw [← id, ← workspace]
    exact hides.inside d hd
  · intro w' hw' shut
    obtain ⟨w, hw, same⟩ := mem_of_places ws.symm hw'
    obtain ⟨id, owner⟩ := Prod.mk.inj same
    rw [← owner]
    exact hides.foreign w hw (id ▸ shut)
  · intro id secret
    obtain ⟨d, hd, w, hw, rfl, inside, foreign⟩ := hides.others id secret
    obtain ⟨d', hd', place⟩ := mem_of_places ds hd
    obtain ⟨w', hw', place'⟩ := mem_of_places ws hw
    obtain ⟨number, workspace⟩ := Prod.mk.inj place
    obtain ⟨id', owner⟩ := Prod.mk.inj place'
    refine ⟨d', hd', w', hw', number, ?_, owner ▸ foreign⟩
    rw [workspace, inside, id']

structure Tables.Veiled (V : Veil) (t t' : Tables) : Prop where
  workspaces : Forall₂ (Workspace.Veiled V) t.workspaces t'.workspaces
  documents : Forall₂ (Document.Veiled V) t.documents t'.documents
  versions : t'.versions.filter (fun v => !V.closed v.document) =
    t.versions.filter fun v => !V.closed v.document
  shares : Forall₂ (Share.Veiled V) t.shares t'.shares
  hides : Over V t

namespace Tables.Veiled

variable {t t' : Tables} {id : Int}

theorem workspace (h : t.Veiled V t') (id : Int) :
    Option.Rel (Workspace.Veiled V) (t.workspace? id) (t'.workspace? id) :=
  find_twin h.workspaces fun _ _ r => by rw [r.id, r.live]

theorem anyWorkspace (h : t.Veiled V t') (id : Int) :
    Option.Rel (Workspace.Veiled V) (t.anyWorkspace? id) (t'.anyWorkspace? id) :=
  find_twin h.workspaces fun _ _ r => by rw [r.id]

theorem document (h : t.Veiled V t') (id : Int) :
    Option.Rel (Document.Veiled V) (t.document? id) (t'.document? id) :=
  find_twin h.documents fun _ _ r => by rw [r.id, r.live]

theorem share (h : t.Veiled V t') (id : Int) :
    Option.Rel (Share.Veiled V) (t.share? id) (t'.share? id) :=
  find_twin h.shares fun _ _ r => by rw [r.id, r.live]

theorem own_workspace (h : t.Veiled V t') {owner : Int} (own : V.user = some owner) :
    Forall₂ (fun w w' => w'.owner = w.owner ∧ (w.owner = owner → w' = w)) t.workspaces
      t'.workspaces := by
  refine (listed_twin h.workspaces).imp fun w w' ⟨stored, r⟩ => ⟨r.owner, fun mine => ?_⟩
  refine r.eq ?_
  by_contra shut
  exact h.hides.foreign w stored (Bool.not_eq_false _ ▸ shut) (mine ▸ own)

theorem owned (h : t.Veiled V t') {owner : Int} (own : V.user = some owner) :
    t'.owned owner = t.owned owner := by
  refine filter_seen (h.own_workspace own) fun w w' ⟨same, mine⟩ picked => mine ?_
  simp only [Bool.and_eq_true, beq_iff_eq, same] at picked
  rcases picked with picked | picked <;> exact picked.1

theorem nameExists (h : t.Veiled V t') {owner : Int} (own : V.user = some owner) (name : String)
    (except : Option Int) : t'.nameExists owner name except = t.nameExists owner name except := by
  refine any_seen (h.own_workspace own) fun w w' ⟨same, mine⟩ picked => mine ?_
  simp only [Bool.and_eq_true, beq_iff_eq, same] at picked
  rcases picked with picked | picked <;> exact picked.1.1.2

theorem open_document (h : t.Veiled V t') {workspace : Int} (seen : V.shut workspace = false) :
    Forall₂ (fun d d' => d'.workspace = d.workspace ∧ (d.workspace = workspace → d' = d))
      t.documents t'.documents := by
  refine (listed_twin h.documents).imp fun d d' ⟨stored, r⟩ => ⟨r.workspace, fun inside => ?_⟩
  exact r.eq ((h.hides.inside d stored).trans (inside ▸ seen))

theorem documentsOf (h : t.Veiled V t') {workspace : Int} (seen : V.shut workspace = false) :
    t'.documentsOf workspace = t.documentsOf workspace := by
  refine filter_seen (h.open_document seen) fun d d' ⟨same, inside⟩ picked => inside ?_
  simp only [Bool.and_eq_true, beq_iff_eq, same] at picked
  rcases picked with picked | picked <;> exact picked.1

theorem slugExists (h : t.Veiled V t') {workspace : Int} (seen : V.shut workspace = false)
    (slug : String) (except : Option Int) :
    t'.slugExists workspace slug except = t.slugExists workspace slug except := by
  refine any_seen (h.open_document seen) fun d d' ⟨same, inside⟩ picked => inside ?_
  simp only [Bool.and_eq_true, beq_iff_eq, same] at picked
  rcases picked with picked | picked <;> exact picked.1.1.2

theorem versionsOf (h : t.Veiled V t') (seen : V.closed id = false) :
    t'.versionsOf id = t.versionsOf id := by
  have open_ : ∀ versions : List Version, versions.filter (fun v => v.document == id) =
      (versions.filter fun v => !V.closed v.document).filter fun v => v.document == id := by
    intro versions
    rw [List.filter_filter]
    refine List.filter_congr fun v _ => ?_
    by_cases here : v.document = id
    · simp [here, seen]
    · simp [here]
  rw [Tables.versionsOf, Tables.versionsOf, open_, h.versions, ← open_]

theorem version (h : t.Veiled V t') (seen : V.closed id = false) (number : Int) :
    t'.version? id number = t.version? id number := by
  rw [Service.version_eq_find, Service.version_eq_find, h.versionsOf seen]

theorem lastNumber (h : t.Veiled V t') (seen : V.closed id = false) :
    t'.lastNumber id = t.lastNumber id := by
  rw [Tables.lastNumber, Tables.lastNumber, h.versionsOf seen]

theorem latestVersion (h : t.Veiled V t') (seen : V.closed id = false) :
    t'.latestVersion? id = t.latestVersion? id := by
  rw [Tables.latestVersion?, Tables.latestVersion?, h.versionsOf seen, h.lastNumber seen]

theorem sharesOf (h : t.Veiled V t') (seen : ¬ V.secret id) : t'.sharesOf id = t.sharesOf id := by
  refine filter_seen h.shares fun s s' r picked => r.eq ?_
  simp only [Bool.and_eq_true, beq_iff_eq, r.document] at picked
  rcases picked with picked | picked <;> exact picked.1 ▸ seen

theorem shareForUser (h : t.Veiled V t') (seen : ¬ V.secret id) (user : Int) :
    t'.shareForUser? id user = t.shareForUser? id user := by
  refine find_seen h.shares fun s s' r picked => r.eq ?_
  simp only [Bool.and_eq_true, beq_iff_eq, r.document] at picked
  rcases picked with picked | picked <;> exact picked.1.2 ▸ seen

theorem grants (h : t.Veiled V t') (id : Int) (user : Option Int) {token : Option String}
    (known : ∀ shown ∈ token, V.known shown) :
    Forall₂ (Share.Veiled V) (t.grants id user token) (t'.grants id user token) := by
  have live : Forall₂ (Share.Veiled V) (t.sharesOf id) (t'.sharesOf id) :=
    filter_twin h.shares fun _ _ r => by rw [r.document, r.live]
  refine filter_twin live fun s s' r => ?_
  rw [r.user]
  cases token with
  | none => rfl
  | some shown =>
    have seen := r.beq (known shown rfl)
    simp only [Option.some_beq_some, Bool.beq_comm (a := shown), seen]

theorem tokenExists (h : t.Veiled V t') {token : String} (known : V.known token) :
    t'.tokenExists token = t.tokenExists token :=
  any_twin h.shares fun _ _ r => (r.beq known).symm

theorem setWorkspace (h : t.Veiled V t') (distinct : (t.workspaces.map Workspace.id).Nodup)
    {w row row' : Workspace} (rows : row.Veiled V row') (stored : w ∈ t.workspaces)
    (id : row.id = w.id) (owner : row.owner = w.owner) :
    (t.setWorkspace row).Veiled V (t'.setWorkspace row') := by
  have ws : (t.setWorkspace row).workspaces.map (fun w => (w.id, w.owner)) =
      t.workspaces.map fun w => (w.id, w.owner) := by
    refine map_updateWhere fun v hv same => ?_
    have here : v = w := eq_of_key distinct hv stored ((beq_iff_eq.mp same).trans id)
    rw [id, owner, here]
  constructor
  · exact updateWhere_twin h.workspaces (fun _ _ r => by rw [r.id, rows.id]) (fun _ _ _ _ => rows)
      fun _ _ r _ => r
  · exact h.documents
  · exact h.versions
  · exact h.shares
  · exact h.hides.of_places ws rfl

theorem setDocument (h : t.Veiled V t') (distinct : (t.documents.map Document.id).Nodup)
    {d row row' : Document} (rows : row.Veiled V row') (stored : d ∈ t.documents)
    (id : row.id = d.id) (workspace : row.workspace = d.workspace) :
    (t.setDocument row).Veiled V (t'.setDocument row') := by
  have ds : (t.setDocument row).documents.map (fun d => (d.id, d.workspace)) =
      t.documents.map fun d => (d.id, d.workspace) := by
    refine map_updateWhere fun e he same => ?_
    have here : e = d := eq_of_key distinct he stored ((beq_iff_eq.mp same).trans id)
    rw [id, workspace, here]
  constructor
  · exact h.workspaces
  · exact updateWhere_twin h.documents (fun _ _ r => by rw [r.id, rows.id]) (fun _ _ _ _ => rows)
      fun _ _ r _ => r
  · exact h.versions
  · exact h.shares
  · exact h.hides.of_places rfl ds

theorem setShare (h : t.Veiled V t') {row row' : Share} (rows : row.Veiled V row') :
    (t.setShare row).Veiled V (t'.setShare row') :=
  { h with
    shares := updateWhere_twin h.shares (fun _ _ r => by rw [r.id, rows.id]) (fun _ _ _ _ => rows)
      fun _ _ r _ => r
    hides := h.hides.of_places rfl rfl }

theorem deleteDocumentsOf (h : t.Veiled V t') (workspace : Int) (time : Instant) :
    (t.deleteDocumentsOf workspace time).Veiled V (t'.deleteDocumentsOf workspace time) :=
  { h with
    documents := updateWhere_twin h.documents (fun _ _ r => by rw [r.workspace, r.live])
      (fun _ _ r _ => r.tombstone time) fun _ _ r _ => r
    hides := h.hides.of_places rfl (map_updateWhere fun _ _ _ => rfl) }

theorem deleteSharesOf (h : t.Veiled V t') (documents : List Int) (time : Instant) :
    (t.deleteSharesOf documents time).1.Veiled V (t'.deleteSharesOf documents time).1 ∧
      (t'.deleteSharesOf documents time).2 = (t.deleteSharesOf documents time).2 := by
  have hits : ∀ s s' : Share, s.Veiled V s' → (documents.contains s.document && s.isLive) =
      (documents.contains s'.document && s'.isLive) := by
    intro s s' r
    rw [r.document, r.live]
  constructor
  · exact { h with
      shares := updateWhere_twin h.shares hits (fun _ _ r _ => r.tombstone time) fun _ _ r _ => r
      hides := h.hides.of_places rfl rfl }
  · exact countP_twin h.shares hits

theorem addWorkspace (h : t.Veiled V t') {w : Workspace} (fresh : w.id ∉ t.ids) :
    (t.addWorkspace w).Veiled V (t'.addWorkspace w) := by
  have added : ∀ v ∈ t.workspaces, v ∈ (t.addWorkspace w).workspaces :=
    fun v hv => List.mem_append_left _ hv
  refine { h with workspaces := snoc_twin h.workspaces .same, hides := ?_ }
  obtain ⟨rooms, files, inside, foreign, others⟩ := h.hides
  constructor
  · intro id shut
    obtain ⟨v, hv, number⟩ := rooms id shut
    exact ⟨v, added v hv, number⟩
  · exact files
  · exact inside
  · intro v hv shut
    rcases List.mem_append.mp hv with hv | hv
    · exact foreign v hv shut
    · cases List.mem_singleton.mp hv
      obtain ⟨v, hv, number⟩ := rooms _ shut
      exact absurd (number ▸ Tables.workspace_mem_ids hv) fresh
  · intro id secret
    obtain ⟨d, hd, v, hv, placed⟩ := others id secret
    exact ⟨d, hd, v, added v hv, placed⟩

theorem addDocument (h : t.Veiled V t') {d : Document} (fresh : d.id ∉ t.ids)
    (seen : V.shut d.workspace = false) :
    V.closed d.id = false ∧ (t.addDocument d).Veiled V (t'.addDocument d) := by
  have added : ∀ e ∈ t.documents, e ∈ (t.addDocument d).documents :=
    fun e he => List.mem_append_left _ he
  obtain ⟨rooms, files, inside, foreign, others⟩ := h.hides
  have open_ : V.closed d.id = false := by
    by_contra closed
    obtain ⟨e, he, number⟩ := files d.id (Bool.not_eq_false _ ▸ closed)
    exact fresh (number ▸ Tables.document_mem_ids he)
  refine ⟨open_, { h with documents := snoc_twin h.documents .same, hides := ?_ }⟩
  constructor
  · exact rooms
  · intro id closed
    obtain ⟨e, he, number⟩ := files id closed
    exact ⟨e, added e he, number⟩
  · intro e he
    rcases List.mem_append.mp he with he | he
    · exact inside e he
    · cases List.mem_singleton.mp he
      rw [open_, seen]
  · exact foreign
  · intro id secret
    obtain ⟨e, he, w, hw, placed⟩ := others id secret
    exact ⟨e, added e he, w, hw, placed⟩

theorem addVersion (h : t.Veiled V t') (v : Version) :
    (t.addVersion v).Veiled V (t'.addVersion v) := by
  have rows := h.versions
  refine { h with versions := ?_, hides := h.hides.of_places rfl rfl }
  simp only [Tables.addVersion, List.filter_append, rows]

theorem addShare (h : t.Veiled V t') (s : Share) : (t.addShare s).Veiled V (t'.addShare s) :=
  { h with shares := snoc_twin h.shares .same, hides := h.hides.of_places rfl rfl }

end Tables.Veiled

section Rows

variable {R : α → α → Prop} {row row' : Option α}

theorem rel_cases (rows : Option.Rel R row row') :
    (row = none ∧ row' = none) ∨ ∃ r r', row = some r ∧ row' = some r' ∧ R r r' := by
  cases rows with
  | none => exact .inl ⟨rfl, rfl⟩
  | some r => exact .inr ⟨_, _, rfl, rfl, r⟩

theorem isNone_rel (rows : Option.Rel R row row') : row'.isNone = row.isNone := by
  cases rows <;> rfl

end Rows

/-- Stores that differ only behind a veil. -/
structure Memory.Veiled (V : Veil) (m m' : Memory) : Prop where
  lastId : m'.lastId = m.lastId
  users : ∀ user, user ∈ m'.users ↔ user ∈ m.users
  failVersions : m'.failVersions = m.failVersions
  tables : m.tables.Veiled V m'.tables

structure Evenly (V : Veil) (x y : Memory × Except Failure α) : Prop where
  answer : y.2 = x.2
  veiled : x.1.Veiled V y.1

theorem Evenly.cases {x y : Memory × Except Failure α} (h : Evenly V x y) :
    (∃ e m m', x = (m, .error e) ∧ y = (m', .error e) ∧ m.Veiled V m') ∨
    ∃ a m m', x = (m, .ok a) ∧ y = (m', .ok a) ∧ m.Veiled V m' := by
  obtain ⟨m, r⟩ := x
  obtain ⟨m', r'⟩ := y
  obtain ⟨rfl, veiled⟩ := h
  cases r' with
  | error e => exact .inl ⟨e, m, m', rfl, rfl, veiled⟩
  | ok a => exact .inr ⟨a, m, m', rfl, rfl, veiled⟩

namespace Memory.Veiled

variable {m m' : Memory} {now : Instant}

theorem createDocument_ok {new : NewDocument} {d : Document}
    (h : Memory.createDocument new now m = (m', .ok d)) :
    (Change.addDocument new now).on m = m' ∧ new.row m.nextId now = d := by
  rcases createDocument_cases new now m with ⟨e, he⟩ | ⟨_, hok⟩
  · cases he.symm.trans h
  · cases hok.symm.trans h
    exact ⟨rfl, rfl⟩

theorem createNextVersion_error {new : NewVersion} {e : Failure}
    (h : Memory.createNextVersion new now m = (m', .error e)) : m = m' := by
  rcases createNextVersion_cases new now m with ⟨e, he⟩ | ⟨_, hok⟩
  · cases he.symm.trans h
    rfl
  · cases hok.symm.trans h

theorem contains (h : m.Veiled V m') (user : Int) :
    m'.users.contains user = m.users.contains user := by
  rw [List.contains_eq_mem, List.contains_eq_mem, decide_eq_decide]
  exact h.users user

theorem nextId (h : m.Veiled V m') : m'.nextId = m.nextId := by
  rw [Memory.nextId, Memory.nextId, h.lastId]

theorem withTables (h : m.Veiled V m') {t t' : Tables} (tables : t.Veiled V t') :
    ({ m with tables := t } : Memory).Veiled V { m' with tables := t' } :=
  ⟨h.lastId, h.users, h.failVersions, tables⟩

theorem take (h : m.Veiled V m') {t t' : Tables} (tables : t.Veiled V t') :
    (m.take t).Veiled V (m'.take t') :=
  ⟨congrArg (· + 1) h.lastId, h.users, h.failVersions, tables⟩

theorem refused (h : m.Veiled V m') (e : Failure) :
    Evenly (α := α) V (m, .error e) (m', .error e) := ⟨rfl, h⟩

theorem read (h : m.Veiled V m') {call : Call α} {f : Tables → Except Failure α}
    (reads : Memory.answer now call = Memory.read f) (same : f m'.tables = f m.tables) :
    Evenly V (Memory.answer now call m) (Memory.answer now call m') := by
  rw [reads]
  exact ⟨same, h⟩

theorem ensureUser (h : m.Veiled V m') (user : Int) :
    Evenly V (Memory.ensureUser user m) (Memory.ensureUser user m') := by
  refine ⟨rfl, ?_⟩
  simp only [Memory.ensureUser, h.contains]
  split
  · exact h
  · refine ⟨h.lastId, fun u => ?_, h.failVersions, h.tables⟩
    simp only [List.mem_append, h.users]

theorem createWorkspace (h : m.Veiled V m') (numbered : m.Numbered) {new : NewWorkspace}
    (own : V.user = some new.owner) :
    Evenly V (Memory.createWorkspace new now m) (Memory.createWorkspace new now m') := by
  simp only [Memory.createWorkspace, h.contains, h.tables.nameExists own, h.nextId]
  split
  · exact h.refused _
  · split
    · exact h.refused _
    · exact ⟨rfl, h.take (h.tables.addWorkspace numbered.nextId_fresh)⟩

theorem updateWorkspace (h : m.Veiled V m') (numbered : m.Numbered) {id : Int}
    (own : ∀ w ∈ m.tables.workspaces, w.id = id → V.user = some w.owner)
    (changes : WorkspaceChanges) :
    Evenly V (Memory.updateWorkspace id changes now m)
      (Memory.updateWorkspace id changes now m') := by
  simp only [Memory.updateWorkspace]
  rcases rel_cases (h.tables.workspace id) with ⟨gone, gone'⟩ | ⟨w, w', found, found', r⟩
  · rw [gone, gone']
    exact h.refused _
  · obtain ⟨stored, number, _⟩ := numbered.workspace_iff.mp found
    have mine := own w stored number
    have seen : V.shut w.id = false := by
      by_contra shut
      exact h.tables.hides.foreign w stored (Bool.not_eq_false _ ▸ shut) mine
    rw [found, found', r.eq seen]
    simp only [h.tables.nameExists mine]
    split
    · exact h.refused _
    · exact ⟨rfl, h.withTables
        (h.tables.setWorkspace numbered.workspaces .same stored rfl rfl)⟩

theorem deleteWorkspace (h : m.Veiled V m') (numbered : m.Numbered) (id : Int) (time : Instant) :
    Evenly V (Memory.deleteWorkspace id time m) (Memory.deleteWorkspace id time m') := by
  simp only [Memory.deleteWorkspace, Tables.deleteWorkspace]
  rcases rel_cases (h.tables.workspace id) with ⟨gone, gone'⟩ | ⟨w, w', found, found', r⟩
  · rw [gone, gone']
    exact h.refused _
  · obtain ⟨stored, _⟩ := numbered.workspace_iff.mp found
    have hit : Forall₂ (Document.Veiled V) (m.tables.documentsOf id) (m'.tables.documentsOf id) :=
      filter_twin h.tables.documents fun _ _ d => by rw [d.workspace, d.live]
    have ids : (m'.tables.documentsOf id).map Document.id =
        (m.tables.documentsOf id).map Document.id := map_twin hit fun _ _ d => d.id
    have emptied := ((h.tables.setWorkspace numbered.workspaces (r.tombstone time)
      stored rfl rfl).deleteDocumentsOf id time).deleteSharesOf
        ((m.tables.documentsOf id).map Document.id) time
    rw [found, found']
    simp only [ids, emptied.2, hit.length_eq]
    exact ⟨rfl, h.withTables emptied.1⟩

theorem createDocument (h : m.Veiled V m') (numbered : m.Numbered) {new : NewDocument}
    (seen : V.shut new.workspace = false) :
    Evenly V (Memory.createDocument new now m) (Memory.createDocument new now m') := by
  simp only [Memory.createDocument, isNone_rel (h.tables.anyWorkspace _),
    h.tables.slugExists seen, h.nextId]
  split
  · exact h.refused _
  · split
    · exact h.refused _
    · exact ⟨rfl, h.take (h.tables.addDocument numbered.nextId_fresh seen).2⟩

theorem createNextVersion (h : m.Veiled V m') {new : NewVersion}
    (seen : V.closed new.document = false) :
    Evenly V (Memory.createNextVersion new now m) (Memory.createNextVersion new now m') := by
  simp only [Memory.createNextVersion, h.failVersions, isNone_rel (h.tables.document _), h.contains,
    h.tables.lastNumber seen, h.nextId]
  split
  · exact h.refused _
  · split
    · exact h.refused _
    · split
      · exact h.refused _
      · exact ⟨rfl, h.take (h.tables.addVersion _)⟩

theorem createDocumentWithVersion (h : m.Veiled V m') (numbered : m.Numbered)
    (numbered' : m'.Numbered) {new : NewDocument} (seen : V.shut new.workspace = false)
    (first : Option FirstVersion) :
    Evenly V (Memory.createDocumentWithVersion new first now m)
      (Memory.createDocumentWithVersion new first now m') := by
  have made : Evenly V (Memory.createDocument new now m) (Memory.createDocument new now m') :=
    h.createDocument numbered seen
  rcases made.cases with ⟨e, n, n', he, he', veiled⟩ | ⟨d, n, n', hd, hd', veiled⟩
  · simp only [Memory.createDocumentWithVersion, he, he']
    exact ⟨rfl, veiled⟩
  obtain ⟨rfl, rfl⟩ := createDocument_ok hd
  obtain ⟨rfl, _⟩ := createDocument_ok hd'
  cases first with
  | none =>
    simp only [Memory.createDocumentWithVersion, hd, hd']
    exact ⟨rfl, veiled⟩
  | some f =>
    have open_ : V.closed (new.row m.nextId now).id = false :=
      (h.tables.addDocument (d := new.row m.nextId now) numbered.nextId_fresh seen).1
    have stored : Evenly V (Memory.createNextVersion (f.of (new.row m.nextId now).id) now
          ((Change.addDocument new now).on m))
        (Memory.createNextVersion (f.of (new.row m.nextId now).id) now
          ((Change.addDocument new now).on m')) := veiled.createNextVersion open_
    rcases stored.cases with ⟨e, n, n', he, he', _⟩ | ⟨v, n, n', hv, hv', veiled⟩
    · obtain rfl := createNextVersion_error he
      obtain rfl := createNextVersion_error he'
      have undone := dropDocument_addDocument numbered (new.row m.nextId now) rfl
      have undone' := dropDocument_addDocument numbered' (new.row m'.nextId now) rfl
      rw [h.nextId] at undone'
      simp only [Memory.createDocumentWithVersion, hd, hd', he, he']
      refine ⟨rfl, ?_⟩
      simp only [Change.on, Memory.take, h.nextId, undone, undone']
      exact h.take h.tables
    · simp only [Memory.createDocumentWithVersion, hd, hd', hv, hv']
      exact ⟨rfl, veiled⟩

theorem updateDocument (h : m.Veiled V m') (numbered : m.Numbered) {id : Int}
    (seen : V.closed id = false) (changes : DocumentChanges) :
    Evenly V (Memory.updateDocument id changes now m)
      (Memory.updateDocument id changes now m') := by
  simp only [Memory.updateDocument]
  rcases rel_cases (h.tables.document id) with ⟨gone, gone'⟩ | ⟨d, d', found, found', r⟩
  · rw [gone, gone']
    exact h.refused _
  · obtain ⟨stored, rfl, _⟩ := numbered.document_iff.mp found
    have inside : V.shut d.workspace = false := (h.tables.hides.inside d stored).symm.trans seen
    rw [found, found', r.eq seen]
    simp only [h.tables.slugExists inside]
    split
    · exact h.refused _
    · exact ⟨rfl, h.withTables (h.tables.setDocument numbered.documents .same stored rfl rfl)⟩

theorem deleteDocument (h : m.Veiled V m') (numbered : m.Numbered) (id : Int) (time : Instant) :
    Evenly V (Memory.deleteDocument id time m) (Memory.deleteDocument id time m') := by
  simp only [Memory.deleteDocument, Tables.deleteDocument]
  rcases rel_cases (h.tables.document id) with ⟨gone, gone'⟩ | ⟨d, d', found, found', r⟩
  · rw [gone, gone']
    exact h.refused _
  · obtain ⟨stored, _⟩ := numbered.document_iff.mp found
    have emptied := (h.tables.setDocument numbered.documents (r.tombstone time)
      stored rfl rfl).deleteSharesOf [id] time
    rw [found, found']
    simp only [emptied.2]
    exact ⟨rfl, h.withTables emptied.1⟩

theorem createShare (h : m.Veiled V m') {new : NewShare} (seen : ¬ V.secret new.document)
    (known : V.known new.token) :
    Evenly V (Memory.createShare new now m) (Memory.createShare new now m') := by
  simp only [Memory.createShare, Memory.shareRefusal?, h.contains, h.tables.shareForUser seen,
    h.tables.tokenExists known, h.nextId]
  split
  · exact h.refused _
  · exact ⟨rfl, h.take (h.tables.addShare _)⟩

theorem updateShare (h : m.Veiled V m') {id : Int}
    (seen : ∀ s, m.tables.share? id = some s → ¬ V.secret s.document) (changes : ShareChanges) :
    Evenly V (Memory.updateShare id changes now m) (Memory.updateShare id changes now m') := by
  simp only [Memory.updateShare]
  rcases rel_cases (h.tables.share id) with ⟨gone, gone'⟩ | ⟨s, s', found, found', r⟩
  · rw [gone, gone']
    exact h.refused _
  · rw [found, found', r.eq (seen s found)]
    exact ⟨rfl, h.withTables (h.tables.setShare .same)⟩

theorem deleteShare (h : m.Veiled V m') (id : Int) (time : Instant) :
    Evenly V (Memory.deleteShare id time m) (Memory.deleteShare id time m') := by
  simp only [Memory.deleteShare, Tables.deleteShare]
  rcases rel_cases (h.tables.share id) with ⟨gone, gone'⟩ | ⟨s, s', found, found', r⟩
  · rw [gone, gone']
    exact h.refused _
  · rw [found, found']
    exact ⟨rfl, h.withTables (h.tables.setShare (r.tombstone time))⟩

end Memory.Veiled

def Call.Open (V : Veil) (t : Tables) : Call β → Prop
  | .ping | .ensureUser _ | .deleteWorkspace _ _ | .deleteDocument _ _ | .deleteShare _ _ => True
  | .createWorkspace new => V.user = some new.owner
  | .findWorkspaces owner _ _ | .countWorkspaces owner | .workspaceNameExists owner _ _ =>
    V.user = some owner
  | .updateWorkspace id _ => ∀ w ∈ t.workspaces, w.id = id → V.user = some w.owner
  | .createDocumentWithVersion new _ => V.shut new.workspace = false
  | .findDocuments workspace _ _ | .countDocuments workspace
  | .documentSlugExists workspace _ _ => V.shut workspace = false
  | .updateDocument id _ | .findVersions id _ _ | .countVersions id | .findVersion id _
  | .latestVersion id => V.closed id = false
  | .createNextVersion new => V.closed new.document = false
  | .createShare new => ¬ V.secret new.document ∧ V.known new.token
  | .findShareForUser document _ | .findShares document _ _ | .countShares document =>
    ¬ V.secret document
  | .updateShare id _ => ∀ s, t.share? id = some s → ¬ V.secret s.document
  | _ => False

/-- What reaches no further than the caller can see is answered alike, and it leaves stores that
again differ only behind the veil. -/
theorem answer_evenly {m m' : Memory} (h : m.Veiled V m') (numbered : m.Numbered)
    (numbered' : m'.Numbered) {call : Call β} (opened : call.Open V m.tables) (now : Instant) :
    Evenly V (Memory.answer now call m) (Memory.answer now call m') := by
  cases call with
  | ping => exact h.read (f := fun _ => .ok ()) rfl rfl
  | ensureUser user => exact h.ensureUser user
  | createWorkspace new => exact h.createWorkspace numbered opened
  | findWorkspaces owner limit offset =>
    refine h.read (f := fun t => .ok (t.ownedPage owner limit offset)) rfl ?_
    rw [Tables.ownedPage, Tables.ownedPage, h.tables.owned opened]
  | countWorkspaces owner =>
    exact h.read (f := fun t => .ok (t.owned owner).length) rfl (by rw [h.tables.owned opened])
  | updateWorkspace id changes => exact h.updateWorkspace numbered opened changes
  | deleteWorkspace id time => exact h.deleteWorkspace numbered id time
  | workspaceNameExists owner name except =>
    exact h.read (f := fun t => .ok (t.nameExists owner name except)) rfl
      (congrArg Except.ok (h.tables.nameExists opened name except))
  | createDocumentWithVersion new first =>
    exact h.createDocumentWithVersion numbered numbered' opened first
  | findDocuments workspace limit offset =>
    refine h.read (f := fun t => .ok (t.documentPage workspace limit offset)) rfl ?_
    rw [Tables.documentPage, Tables.documentPage, h.tables.documentsOf opened]
  | countDocuments workspace =>
    exact h.read (f := fun t => .ok (t.documentsOf workspace).length) rfl
      (by rw [h.tables.documentsOf opened])
  | updateDocument id changes => exact h.updateDocument numbered opened changes
  | deleteDocument id time => exact h.deleteDocument numbered id time
  | documentSlugExists workspace slug except =>
    exact h.read (f := fun t => .ok (t.slugExists workspace slug except)) rfl
      (congrArg Except.ok (h.tables.slugExists opened slug except))
  | createNextVersion new => exact h.createNextVersion opened
  | findVersions id limit offset =>
    refine h.read (f := fun t => .ok (t.versionPage id limit offset)) rfl ?_
    rw [Tables.versionPage, Tables.versionPage, h.tables.versionsOf opened]
  | countVersions id =>
    exact h.read (f := fun t => .ok (t.versionsOf id).length) rfl
      (by rw [h.tables.versionsOf opened])
  | findVersion id number =>
    exact h.read (f := fun t => orNotFound (t.version? id number)) rfl
      (congrArg orNotFound (h.tables.version opened number))
  | latestVersion id =>
    exact h.read (f := fun t => .ok (t.latestVersion? id)) rfl
      (congrArg Except.ok (h.tables.latestVersion opened))
  | createShare new => exact h.createShare opened.1 opened.2
  | findShareForUser document user =>
    exact h.read (f := fun t => .ok (t.shareForUser? document user)) rfl
      (congrArg Except.ok (h.tables.shareForUser opened user))
  | findShares document limit offset =>
    refine h.read (f := fun t => .ok (t.sharePage document limit offset)) rfl ?_
    rw [Tables.sharePage, Tables.sharePage, h.tables.sharesOf opened]
  | countShares document =>
    exact h.read (f := fun t => .ok (t.sharesOf document).length) rfl
      (by rw [h.tables.sharesOf opened])
  | updateShare id changes => exact h.updateShare opened changes
  | deleteShare id time => exact h.deleteShare id time
  | _ => exact opened.elim

end Repository

end DiagramShare
