import DiagramShare.Proofs.History
import DiagramShare.Proofs.Rising
import Mathlib.Data.List.Forall2

/-! Rows in pairs. Two stores that have been asked for the same things hold the same rows under
different numbers. A pairing says which numbers stand for one row, and every question that is
answered from the tables has answers that are paired as well. -/
namespace DiagramShare

open DiagramShare.Time (Instant)
open List (Forall₂)

/-- Which numbers of two stores stand for one row, for each table. -/
structure Pairing where
  workspaces : List (Int × Int)
  documents : List (Int × Int)
  versions : List (Int × Int)
  shares : List (Int × Int)

/-- Two numbers stand for one row, or neither of them is paired with any. -/
def Stand (pairs : List (Int × Int)) (a b : Int) : Prop := ∀ p ∈ pairs, p.1 = a ↔ p.2 = b

instance {pairs : List (Int × Int)} {a b : Int} : Decidable (Stand pairs a b) :=
  inferInstanceAs (Decidable (∀ p ∈ pairs, p.1 = a ↔ p.2 = b))

/-- No number is paired with two others. -/
structure Pairing.OneToOne (π : Pairing) : Prop where
  workspaces : ∀ p ∈ π.workspaces, Stand π.workspaces p.1 p.2
  documents : ∀ p ∈ π.documents, Stand π.documents p.1 p.2
  versions : ∀ p ∈ π.versions, Stand π.versions p.1 p.2
  shares : ∀ p ∈ π.shares, Stand π.shares p.1 p.2

structure Fair (pairs : List (Int × Int)) (last last' : Int) : Prop where
  stand : ∀ p ∈ pairs, Stand pairs p.1 p.2
  bound : ∀ p ∈ pairs, p.1 ≤ last ∧ p.2 ≤ last'

namespace Fair

variable {pairs : List (Int × Int)} {last last' next next' : Int}

theorem nil : Fair [] last last' := ⟨nofun, nofun⟩

theorem later (h : Fair pairs last last') (le : last ≤ next) (le' : last' ≤ next') :
    Fair pairs next next' :=
  ⟨h.stand, fun p hp => ⟨Int.le_trans (h.bound p hp).1 le, Int.le_trans (h.bound p hp).2 le'⟩⟩

theorem biUnique (h : Fair pairs last last') : Relator.BiUnique fun a b => (a, b) ∈ pairs := by
  constructor
  · intro a b k first second
    exact ((h.stand _ first _ second).mpr rfl).symm
  · intro k a b first second
    exact ((h.stand _ first _ second).mp rfl).symm

theorem snoc {n n' : Nat} (h : Fair pairs n n') :
    Fair (pairs ++ [(((n + 1 : Nat) : Int), ((n' + 1 : Nat) : Int))]) (n + 1 : Nat)
      (n' + 1 : Nat) := by
  refine ⟨fun p hp q hq => ?_, fun p hp => ?_⟩
  · rcases List.mem_append.mp hp with old₁ | new₁ <;> rcases List.mem_append.mp hq with old₂ | new₂
    · exact h.stand p old₁ q old₂
    · cases List.mem_singleton.mp new₂
      have bound := h.bound p old₁
      constructor <;> intro same <;> dsimp only at same <;> omega
    · cases List.mem_singleton.mp new₁
      have bound := h.bound q old₂
      constructor <;> intro same <;> dsimp only at same <;> omega
    · cases List.mem_singleton.mp new₁
      cases List.mem_singleton.mp new₂
      exact ⟨fun _ => rfl, fun _ => rfl⟩
  · rcases List.mem_append.mp hp with old | new
    · have bound := h.bound p old
      omega
    · cases List.mem_singleton.mp new
      exact ⟨Int.le_refl _, Int.le_refl _⟩

end Fair

theorem Stand.beq {pairs : List (Int × Int)} {a b x y : Int} (h : Stand pairs a b)
    (paired : (x, y) ∈ pairs) : (x == a) = (y == b) :=
  Bool.eq_iff_iff.mpr (by rw [beq_iff_eq, beq_iff_eq]; exact h (x, y) paired)

/-- Rows that say the same, dates apart. -/
structure Workspace.Alike (π : Pairing) (w w' : Workspace) : Prop where
  paired : (w.id, w'.id) ∈ π.workspaces
  name : w'.name = w.name
  description : w'.description = w.description
  owner : w'.owner = w.owner
  isPublic : w'.isPublic = w.isPublic
  live : w'.isLive = w.isLive

structure Document.Alike (π : Pairing) (d d' : Document) : Prop where
  paired : (d.id, d'.id) ∈ π.documents
  workspace : (d.workspace, d'.workspace) ∈ π.workspaces
  title : d'.title = d.title
  kind : d'.kind = d.kind
  slug : d'.slug = d.slug
  isPublic : d'.isPublic = d.isPublic
  live : d'.isLive = d.isLive

structure Version.Alike (π : Pairing) (v v' : Version) : Prop where
  paired : (v.id, v'.id) ∈ π.versions
  document : (v.document, v'.document) ∈ π.documents
  content : v'.content = v.content
  number : v'.number = v.number
  author : v'.author = v.author
  note : v'.note = v.note

structure Share.Alike (π : Pairing) (s s' : Share) : Prop where
  paired : (s.id, s'.id) ∈ π.shares
  document : (s.document, s'.document) ∈ π.documents
  user : s'.user = s.user
  token : s'.token = s.token
  permission : s'.permission = s.permission
  expiresAt : s'.expiresAt = s.expiresAt
  live : s'.isLive = s.isLive

structure Pairing.Within (π π' : Pairing) : Prop where
  workspaces : π.workspaces ⊆ π'.workspaces
  documents : π.documents ⊆ π'.documents
  versions : π.versions ⊆ π'.versions
  shares : π.shares ⊆ π'.shares

def Pairing.addWorkspace (π : Pairing) (w w' : Workspace) : Pairing :=
  { π with workspaces := π.workspaces ++ [(w.id, w'.id)] }

def Pairing.addDocument (π : Pairing) (d d' : Document) : Pairing :=
  { π with documents := π.documents ++ [(d.id, d'.id)] }

def Pairing.addVersion (π : Pairing) (v v' : Version) : Pairing :=
  { π with versions := π.versions ++ [(v.id, v'.id)] }

def Pairing.addDetail (π : Pairing) (a b : Document × Option Version) : Pairing :=
  match a.2, b.2 with
  | some v, some v' => (π.addDocument a.1 b.1).addVersion v v'
  | _, _ => π.addDocument a.1 b.1

def Pairing.addShare (π : Pairing) (s s' : Share) : Pairing :=
  { π with shares := π.shares ++ [(s.id, s'.id)] }

namespace Pairing

variable (π : Pairing)

theorem Within.refl : π.Within π := ⟨fun _ h => h, fun _ h => h, fun _ h => h, fun _ h => h⟩

theorem within_addWorkspace (w w' : Workspace) : π.Within (π.addWorkspace w w') :=
  { Within.refl π with workspaces := List.subset_append_left _ _ }

theorem within_addDocument (d d' : Document) : π.Within (π.addDocument d d') :=
  { Within.refl π with documents := List.subset_append_left _ _ }

theorem within_addVersion (v v' : Version) : π.Within (π.addVersion v v') :=
  { Within.refl π with versions := List.subset_append_left _ _ }

theorem Within.trans {π π' π'' : Pairing} (h : π.Within π') (k : π'.Within π'') : π.Within π'' :=
  ⟨List.Subset.trans h.workspaces k.workspaces, List.Subset.trans h.documents k.documents,
    List.Subset.trans h.versions k.versions, List.Subset.trans h.shares k.shares⟩

theorem within_addDetail (a b : Document × Option Version) : π.Within (π.addDetail a b) := by
  unfold addDetail
  split
  · exact (π.within_addDocument a.1 b.1).trans (within_addVersion _ _ _)
  · exact π.within_addDocument a.1 b.1

theorem within_addShare (s s' : Share) : π.Within (π.addShare s s') :=
  { Within.refl π with shares := List.subset_append_left _ _ }

end Pairing

variable {π π' : Pairing}

theorem Workspace.Alike.mono {w w' : Workspace} (h : w.Alike π w') (within : π.Within π') :
    w.Alike π' w' :=
  { h with paired := within.workspaces h.paired }

theorem Document.Alike.mono {d d' : Document} (h : d.Alike π d') (within : π.Within π') :
    d.Alike π' d' :=
  { h with paired := within.documents h.paired, workspace := within.workspaces h.workspace }

theorem Version.Alike.mono {v v' : Version} (h : v.Alike π v') (within : π.Within π') :
    v.Alike π' v' :=
  { h with paired := within.versions h.paired, document := within.documents h.document }

theorem Share.Alike.mono {s s' : Share} (h : s.Alike π s') (within : π.Within π') :
    s.Alike π' s' :=
  { h with paired := within.shares h.paired, document := within.documents h.document }

namespace Repository

section Rows

variable {R S : α → β → Prop} {rows : List α} {rows' : List β} {p : α → Bool} {q : β → Bool}

theorem filter_twin (h : Forall₂ R rows rows') (same : ∀ a b, R a b → p a = q b) :
    Forall₂ R (rows.filter p) (rows'.filter q) :=
  List.rel_filter (fun {a b} r => Bool.eq_iff_iff.mp (same a b r)) h

theorem find_twin (h : Forall₂ R rows rows') (same : ∀ a b, R a b → p a = q b) :
    Option.Rel R (rows.find? p) (rows'.find? q) := by
  induction h with
  | nil => exact .none
  | cons r _ ih =>
    rw [List.find?_cons, List.find?_cons, ← same _ _ r]
    split
    · exact .some r
    · exact ih

theorem any_twin (h : Forall₂ R rows rows') (same : ∀ a b, R a b → p a = q b) :
    rows'.any q = rows.any p := by
  induction h with
  | nil => rfl
  | cons r _ ih => rw [List.any_cons, List.any_cons, ih, same _ _ r]

theorem mem_twin (h : Forall₂ R rows rows') {a : α} (listed : a ∈ rows) :
    ∃ b ∈ rows', R a b := by
  induction h with
  | nil => cases listed
  | @cons _ b _ _ r _ ih =>
    rcases List.mem_cons.mp listed with rfl | listed
    · exact ⟨b, List.mem_cons_self, r⟩
    · obtain ⟨b, listed, r⟩ := ih listed
      exact ⟨b, List.mem_cons_of_mem _ listed, r⟩

theorem countP_twin (h : Forall₂ R rows rows') (same : ∀ a b, R a b → p a = q b) :
    rows'.countP q = rows.countP p := by
  induction h with
  | nil => rfl
  | cons r _ ih => rw [List.countP_cons, List.countP_cons, ih, same _ _ r]

theorem map_twin {f : α → κ} {g : β → κ} (h : Forall₂ R rows rows')
    (same : ∀ a b, R a b → g b = f a) : rows'.map g = rows.map f := by
  induction h with
  | nil => rfl
  | cons r _ ih => rw [List.map_cons, List.map_cons, ih, same _ _ r]

theorem updateWhere_twin {f : α → α} {g : β → β} (h : Forall₂ R rows rows')
    (same : ∀ a b, R a b → p a = q b) (changed : ∀ a b, R a b → p a = true → S (f a) (g b))
    (kept : ∀ a b, R a b → p a = false → S a b) :
    Forall₂ S (updateWhere p f rows) (updateWhere q g rows') := by
  induction h with
  | nil => exact .nil
  | cons r _ ih =>
    refine .cons ?_ ih
    beta_reduce
    rw [← same _ _ r]
    split
    · rename_i hit
      exact changed _ _ r hit
    · rename_i missed
      exact kept _ _ r (by simpa using missed)

theorem snoc_twin (h : Forall₂ R rows rows') {a : α} {b : β} (last : R a b) :
    Forall₂ R (rows ++ [a]) (rows' ++ [b]) :=
  List.rel_append h (.cons last .nil)

theorem getLastD_twin (h : Forall₂ R rows rows') {a : α} {b : β} (r : R a b) :
    R (rows.getLastD a) (rows'.getLastD b) := by
  induction h generalizing a b with
  | nil => exact r
  | cons next _ ih =>
    rw [List.getLastD_cons, List.getLastD_cons]
    exact ih next

theorem window_twin (h : Forall₂ R rows rows') (limit offset : Int) :
    Forall₂ R (window limit offset rows) (window limit offset rows') :=
  List.forall₂_take _ (List.forall₂_drop _ h)

end Rows

/-- Tables with the same rows in the same order, dates apart. Expiries are of one kind. -/
structure Tables.Twin (π : Pairing) (agreed : Instant → Prop) (t t' : Tables) : Prop where
  workspaces : Forall₂ (Workspace.Alike π) t.workspaces t'.workspaces
  documents : Forall₂ (Document.Alike π) t.documents t'.documents
  versions : Forall₂ (Version.Alike π) t.versions t'.versions
  shares : Forall₂ (fun s s' => s.Alike π s' ∧ ∀ at_ ∈ s.expiresAt, agreed at_) t.shares t'.shares

structure Paired (π : Pairing) (q q' : Sequences) : Prop where
  workspaces : Fair π.workspaces q.workspaces q'.workspaces
  documents : Fair π.documents q.documents q'.documents
  versions : Fair π.versions q.versions q'.versions
  shares : Fair π.shares q.shares q'.shares

theorem Paired.oneToOne {q q' : Sequences} (h : Paired π q q') : π.OneToOne :=
  ⟨h.workspaces.stand, h.documents.stand, h.versions.stand, h.shares.stand⟩

namespace Tables.Twin

variable {agreed : Instant → Prop} {t t' : Tables} {q q' : Sequences} {time time' : Instant}
variable {a b k : Int} {limit offset : Int}

theorem mono (h : t.Twin π agreed t') (within : π.Within π') : t.Twin π' agreed t' :=
  ⟨h.workspaces.imp fun _ _ r => r.mono within, h.documents.imp fun _ _ r => r.mono within,
    h.versions.imp fun _ _ r => r.mono within, h.shares.imp fun _ _ r => ⟨r.1.mono within, r.2⟩⟩

theorem anyWorkspace (h : t.Twin π agreed t') (stand : Stand π.workspaces a b) :
    Option.Rel (Workspace.Alike π) (t.anyWorkspace? a) (t'.anyWorkspace? b) :=
  find_twin h.workspaces fun _ _ r => stand.beq r.paired

theorem workspace (h : t.Twin π agreed t') (stand : Stand π.workspaces a b) :
    Option.Rel (Workspace.Alike π) (t.workspace? a) (t'.workspace? b) :=
  find_twin h.workspaces fun _ _ r => by rw [stand.beq r.paired, r.live]

theorem owned (h : t.Twin π agreed t') (owner : Int) :
    Forall₂ (Workspace.Alike π) (t.owned owner) (t'.owned owner) :=
  filter_twin h.workspaces fun _ _ r => by rw [r.owner, r.live]

theorem ownedPage (h : t.Twin π agreed t') (dated : t.Dated time q) (dated' : t'.Dated time' q')
    (owner : Int) : Forall₂ (Workspace.Alike π) (t.ownedPage owner limit offset)
      (t'.ownedPage owner limit offset) := by
  rw [dated.ownedPage_eq, dated'.ownedPage_eq]
  exact window_twin (List.rel_reverse (h.owned owner)) limit offset

theorem bne_except {pairs : List (Int × Int)} {x y : Int} (paired : (x, y) ∈ pairs)
    {except except' : Option Int} (stand : Option.Rel (Stand pairs) except except') :
    (some x != except) = (some y != except') := by
  cases stand with
  | none => rfl
  | some stand =>
    have same := stand.beq paired
    simp only [bne, Option.some_beq_some, same]

theorem nameExists (h : t.Twin π agreed t') (owner : Int) (name : String)
    {except except' : Option Int} (stand : Option.Rel (Stand π.workspaces) except except') :
    t'.nameExists owner name except' = t.nameExists owner name except :=
  any_twin h.workspaces fun _ _ r => by
    rw [r.live, r.owner, r.name, bne_except r.paired stand]

theorem anyDocument (h : t.Twin π agreed t') (stand : Stand π.documents a b) :
    Option.Rel (Document.Alike π) (t.anyDocument? a) (t'.anyDocument? b) :=
  find_twin h.documents fun _ _ r => stand.beq r.paired

theorem document (h : t.Twin π agreed t') (stand : Stand π.documents a b) :
    Option.Rel (Document.Alike π) (t.document? a) (t'.document? b) :=
  find_twin h.documents fun _ _ r => by rw [stand.beq r.paired, r.live]

theorem documentsOf (h : t.Twin π agreed t') (stand : Stand π.workspaces a b) :
    Forall₂ (Document.Alike π) (t.documentsOf a) (t'.documentsOf b) :=
  filter_twin h.documents fun _ _ r => by rw [stand.beq r.workspace, r.live]

theorem documentPage (h : t.Twin π agreed t') (dated : t.Dated time q)
    (dated' : t'.Dated time' q') (stand : Stand π.workspaces a b) :
    Forall₂ (Document.Alike π) (t.documentPage a limit offset) (t'.documentPage b limit offset) := by
  rw [dated.documentPage_eq, dated'.documentPage_eq]
  exact window_twin (List.rel_reverse (h.documentsOf stand)) limit offset

theorem slugExists (h : t.Twin π agreed t') (stand : Stand π.workspaces a b) (slug : String)
    {except except' : Option Int} (apart : Option.Rel (Stand π.documents) except except') :
    t'.slugExists b slug except' = t.slugExists a slug except :=
  any_twin h.documents fun _ _ r => by
    rw [r.live, stand.beq r.workspace, r.slug, bne_except r.paired apart]

theorem versionsOf (h : t.Twin π agreed t') (stand : Stand π.documents a b) :
    Forall₂ (Version.Alike π) (t.versionsOf a) (t'.versionsOf b) :=
  filter_twin h.versions fun _ _ r => stand.beq r.document

theorem versionPage (h : t.Twin π agreed t') (inOrder : InOrder (t.versionsOf a))
    (stand : Stand π.documents a b) : Forall₂ (Version.Alike π) (t.versionPage a limit offset)
      (t'.versionPage b limit offset) := by
  have rows := h.versionsOf stand
  have inOrder' : InOrder (t'.versionsOf b) := by
    rw [InOrder, map_twin rows fun _ _ r => r.number, inOrder, rows.length_eq]
  rw [Tables.versionPage, Tables.versionPage, inOrder.sorted, inOrder'.sorted]
  exact window_twin (List.rel_reverse rows) limit offset

theorem version (h : t.Twin π agreed t') (stand : Stand π.documents a b) :
    Option.Rel (Version.Alike π) (t.version? a k) (t'.version? b k) :=
  find_twin h.versions fun _ _ r => by rw [stand.beq r.document, r.number]

theorem lastNumber (h : t.Twin π agreed t') (stand : Stand π.documents a b) :
    t'.lastNumber b = t.lastNumber a := by
  rw [Tables.lastNumber, Tables.lastNumber, map_twin (h.versionsOf stand) fun _ _ r => r.number]

theorem latestVersion (h : t.Twin π agreed t') (stand : Stand π.documents a b) :
    Option.Rel (Version.Alike π) (t.latestVersion? a) (t'.latestVersion? b) :=
  find_twin (h.versionsOf stand) fun _ _ r => by rw [r.number, h.lastNumber stand]

def Granted (π : Pairing) (agreed : Instant → Prop) (s s' : Share) : Prop :=
  s.Alike π s' ∧ ∀ at_ ∈ s.expiresAt, agreed at_

theorem share (h : t.Twin π agreed t') (stand : Stand π.shares a b) :
    Option.Rel (Granted π agreed) (t.share? a) (t'.share? b) :=
  find_twin h.shares fun _ _ r => by rw [stand.beq r.1.paired, r.1.live]

theorem sharesOf (h : t.Twin π agreed t') (stand : Stand π.documents a b) :
    Forall₂ (Granted π agreed) (t.sharesOf a) (t'.sharesOf b) :=
  filter_twin h.shares fun _ _ r => by rw [stand.beq r.1.document, r.1.live]

theorem sharePage (h : t.Twin π agreed t') (dated : t.Dated time q) (dated' : t'.Dated time' q')
    (stand : Stand π.documents a b) :
    Forall₂ (Granted π agreed) (t.sharePage a limit offset) (t'.sharePage b limit offset) := by
  rw [dated.sharePage_eq, dated'.sharePage_eq]
  exact window_twin (List.rel_reverse (h.sharesOf stand)) limit offset

theorem shareForUser (h : t.Twin π agreed t') (stand : Stand π.documents a b) (user : Int) :
    Option.Rel (Granted π agreed) (t.shareForUser? a user) (t'.shareForUser? b user) :=
  find_twin h.shares fun _ _ r => by rw [r.1.live, stand.beq r.1.document, r.1.user]

theorem grants (h : t.Twin π agreed t') (stand : Stand π.documents a b) (user : Option Int)
    (token : Option String) :
    Forall₂ (Granted π agreed) (t.grants a user token) (t'.grants b user token) :=
  filter_twin (h.sharesOf stand) fun _ _ r => by rw [r.1.user, r.1.token]

theorem tokenExists (h : t.Twin π agreed t') (token : String) :
    t'.tokenExists token = t.tokenExists token :=
  any_twin h.shares fun _ _ r => by rw [r.1.token]

theorem addWorkspace (h : t.Twin π agreed t') {w w' : Workspace} (alike : w.Alike π w') :
    (t.addWorkspace w).Twin π agreed (t'.addWorkspace w') :=
  { h with workspaces := snoc_twin h.workspaces alike }

theorem addDocument (h : t.Twin π agreed t') {d d' : Document} (alike : d.Alike π d') :
    (t.addDocument d).Twin π agreed (t'.addDocument d') :=
  { h with documents := snoc_twin h.documents alike }

theorem addVersion (h : t.Twin π agreed t') {v v' : Version} (alike : v.Alike π v') :
    (t.addVersion v).Twin π agreed (t'.addVersion v') :=
  { h with versions := snoc_twin h.versions alike }

theorem addShare (h : t.Twin π agreed t') {s s' : Share} (granted : Granted π agreed s s') :
    (t.addShare s).Twin π agreed (t'.addShare s') :=
  { h with shares := snoc_twin h.shares granted }

theorem setWorkspace (h : t.Twin π agreed t') (paired : Paired π q q') {w w' : Workspace}
    (alike : w.Alike π w') : (t.setWorkspace w).Twin π agreed (t'.setWorkspace w') :=
  { h with
    workspaces := updateWhere_twin h.workspaces
      (fun _ _ r => (paired.workspaces.stand _ alike.paired).beq r.paired)
      (fun _ _ _ _ => alike) fun _ _ r _ => r }

theorem setDocument (h : t.Twin π agreed t') (paired : Paired π q q') {d d' : Document}
    (alike : d.Alike π d') : (t.setDocument d).Twin π agreed (t'.setDocument d') :=
  { h with
    documents := updateWhere_twin h.documents
      (fun _ _ r => (paired.documents.stand _ alike.paired).beq r.paired)
      (fun _ _ _ _ => alike) fun _ _ r _ => r }

theorem setShare (h : t.Twin π agreed t') (paired : Paired π q q') {s s' : Share}
    (granted : Granted π agreed s s') : (t.setShare s).Twin π agreed (t'.setShare s') :=
  { h with
    shares := updateWhere_twin h.shares
      (fun _ _ r => (paired.shares.stand _ granted.1.paired).beq r.1.paired)
      (fun _ _ _ _ => granted) fun _ _ r _ => r }

theorem deleteDocumentsOf (h : t.Twin π agreed t') (stand : Stand π.workspaces a b)
    (at_ at' : Instant) :
    (t.deleteDocumentsOf a at_).Twin π agreed (t'.deleteDocumentsOf b at') :=
  { h with
    documents := updateWhere_twin h.documents
      (fun _ _ r => by rw [stand.beq r.workspace, r.live])
      (fun _ _ r _ => { r with live := rfl }) fun _ _ r _ => r }

theorem deleteSharesOf (h : t.Twin π agreed t') (paired : Paired π q q') {ds ds' : List Int}
    (same : Forall₂ (fun a b => (a, b) ∈ π.documents) ds ds') (at_ at' : Instant) :
    (t.deleteSharesOf ds at_).1.Twin π agreed (t'.deleteSharesOf ds' at').1 ∧
      (t'.deleteSharesOf ds' at').2 = (t.deleteSharesOf ds at_).2 := by
  have hit : ∀ s s', Granted π agreed s s' → (ds.contains s.document && s.isLive) =
      (ds'.contains s'.document && s'.isLive) := by
    intro s s' r
    have stand := paired.documents.stand _ r.1.document
    rw [r.1.live, List.contains_eq_any_beq, List.contains_eq_any_beq]
    rw [any_twin same fun a b r' => ?_]
    rw [Bool.beq_comm, stand.beq r', Bool.beq_comm]
  exact ⟨{ h with
    shares := updateWhere_twin h.shares hit (fun _ _ r _ => ⟨{ r.1 with live := rfl }, r.2⟩)
      fun _ _ r _ => r }, countP_twin h.shares hit⟩

def Emptied (π : Pairing) (agreed : Instant → Prop) (a b : Tables × CascadeSummary) : Prop :=
  a.1.Twin π agreed b.1 ∧ b.2 = a.2

theorem deleteWorkspace (h : t.Twin π agreed t') (paired : Paired π q q')
    (stand : Stand π.workspaces a b) (at_ at' : Instant) :
    Option.Rel (Emptied π agreed) (t.deleteWorkspace a at_) (t'.deleteWorkspace b at') := by
  have found := h.workspace stand
  unfold Tables.deleteWorkspace
  generalize t.workspace? a = w at found ⊢
  generalize t'.workspace? b = w' at found ⊢
  cases found with
  | none => exact .none
  | @some w w' alike =>
    have hit := h.documentsOf stand
    have gone : (w.tombstone at_).Alike π (w'.tombstone at') := { alike with live := rfl }
    have emptied := (h.setWorkspace paired gone).deleteDocumentsOf stand at_ at'
    have numbers : Forall₂ (fun a b => (a, b) ∈ π.documents)
        ((t.documentsOf a).map Document.id) ((t'.documentsOf b).map Document.id) :=
      List.rel_map (fun _ _ r => r.paired) hit
    obtain ⟨rest, counted⟩ := emptied.deleteSharesOf paired numbers at_ at'
    refine .some ⟨rest, ?_⟩
    rw [CascadeSummary.mk.injEq]
    exact ⟨hit.length_eq.symm, counted⟩

theorem deleteDocument (h : t.Twin π agreed t') (paired : Paired π q q')
    (stand : Stand π.documents a b) (at_ at' : Instant) :
    Option.Rel (Emptied π agreed) (t.deleteDocument a at_) (t'.deleteDocument b at') := by
  have found := h.document stand
  unfold Tables.deleteDocument
  generalize there : t.document? a = d at found ⊢
  generalize there' : t'.document? b = d' at found ⊢
  cases found with
  | none => exact .none
  | @some d d' alike =>
    have number : d.id = a := key_of_find there
    have number' : d'.id = b := key_of_find there'
    have listed : Forall₂ (fun a b => (a, b) ∈ π.documents) [a] [b] :=
      .cons (number ▸ number' ▸ alike.paired) .nil
    have gone : (d.tombstone at_).Alike π (d'.tombstone at') := { alike with live := rfl }
    obtain ⟨rest, counted⟩ := (h.setDocument paired gone).deleteSharesOf paired listed at_ at'
    refine .some ⟨rest, ?_⟩
    rw [CascadeSummary.mk.injEq]
    exact ⟨rfl, counted⟩

theorem deleteShare (h : t.Twin π agreed t') (paired : Paired π q q')
    (stand : Stand π.shares a b) (at_ at' : Instant) :
    Option.Rel (Tables.Twin π agreed) (t.deleteShare a at_) (t'.deleteShare b at') := by
  have found := h.share stand
  unfold Tables.deleteShare
  generalize t.share? a = s at found ⊢
  generalize t'.share? b = s' at found ⊢
  cases found with
  | none => exact .none
  | some granted =>
    exact .some (h.setShare paired ⟨{ granted.1 with live := rfl }, granted.2⟩)

end Tables.Twin

end Repository

end DiagramShare
