import DiagramShare.Repository.Tables
import DiagramShare.Access.Policy
import Mathlib.Logic.Basic

/-! Who is entitled to what, said of the rows and not of the decision procedure. The procedure
decides exactly this, over all shares as well as over those that a store picks out for a caller. -/
namespace DiagramShare.Access

open DiagramShare.Time (Instant)
open DiagramShare.Repository (Tables)

/-- A share that is not deleted, has not ended, and is the caller's to use. -/
structure InForce (s : Share) (caller : Caller) (now : Instant) : Prop where
  live : s.deletedAt = none
  lasting : ∀ expiry, s.expiresAt = some expiry → ¬ expiry ≤ now
  held : (∃ user, s.user = some user ∧ caller.user = some user) ∨
    (s.user = none ∧ caller.token = some s.token)

/-- A permission that is enough for a kind of access. None is enough to manage. -/
def Suffices : Permission → Kind → Prop
  | _, .read => True
  | p, .write => p = .edit
  | _, .manage => False

/-- Why a caller may do something to a document in its workspace. -/
inductive Entitled (shares : List Share) (caller : Caller) (kind : Kind) (now : Instant)
    (d : Document) (w : Workspace) : Prop where
  | owner (own : caller.user = some w.owner)
  | visible (reading : kind = .read) (shown : d.isPublic = true ∨ w.isPublic = true)
  | share (s : Share) (stored : s ∈ shares) (on : s.document = d.id)
      (inForce : InForce s caller now) (enough : Suffices s.permission kind)

/-- A live document of a store and the live workspace that it is in. -/
structure Present (t : Tables) (d : Document) (w : Workspace) : Prop where
  document : d ∈ t.documents
  workspace : w ∈ t.workspaces
  inside : d.workspace = w.id
  documentLive : d.isLive = true
  workspaceLive : w.isLive = true

/-- A caller may do something to the document with a number. -/
def Allowed (t : Tables) (caller : Caller) (id : Int) (kind : Kind) (now : Instant) : Prop :=
  ∃ d w, Present t d w ∧ d.id = id ∧ Entitled t.shares caller kind now d w

theorem applies_iff {s : Share} {document : Int} {caller : Caller} {now : Instant} :
    applies s document caller now = true ↔ s.document = document ∧ InForce s caller now := by
  have unexpired : s.isExpired now = false ↔
      ∀ expiry, s.expiresAt = some expiry → ¬ expiry ≤ now := by
    cases ends : s.expiresAt <;> simp [Share.isExpired, ends]
  simp only [applies, Share.isUsable, Share.isLive, Bool.and_eq_true, beq_iff_eq,
    Bool.not_eq_true', Option.isNone_iff_eq_none, unexpired]
  constructor
  · rintro ⟨⟨on, live, lasting⟩, held⟩
    refine ⟨on, live, lasting, ?_⟩
    cases bound : s.user with
    | none => exact .inr ⟨rfl, by simpa [bound] using held⟩
    | some user => exact .inl ⟨user, rfl, by simpa [bound] using held⟩
  · rintro ⟨on, inForce⟩
    refine ⟨⟨on, inForce.live, inForce.lasting⟩, ?_⟩
    rcases inForce.held with ⟨user, bound, mine⟩ | ⟨bound, shown⟩
    · simp [bound, mine]
    · simp [bound, shown]

theorem strongest_isSome (ps : List Permission) (best : Option Permission) :
    (ps.foldl (fun best p => some (best.elim p (stronger · p))) best).isSome = true ↔
      best.isSome = true ∨ ps ≠ [] := by
  induction ps generalizing best with
  | nil => simp
  | cons p ps ih => simp [List.foldl_cons, ih]

theorem strongest_edit (ps : List Permission) (best : Option Permission) :
    ps.foldl (fun best p => some (best.elim p (stronger · p))) best = some .edit ↔
      best = some .edit ∨ .edit ∈ ps := by
  induction ps generalizing best with
  | nil => simp
  | cons p ps ih =>
    have head : some (best.elim p (stronger · p)) = some Permission.edit ↔
        best = some .edit ∨ p = .edit := by
      rcases best with _ | _ | _ <;> cases p <;> simp [stronger]
    rw [List.foldl_cons, ih, head, List.mem_cons, or_assoc, eq_comm (a := p)]

theorem permissionOf_isSome {document : Int} {caller : Caller} {shares : List Share}
    {now : Instant} : (permissionOf document caller shares now).isSome = true ↔
      ∃ s ∈ shares, s.document = document ∧ InForce s caller now := by
  simp only [permissionOf, strongest_isSome, Option.isSome_none, Bool.false_eq_true, false_or,
    ne_eq, List.map_eq_nil_iff, List.filter_eq_nil_iff, applies_iff, not_forall, not_not,
    exists_prop]

theorem permissionOf_edit {document : Int} {caller : Caller} {shares : List Share}
    {now : Instant} : permissionOf document caller shares now = some .edit ↔
      ∃ s ∈ shares, s.document = document ∧ InForce s caller now ∧ s.permission = .edit := by
  simp only [permissionOf, strongest_edit, reduceCtorEq, false_or, List.mem_map, List.mem_filter,
    applies_iff, and_assoc]

theorem isOpen_iff {shares : List Share} {caller : Caller} {kind : Kind} {now : Instant}
    {d : Document} {w : Workspace} : isOpen (.document d w) caller kind shares now = true ↔
      (kind = .read ∧ (d.isPublic = true ∨ w.isPublic = true)) ∨
      ∃ s ∈ shares, s.document = d.id ∧ InForce s caller now ∧ Suffices s.permission kind := by
  cases kind with
  | read =>
    simp only [isOpen, Bool.or_eq_true, permissionOf_isSome, Suffices, and_true, true_and]
  | write => simp [isOpen, permissionOf_edit, Suffices]
  | manage => simp [isOpen, Suffices]

theorem entitled_iff {shares : List Share} {caller : Caller} {kind : Kind} {now : Instant}
    {d : Document} {w : Workspace} : Entitled shares caller kind now d w ↔
      caller.user = some w.owner ∨ isOpen (.document d w) caller kind shares now = true := by
  rw [isOpen_iff]
  constructor
  · rintro (own | ⟨reading, shown⟩ | ⟨s, stored, on, inForce, enough⟩)
    · exact .inl own
    · exact .inr (.inl ⟨reading, shown⟩)
    · exact .inr (.inr ⟨s, stored, on, inForce, enough⟩)
  · rintro (own | ⟨reading, shown⟩ | ⟨s, stored, on, inForce, enough⟩)
    · exact .owner own
    · exact .visible reading shown
    · exact .share s stored on inForce enough

/-- On a live document in its live workspace, the decision is to allow exactly what a caller is
entitled to, and else to forbid. -/
theorem authorize_document (shares : List Share) (caller : Caller) (kind : Kind) (now : Instant)
    {d : Document} {w : Workspace} (inside : d.workspace = w.id) (live : d.isLive = true)
    (liveW : w.isLive = true) :
    (Entitled shares caller kind now d w ∧
      authorize (some (.document d w)) caller kind shares now = .allowed) ∨
    (¬ Entitled shares caller kind now d w ∧
      authorize (some (.document d w)) caller kind shares now = .forbidden) := by
  have present : (Resource.document d w).isPresent = true := by
    simp [Resource.isPresent, inside, live, liveW]
  simp only [entitled_iff, authorize, present, Resource.owner]
  by_cases own : caller.user = some w.owner
  · simp [own]
  · cases isOpen (.document d w) caller kind shares now <;> simp [own]

theorem authorize_workspace_allowed {shares : List Share} {caller : Caller} {kind : Kind}
    {now : Instant} {w : Workspace} (changing : kind ≠ .read)
    (allowed : authorize (some (.workspace w)) caller kind shares now = .allowed) :
    caller.user = some w.owner := by
  have shut : isOpen (.workspace w) caller kind shares now = false := by
    cases kind with
    | read => exact absurd rfl changing
    | _ => rfl
  simp only [authorize, shut, Bool.false_eq_true, if_false] at allowed
  split at allowed
  · contradiction
  · split at allowed
    · rename_i own
      simpa [Resource.owner] using own
    · contradiction

section Alike

variable {caller : Caller} {kind : Kind} {shares shares' : List Share} {now now' : Instant}
variable {d d' : Document} {w w' : Workspace}

theorem authorize_workspace_congr (live : w'.isLive = w.isLive) (owner : w'.owner = w.owner)
    (isPublic : w'.isPublic = w.isPublic) :
    authorize (some (.workspace w')) caller kind shares' now' =
      authorize (some (.workspace w)) caller kind shares now := by
  have present : (Resource.workspace w').isPresent = (Resource.workspace w).isPresent := live
  have own : (Resource.workspace w').owner = (Resource.workspace w).owner := owner
  have same : isOpen (.workspace w') caller kind shares' now' =
      isOpen (.workspace w) caller kind shares now := by
    cases kind with
    | read => exact isPublic
    | _ => rfl
  simp only [authorize, present, own, same]

theorem authorize_document_congr (live : d'.isLive = d.isLive) (liveW : w'.isLive = w.isLive)
    (inside : (d'.workspace == w'.id) = (d.workspace == w.id)) (owner : w'.owner = w.owner)
    (isPublic : d'.isPublic = d.isPublic) (isPublicW : w'.isPublic = w.isPublic)
    (permission : permissionOf d'.id caller shares' now' = permissionOf d.id caller shares now) :
    authorize (some (.document d' w')) caller kind shares' now' =
      authorize (some (.document d w)) caller kind shares now := by
  have present : (Resource.document d' w').isPresent = (Resource.document d w).isPresent := by
    simp only [Resource.isPresent, live, liveW, inside]
  have own : (Resource.document d' w').owner = (Resource.document d w).owner := owner
  have same : isOpen (.document d' w') caller kind shares' now' =
      isOpen (.document d w) caller kind shares now := by
    cases kind <;> simp only [isOpen, isPublic, isPublicW, permission]
  simp only [authorize, present, own, same]

end Alike

/-- What a store picks out for a caller is all that can matter to the caller. -/
theorem mem_grants_of_inForce {t : Tables} {s : Share} {caller : Caller} {now : Instant}
    (stored : s ∈ t.shares) (inForce : InForce s caller now) :
    s ∈ t.grants s.document caller.user caller.token := by
  simp only [Tables.grants, Tables.sharesOf, List.mem_filter, beq_self_eq_true, Bool.true_and,
    Share.isLive, inForce.live, Option.isNone_none, and_true, Bool.or_eq_true, Bool.and_eq_true,
    beq_iff_eq]
  refine ⟨stored, ?_⟩
  rcases inForce.held with ⟨user, bound, mine⟩ | ⟨_, shown⟩
  · exact .inl ⟨by simp [mine], by rw [bound, mine]⟩
  · exact .inr shown

theorem mem_of_mem_grants {t : Tables} {document : Int} {user : Option Int}
    {token : Option String} {s : Share} (h : s ∈ t.grants document user token) : s ∈ t.shares :=
  (List.mem_filter.mp (List.mem_filter.mp h).1).1

theorem entitled_congr {shares shares' : List Share} {caller : Caller} {kind : Kind}
    {now : Instant} {d : Document} {w : Workspace}
    (same : ∀ s, s.document = d.id → InForce s caller now → (s ∈ shares ↔ s ∈ shares')) :
    Entitled shares caller kind now d w ↔ Entitled shares' caller kind now d w := by
  constructor
  · rintro (own | ⟨reading, shown⟩ | ⟨s, stored, on, inForce, enough⟩)
    · exact .owner own
    · exact .visible reading shown
    · exact .share s ((same s on inForce).mp stored) on inForce enough
  · rintro (own | ⟨reading, shown⟩ | ⟨s, stored, on, inForce, enough⟩)
    · exact .owner own
    · exact .visible reading shown
    · exact .share s ((same s on inForce).mpr stored) on inForce enough

end DiagramShare.Access
