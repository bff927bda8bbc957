import DiagramShare.Proofs.Entitlement

/-! What a decision depends on. Of the shares only those count that apply to the caller, in whatever
order and however often they are listed. More shares and more credentials never mean less access, and
whether something is found at all depends on neither. -/
namespace DiagramShare.Access

open DiagramShare.Time (Instant)

variable {resource : Resource} {caller caller' : Caller} {kind : Kind}
variable {grants grants' : List Share} {now : Instant}

/-- Why a share does not apply to a caller who asks for a resource. -/
inductive Idle (resource : Option Resource) (caller : Caller) (now : Instant) (s : Share) :
    Prop where
  | elsewhere (other : ∀ d w, resource = some (.document d w) → s.document ≠ d.id)
  | deleted (time : Instant) (gone : s.deletedAt = some time)
  | expired (expiry : Instant) (ends : s.expiresAt = some expiry) (past : expiry ≤ now)
  | otherUser (user : Int) (bound : s.user = some user) (other : caller.user ≠ some user)
  | otherToken (free : s.user = none) (other : caller.token ≠ some s.token)

/-- One caller shows all that another shows. -/
structure Richer (caller caller' : Caller) : Prop where
  user : ∀ u, caller.user = some u → caller'.user = some u
  token : ∀ t, caller.token = some t → caller'.token = some t

theorem not_idle_of_inForce {d : Document} {w : Workspace} {s : Share} (on : s.document = d.id)
    (inForce : InForce s caller now) : ¬ Idle (some (.document d w)) caller now s := by
  rintro (other | ⟨time, gone⟩ | ⟨expiry, ends, past⟩ | ⟨user, bound, other⟩ | ⟨free, other⟩)
  · exact other d w rfl on
  · exact nomatch gone.symm.trans inForce.live
  · exact inForce.lasting expiry ends past
  · rcases inForce.held with ⟨user', bound', mine⟩ | ⟨free, _⟩
    · cases bound.symm.trans bound'
      exact other mine
    · exact nomatch bound.symm.trans free
  · rcases inForce.held with ⟨user, bound, _⟩ | ⟨_, presented⟩
    · exact nomatch bound.symm.trans free
    · exact other presented

theorem InForce.richer {s : Share} (h : InForce s caller now) (more : Richer caller caller') :
    InForce s caller' now := by
  refine ⟨h.live, h.lasting, ?_⟩
  rcases h.held with ⟨user, bound, mine⟩ | ⟨free, presented⟩
  · exact .inl ⟨user, bound, more.user user mine⟩
  · exact .inr ⟨free, more.token s.token presented⟩

theorem isOpen_workspace {w : Workspace} : isOpen (.workspace w) caller kind grants now = true ↔
    kind = .read ∧ w.isPublic = true := by
  cases kind <;> simp [isOpen]

theorem isOpen_mono (more : Richer caller caller')
    (among : ∀ s ∈ grants, s ∈ grants' ∨ Idle (some resource) caller now s)
    (opened : isOpen resource caller kind grants now = true) :
    isOpen resource caller' kind grants' now = true := by
  cases resource with
  | workspace w => exact isOpen_workspace.mpr (isOpen_workspace.mp opened)
  | document d w =>
    rcases isOpen_iff.mp opened with shown | ⟨s, listed, on, inForce, enough⟩
    · exact isOpen_iff.mpr (.inl shown)
    · have kept : s ∈ grants' := (among s listed).resolve_right (not_idle_of_inForce on inForce)
      exact isOpen_iff.mpr (.inr ⟨s, kept, on, inForce.richer more, enough⟩)

theorem isOpen_read (opened : isOpen resource caller kind grants now = true) :
    isOpen resource caller .read grants now = true := by
  cases resource with
  | workspace w => exact isOpen_workspace.mpr ⟨rfl, (isOpen_workspace.mp opened).2⟩
  | document d w =>
    rcases isOpen_iff.mp opened with ⟨_, shown⟩ | ⟨s, listed, on, inForce, _⟩
    · exact isOpen_iff.mpr (.inl ⟨rfl, shown⟩)
    · exact isOpen_iff.mpr (.inr ⟨s, listed, on, inForce, trivial⟩)

theorem authorize_notFound {target : Option Resource} :
    authorize target caller kind grants now = .notFound ↔
      ∀ r, target = some r → r.isPresent = false := by
  cases target with
  | none => simp [authorize]
  | some r =>
    simp only [authorize, Option.some.injEq, forall_eq']
    cases r.isPresent with
    | false => simp
    | true =>
      simp only [Bool.not_true, Bool.false_eq_true, if_false]
      split
      · simp
      · split <;> simp

theorem authorize_allowed {target : Option Resource} :
    authorize target caller kind grants now = .allowed ↔
      ∃ r, target = some r ∧ r.isPresent = true ∧
        (caller.user = some r.owner ∨ isOpen r caller kind grants now = true) := by
  cases target with
  | none => simp [authorize]
  | some r =>
    simp only [authorize, Option.some.injEq, exists_eq_left']
    cases r.isPresent with
    | false => simp
    | true =>
      by_cases own : caller.user = some r.owner
      · simp [own]
      · cases isOpen r caller kind grants now <;> simp [own]

theorem decision_ext {a b : Decision} (found : a = .notFound ↔ b = .notFound)
    (allowed : a = .allowed ↔ b = .allowed) : a = b := by
  cases a <;> cases b <;> simp at found allowed ⊢

theorem authorize_mono {target : Option Resource} (more : Richer caller caller')
    (among : ∀ s ∈ grants, s ∈ grants' ∨ Idle target caller now s)
    (allowed : authorize target caller kind grants now = .allowed) :
    authorize target caller' kind grants' now = .allowed := by
  obtain ⟨r, rfl, present, own | opened⟩ := authorize_allowed.mp allowed
  · exact authorize_allowed.mpr ⟨r, rfl, present, .inl (more.user _ own)⟩
  · exact authorize_allowed.mpr ⟨r, rfl, present, .inr (isOpen_mono more among opened)⟩

theorem Richer.refl (caller : Caller) : Richer caller caller := ⟨fun _ h => h, fun _ h => h⟩

theorem authorize_congr {target : Option Resource}
    (lost : ∀ s ∈ grants, s ∈ grants' ∨ Idle target caller now s)
    (gained : ∀ s ∈ grants', s ∈ grants ∨ Idle target caller now s) :
    authorize target caller kind grants' now = authorize target caller kind grants now := by
  refine decision_ext ?_ ⟨authorize_mono (.refl caller) gained, authorize_mono (.refl caller) lost⟩
  rw [authorize_notFound, authorize_notFound]

theorem authorize_lesser {target : Option Resource} :
    (authorize target caller .manage grants now = .allowed →
      authorize target caller .write grants now = .allowed) ∧
    (authorize target caller .write grants now = .allowed →
      authorize target caller .read grants now = .allowed) := by
  simp only [authorize_allowed]
  constructor
  · rintro ⟨r, rfl, present, own | opened⟩
    · exact ⟨r, rfl, present, .inl own⟩
    · cases r <;> cases opened
  · rintro ⟨r, rfl, present, own | opened⟩
    · exact ⟨r, rfl, present, .inl own⟩
    · exact ⟨r, rfl, present, .inr (isOpen_read opened)⟩

/-- The decision is the same for all lists of shares that have the same members, and for all that
differ in shares that do not apply to the caller. It is never to the disadvantage of a caller that
there are more shares, or that the caller shows more. Who may manage may write, and who may write may
read; and what is not found is found by nobody. -/
theorem authorize_stable (target : Option Resource) (caller : Caller) (kind : Kind)
    (grants : List Share) (now : Instant) :
    let decided := authorize target caller kind grants now
    (∀ grants', grants'.Perm grants → authorize target caller kind grants' now = decided) ∧
    (∀ grants', (∀ s, s ∈ grants' ↔ s ∈ grants) →
      authorize target caller kind grants' now = decided) ∧
    (∀ grants', (∀ s, ¬ Idle target caller now s → (s ∈ grants' ↔ s ∈ grants)) →
      authorize target caller kind grants' now = decided) ∧
    (∀ grants' caller', grants ⊆ grants' → Richer caller caller' → decided = .allowed →
      authorize target caller' kind grants' now = .allowed) ∧
    (authorize target caller .manage grants now = .allowed →
      authorize target caller .write grants now = .allowed) ∧
    (authorize target caller .write grants now = .allowed →
      authorize target caller .read grants now = .allowed) ∧
    (decided = .notFound ↔ ∀ caller' kind' grants' now',
      authorize target caller' kind' grants' now' = .notFound) := by
  intro decided
  have members : ∀ grants', (∀ s, s ∈ grants' ↔ s ∈ grants) →
      authorize target caller kind grants' now = decided := fun grants' same =>
    authorize_congr (fun s listed => .inl ((same s).mpr listed))
      (fun s listed => .inl ((same s).mp listed))
  refine ⟨fun grants' order => members grants' fun s => order.mem_iff, members, ?_, ?_,
    authorize_lesser.1, authorize_lesser.2, ?_⟩
  · intro grants' same
    refine authorize_congr (fun s listed => ?_) (fun s listed => ?_)
    · by_cases idle : Idle target caller now s
      · exact .inr idle
      · exact .inl ((same s idle).mpr listed)
    · by_cases idle : Idle target caller now s
      · exact .inr idle
      · exact .inl ((same s idle).mp listed)
  · intro grants' caller' more richer allowed
    exact authorize_mono richer (fun s listed => .inl (more listed)) allowed
  · constructor
    · intro missing caller' kind' grants' now'
      exact authorize_notFound.mpr (authorize_notFound.mp missing)
    · intro missing
      exact missing caller kind grants now

/-- A private document of user 1 in a private workspace, a share of it that lets user 2 view it, and
one that lets whoever presents its token edit it. -/
def flow : Resource :=
  .document ⟨20, 10, "Flow", .mermaid, "flow", false, .epoch, .epoch, none⟩
    ⟨10, "Team", none, 1, false, .epoch, .epoch, none⟩

def viewing : Share := ⟨30, 20, some 2, "bound", .view, none, .epoch, .epoch, none⟩

def editing : Share := ⟨31, 20, none, "link", .edit, none, .epoch, .epoch, none⟩

/-- User 2 may not write, wherever the other share stands and however often the own one is listed; and
who may write by the token may do so as user 2 as well, and may read. -/
theorem flow_stable :
    authorize (some flow) ⟨some 2, none⟩ .write [viewing] .epoch = .forbidden ∧
    authorize (some flow) ⟨some 2, none⟩ .write [editing, viewing, viewing] .epoch = .forbidden ∧
    authorize (some flow) ⟨none, some "link"⟩ .write [editing] .epoch = .allowed ∧
    authorize (some flow) ⟨some 2, some "link"⟩ .write [viewing, editing] .epoch = .allowed ∧
    authorize (some flow) ⟨none, some "link"⟩ .read [editing] .epoch = .allowed := by
  have forbidden : authorize (some flow) ⟨some 2, none⟩ .write [viewing] .epoch = .forbidden := by
    decide
  have allowed : authorize (some flow) ⟨none, some "link"⟩ .write [editing] .epoch = .allowed := by
    decide
  obtain ⟨_, _, idle, _⟩ := authorize_stable (some flow) ⟨some 2, none⟩ .write [viewing] .epoch
  obtain ⟨_, _, _, more, _, lesser, _⟩ :=
    authorize_stable (some flow) ⟨none, some "link"⟩ .write [editing] .epoch
  refine ⟨forbidden, (idle _ fun s counts => ?_).trans forbidden, allowed,
    more _ _ (by simp) ⟨nofun, fun _ h => h⟩ allowed, lesser allowed⟩
  have other : s ≠ editing := fun same => counts (.otherToken (same ▸ rfl) nofun)
  simp [other]

end DiagramShare.Access
