import DiagramShare.Proofs.Admission

/-! The decision on a document. The check of a caller, which looks up rows by number and asks the
store for a few shares, lets a caller through exactly where the rows of the store entitle the caller,
and refuses all others with the refusal that fits. -/
namespace DiagramShare.Service

open DiagramShare.Access
open DiagramShare.Repository (Memory Tables)
open DiagramShare.Time (Instant)

variable {c : Conditions} {w : World Memory}

def ShowsNothing (caller : Caller) : Prop := caller.user = none ∧ caller.token = none

theorem isAnonymous_iff {caller : Caller} : caller.isAnonymous = true ↔ ShowsNothing caller := by
  simp [Caller.isAnonymous, ShowsNothing]

/-- The refusal of what is not there, or is not open to a caller. -/
inductive Refused (t : Tables) (caller : Caller) (id : Int) (kind : Kind) (now : Instant) :
    Failure → Prop where
  | missing (absent : ¬ ∃ d ws, Present t d ws ∧ d.id = id) :
      Refused t caller id kind now (.notFound "document")
  | stranger (there : ∃ d ws, Present t d ws ∧ d.id = id)
      (unfit : ¬ Allowed t caller id kind now) (shows : ShowsNothing caller) :
      Refused t caller id kind now .unauthenticated
  | unfit (there : ∃ d ws, Present t d ws ∧ d.id = id)
      (unfit : ¬ Allowed t caller id kind now) (shows : ¬ ShowsNothing caller) :
      Refused t caller id kind now (.forbidden "document")

theorem present_unique {m : Memory} (numbered : m.Numbered) {d e : Document} {v ws : Workspace}
    (hd : Present m.tables d v) (he : Present m.tables e ws) (same : d.id = e.id) :
    d = e ∧ v = ws := by
  obtain rfl := Repository.eq_of_key numbered.documents hd.document he.document same
  have inside : v.id = ws.id := hd.inside.symm.trans he.inside
  exact ⟨rfl, Repository.eq_of_key numbered.workspaces hd.workspace he.workspace inside⟩

theorem ruling_cases {m : Memory} (numbered : m.Numbered) (caller : Caller) (id : Int)
    (kind : Kind) (now : Instant) :
    ((¬ ∃ d ws, Present m.tables d ws ∧ d.id = id) ∧
      ruling m.tables caller id kind now = .error (.notFound "document")) ∨
    ∃ d ws, Present m.tables d ws ∧ d.id = id ∧
      ((Entitled m.tables.shares caller kind now d ws ∧
          ruling m.tables caller id kind now = .ok (d, ws)) ∨
        (¬ Entitled m.tables.shares caller kind now d ws ∧
          ruling m.tables caller id kind now =
            .error (if caller.isAnonymous then .unauthenticated else .forbidden "document"))) := by
  cases found : target? m.tables id with
  | none =>
    refine .inl ⟨?_, ?_⟩
    · rintro ⟨d, ws, present, number⟩
      have there := (target_iff numbered).mpr ⟨present, number⟩
      rw [found] at there
      cases there
    · rw [ruling, found]
      rfl
  | some pair =>
    obtain ⟨d, ws⟩ := pair
    obtain ⟨present, number⟩ := (target_iff numbered).mp found
    refine .inr ⟨d, ws, present, number, ?_⟩
    rw [ruling, found, Option.map_some]
    rcases authorize_document m.tables.shares caller kind now present.inside
      present.documentLive present.workspaceLive with ⟨entitled, decided⟩ | ⟨unfit, decided⟩
    · exact .inl ⟨entitled, by rw [decided]; rfl⟩
    · exact .inr ⟨unfit, by rw [decided]; rfl⟩

theorem ruling_ok_iff {m : Memory} (numbered : m.Numbered) {caller : Caller} {id : Int}
    {kind : Kind} {now : Instant} {d : Document} {ws : Workspace} :
    ruling m.tables caller id kind now = .ok (d, ws) ↔
      Present m.tables d ws ∧ d.id = id ∧ Entitled m.tables.shares caller kind now d ws := by
  rcases ruling_cases numbered caller id kind now with
    ⟨absent, h⟩ | ⟨e, vs, present, number, ⟨entitled, h⟩ | ⟨unfit, h⟩⟩ <;> rw [h]
  · simp only [reduceCtorEq, false_iff]
    rintro ⟨present, number, _⟩
    exact absent ⟨d, ws, present, number⟩
  · simp only [Except.ok.injEq, Prod.mk.injEq]
    constructor
    · rintro ⟨rfl, rfl⟩
      exact ⟨present, number, entitled⟩
    · rintro ⟨present', number', _⟩
      exact present_unique numbered present present' (number.trans number'.symm)
  · simp only [reduceCtorEq, false_iff]
    rintro ⟨present', number', entitled⟩
    obtain ⟨rfl, rfl⟩ := present_unique numbered present present' (number.trans number'.symm)
    exact unfit entitled

theorem allowed_iff {m : Memory} (numbered : m.Numbered) {caller : Caller} {kind : Kind}
    {now : Instant} {d : Document} {ws : Workspace} (present : Present m.tables d ws) :
    Allowed m.tables caller d.id kind now ↔ Entitled m.tables.shares caller kind now d ws := by
  constructor
  · rintro ⟨e, vs, present', number, entitled⟩
    obtain ⟨rfl, rfl⟩ := present_unique numbered present' present number
    exact entitled
  · intro entitled
    exact ⟨d, ws, present, rfl, entitled⟩

theorem ruling_error_iff {m : Memory} (numbered : m.Numbered) {caller : Caller} {id : Int}
    {kind : Kind} {now : Instant} {e : Failure} :
    ruling m.tables caller id kind now = .error e ↔ Refused m.tables caller id kind now e := by
  rcases ruling_cases numbered caller id kind now with
    ⟨absent, h⟩ | ⟨d, ws, present, rfl, ⟨entitled, h⟩ | ⟨unfit, h⟩⟩ <;> rw [h]
  · simp only [Except.error.injEq]
    constructor
    · rintro rfl
      exact .missing absent
    · rintro (_ | ⟨there⟩ | ⟨there⟩)
      · rfl
      · exact absurd there absent
      · exact absurd there absent
  · simp only [reduceCtorEq, false_iff]
    have allowed := (allowed_iff numbered present).mpr entitled
    rintro (absent | ⟨_, unfit⟩ | ⟨_, unfit⟩)
    · exact absent ⟨d, ws, present, rfl⟩
    · exact unfit allowed
    · exact unfit allowed
  · have unfit' : ¬ Allowed m.tables caller d.id kind now := fun allowed =>
      unfit ((allowed_iff numbered present).mp allowed)
    have there : ∃ e vs, Present m.tables e vs ∧ e.id = d.id := ⟨d, ws, present, rfl⟩
    simp only [Except.error.injEq]
    constructor
    · rintro rfl
      by_cases shows : ShowsNothing caller
      · rw [if_pos (isAnonymous_iff.mpr shows)]
        exact .stranger there unfit' shows
      · rw [if_neg (mt isAnonymous_iff.mp shows)]
        exact .unfit there unfit' shows
    · rintro (absent | ⟨_, _, shows⟩ | ⟨_, _, shows⟩)
      · exact absurd there absent
      · rw [if_pos (isAnonymous_iff.mpr shows)]
      · rw [if_neg (mt isAnonymous_iff.mp shows)]

/-- In every state that requests lead to, a caller is let through to a document exactly where the
rows entitle the caller to it at the instant of the check, and is else refused as it fits. Looking
for the document and the workspace by number and asking only for some shares, or for none, makes no
difference: the answer is the one that the rules give over all shares. -/
theorem documentFor_decides (reached : Reachable w.store) (calm : c.Calm) (caller : Caller)
    (id : Int) (kind : Kind) :
    let out := (documentFor caller id kind).run inMemory c w
    let now := c.clock (out.1.readings - 1)
    Shown c w out.1 now ∧
    (∀ d ws, out.2.1 = .ok (d, ws) ↔ Present w.store.tables d ws ∧ d.id = id ∧
      Entitled w.store.tables.shares caller kind now d ws) ∧
    (∀ e, out.2.1 = .error e ↔ Refused w.store.tables caller id kind now e) ∧
    out.2.1 = settle caller "document" (target? w.store.tables id)
      (authorize ((target? w.store.tables id).map fun (d, ws) => .document d ws) caller kind
        w.store.tables.shares now) := by
  have numbered := reached.numbered
  obtain ⟨w', later, rfl, result⟩ := documentFor_calm calm numbered caller id kind
  intro out now
  have last : w.readings < out.1.readings := later
  refine ⟨⟨out.1.readings - 1, by omega, by omega, rfl⟩, ?_, ?_, result⟩
  · intro d ws
    rw [result]
    exact ruling_ok_iff numbered
  · intro e
    rw [result]
    exact ruling_error_iff numbered

/-- Whoever presents the token of the sample's share may write its document. -/
theorem link_opens_sample : Reachable sample.store ∧ steady.Calm ∧
    ∃ now, Allowed sample.store.tables ⟨none, some "a"⟩ 2 .write now := by
  have decides := documentFor_decides sample_reachable (c := steady) (fun _ => rfl)
    ⟨none, some "a"⟩ 2 .write
  obtain ⟨_, lets, _⟩ := decides
  have through : ((documentFor ⟨none, some "a"⟩ 2 .write).run inMemory steady
      sample).2.1.toOption.isSome = true := by decide +kernel
  cases result : ((documentFor ⟨none, some "a"⟩ 2 .write).run inMemory steady sample).2.1 with
  | error e => simp [result, Except.toOption] at through
  | ok pair =>
    obtain ⟨present, number, entitled⟩ := (lets pair.1 pair.2).mp result
    exact ⟨sample_reachable, fun _ => rfl, _, pair.1, pair.2, present, number, entitled⟩

end DiagramShare.Service
