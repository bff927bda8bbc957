import DiagramShare.Proofs.Attachments
import DiagramShare.Proofs.Availability
import DiagramShare.Proofs.Coupled

/-! Two services in step: one works on the store in memory, the other on the relational store, and
they hold the same rows and attachments under paired numbers. What either of them asks is answered
alike, and whoever is let through by one is let through by the other. -/
namespace DiagramShare

open DiagramShare.Time (Instant)

/-- An instant of whole microseconds outside leap seconds. -/
def Time.Instant.Whole (t : Instant) : Prop := t.nanos < 1000000000 ∧ t.nanos % 1000 = 0

theorem Time.Instant.ofMicros_le {m n : Int} (h : m ≤ n) : ofMicros m ≤ ofMicros n := by
  have positive : (0 : Int) ≤ 1000000 := by decide
  simp only [le_iff, ofMicros, Int.fdiv_eq_ediv_of_nonneg _ positive,
    Int.fmod_eq_emod_of_nonneg _ positive]
  omega

namespace Repository.Relational

theorem keep_le {s t : Instant} (le : s ≤ t) (ordinary : s.nanos < 1000000000) :
    keep s ≤ keep t := by
  refine Instant.ofMicros_le (Int.add_le_add_right (Int.tdiv_le_tdiv (by decide) ?_) _)
  simp only [Instant.le_iff] at le
  simp only [Instant.totalNanos]
  omega

theorem inRange_of_le {s t : Instant} (le : s ≤ t) (ordinary : s.nanos < 1000000000)
    (held : InRange s) : InRange t := by
  refine Int.le_trans held (Int.tdiv_le_tdiv (by decide) ?_)
  simp only [Instant.le_iff] at le
  simp only [Instant.totalNanos]
  omega

theorem keep_of_whole {t : Instant} (whole : t.Whole) : keep t = t := by
  obtain ⟨seconds, nanos, lt⟩ := t
  obtain ⟨ordinary, whole⟩ := whole
  dsimp only at ordinary whole
  let exact : Int := seconds * 1000000 + (nanos / 1000 : Nat)
  have total : Instant.totalNanos ⟨seconds, nanos, lt⟩ - epoch2000 * 1000 =
      (exact - epoch2000) * 1000 := by
    simp only [Instant.totalNanos, exact]
    omega
  have kept : keep ⟨seconds, nanos, lt⟩ = Instant.ofMicros exact := by
    rw [keep, micros, total, Int.mul_tdiv_cancel _ (by decide), Int.sub_add_cancel]
  have positive : (0 : Int) ≤ 1000000 := by decide
  simp only [kept, Instant.ofMicros, Instant.mk.injEq, Int.fdiv_eq_ediv_of_nonneg _ positive,
    Int.fmod_eq_emod_of_nonneg _ positive, exact]
  omega

end Repository.Relational

namespace Service

open DiagramShare.Access
open DiagramShare.Repository (Memory Relational Tables Call Coupled Same orNotFound)
open DiagramShare.Repository.Relational (InRange isSendable keep)
open DiagramShare.Storage (Backend)
open List (Forall₂)

/-- An instant that the two clocks pass at the same reading. -/
def Agreed (c c' : Conditions) (t : Instant) : Prop := ∀ n, t ≤ c.clock n ↔ t ≤ c'.clock n

/-- Conditions of two services that are run side by side: neither store fails from outside, neither
clock is turned back and the same tokens are drawn, none with a NUL character. -/
structure Paced (c c' : Conditions) : Prop where
  calm : c.Calm
  calm' : c'.Calm
  rising : ∀ m n, m ≤ n → c.clock m ≤ c.clock n
  rising' : ∀ m n, m ≤ n → c'.clock m ≤ c'.clock n
  tokens : c'.token = c.token
  sendable : ∀ n, isSendable (c'.token n) = true

/-- Conditions under which two services can be compared: the database can keep the tokens and the
instants that it is given, and its clock shows no leap second. -/
structure Comparable (c c' : Conditions) : Prop extends Paced c c' where
  held : ∀ n, InRange (c'.clock n)
  ordinary : ∀ n, (c'.clock n).nanos < 1000000000
  short : ∀ n, (c'.token n).length ≤ 64

theorem Comparable.later {c c' : Conditions} (cmp : Comparable c c') {expiry : Option Instant}
    {n : Nat} {u : Unit} (future : futureExpiry expiry (c'.clock n) = .ok u) :
    ∀ t ∈ expiry, InRange t := fun t given =>
  Repository.Relational.inRange_of_le (future_le future t given) (cmp.ordinary n) (cmp.held n)

/-- Worlds with the same rows and attachments under paired numbers that have come equally far. -/
structure InStep (c c' : Conditions) (π : Pairing) (w : World Memory) (w' : World Relational) :
    Prop where
  readings : w'.readings = w.readings
  drawn : w'.tokens = w.tokens
  backend : w.backend.Twin π.documents w'.backend
  coupled : Coupled π (Agreed c c') (c.clock w.readings) (keep (c'.clock w.readings)) w.store
    w'.store

def Beside (c c' : Conditions) (π : Pairing) (K : Memory → Prop) : Bond Memory Relational :=
  fun w w' => InStep c c' π w w' ∧ K w.store

def RefusedAlike (c c' : Conditions) (π : Pairing) (e e' : Failure) : Bond Memory Relational :=
  fun w w' => e'.code = e.code ∧ InStep c c' π w w'

abbrev sides (c c' : Conditions) : Duo Memory Relational := ⟨inMemory, inDatabase, c, c'⟩

abbrev Parallel (c c' : Conditions) (π : Pairing) (P : Bond Memory Relational) (p : Program α)
    (p' : Program β) (Q : α → β → Bond Memory Relational) : Prop :=
  (sides c c').Agrees (RefusedAlike c c' π) P p p' Q

variable {c c' : Conditions} {π : Pairing} {w : World Memory} {w' : World Relational}
variable {K : Memory → Prop}

theorem InStep.told (h : InStep c c' π w w') (cmp : Comparable c c') {π' : Pairing}
    (within : π.Within π') {m : Memory} {r : Relational}
    (coupled : Coupled π' (Agreed c c') (c.clock w.readings) (keep (c'.clock w.readings)) m r) :
    InStep c c' π' (w.told m) (w'.told r) :=
  ⟨congrArg (· + 1) h.readings, h.drawn, h.backend.mono within.documents,
    coupled.later (cmp.rising _ _ (Nat.le_succ _))
      (Repository.Relational.keep_le (cmp.rising' _ _ (Nat.le_succ _)) (cmp.ordinary _))⟩

theorem InStep.tick (h : InStep c c' π w w') (cmp : Comparable c c') :
    InStep c c' π { w with readings := w.readings + 1 }
      { w' with readings := w'.readings + 1 } :=
  ⟨congrArg (· + 1) h.readings, h.drawn, h.backend,
    h.coupled.later (cmp.rising _ _ (Nat.le_succ _))
      (Repository.Relational.keep_le (cmp.rising' _ _ (Nat.le_succ _)) (cmp.ordinary _))⟩

theorem Parallel.answers (cmp : Comparable c c') {call : Call α} {call' : Call β}
    (grown : α → β → Pairing) {F : α → β → Memory → Prop} {J : Memory → Prop}
    (within : ∀ a b, π.Within (grown a b))
    (same : ∀ n m r, Coupled π (Agreed c c') (c.clock n) (keep (c'.clock n)) m r → K m →
      Same (c.clock n) (c'.clock n) call call' m r
        (fun a b m' r' => F a b m' ∧
          Coupled (grown a b) (Agreed c c') (c.clock n) (keep (c'.clock n)) m' r')
        (fun m' r' => J m' ∧
          Coupled π (Agreed c c') (c.clock n) (keep (c'.clock n)) m' r')) :
    (sides c c').Answers (Beside c c' π K) call call'
      (fun a b => Beside c c' (grown a b) (F a b)) (Duo.Agrees.Alike (Beside c c' π J)) := by
  intro w w' holds
  obtain ⟨step, holds⟩ := holds
  have met := same w.readings w.store w'.store step.coupled holds
  dsimp only [inMemory, inDatabase]
  rw [step.readings]
  exact met.mono
    (fun a b done => ⟨step.told cmp (within a b) done.2, done.1⟩)
    fun e e' failed => ⟨failed.1, step.told cmp (Pairing.Within.refl π) failed.2.2, failed.2.1⟩

abbrev Rows (c c' : Conditions) (π : Pairing) (m : Memory) (r : Relational) : Prop :=
  ∃ time time', Coupled π (Agreed c c') time time' m r

theorem Parallel.answers_read (cmp : Comparable c c') {call : Call α} {call' : Call β}
    {texts : List String} {f : Tables → Except Repository.Failure α}
    {f' : Tables → Except Repository.Failure β} {F : α → β → Prop}
    (reads : ∀ now, Memory.answer now call = Memory.read f)
    (reads' : ∀ now, Relational.answer now call' = Relational.read texts f')
    (sendable : ∀ s ∈ texts, isSendable s = true)
    (met : ∀ m r, Rows c c' π m r → K m →
      Meet F (fun e e' => e = e') (f m.tables) (f' r.tables)) :
    (sides c c').Answers (Beside c c' π K) call call'
      (fun a b => Beside c c' π fun m => (F a b ∧ f m.tables = .ok a) ∧ K m)
      (Duo.Agrees.Alike (Beside c c' π K)) := by
  refine Parallel.answers cmp (fun _ _ => π) (fun _ _ => Pairing.Within.refl π) ?_
  intro n m r coupled holds
  refine .of_eq (congrFun (reads _) m)
    ((congrFun (reads' _) r).trans (Relational.read_eq sendable)) ?_
  exact (met m r ⟨_, _, coupled⟩ holds).known.mono
    (fun a b done => ⟨⟨done, holds⟩, coupled⟩) fun e e' failed => ⟨failed.1, holds, coupled⟩

section Questions

variable {call : Call α} {call' : Call β} {F : α → β → Prop}

theorem Parallel.query_read (cmp : Comparable c c') {texts : List String} {f : Tables → α}
    {g : Tables → β}
    (reads : ∀ now, Memory.answer now call = Memory.read fun t => .ok (f t))
    (reads' : ∀ now, Relational.answer now call' = Relational.read texts fun t => .ok (g t))
    (sendable : ∀ s ∈ texts, isSendable s = true)
    (alike : ∀ m r, Rows c c' π m r → K m → F (f m.tables) (g r.tables)) :
    Parallel c c' π (Beside c c' π K) (Program.query call) (Program.query call')
      fun a b w w' => F a b ∧ Beside c c' π (fun m => f m.tables = a ∧ K m) w w' := by
  have asked := Duo.Agrees.query (D := sides c c') (E := RefusedAlike c c' π) cmp.calm cmp.calm'
    (answers_read cmp reads reads' sendable fun m r rows holds => .ok (alike m r rows holds))
    fun e w w' failed => ⟨rfl, failed.1⟩
  exact asked.after fun a b w w' done =>
    ⟨done.2.1.1, done.1, Except.ok.inj done.2.1.2, done.2.2⟩

theorem meet_orNotFound {a : Option α} {b : Option β} (h : Option.Rel F a b) :
    Meet F (fun e e' => e = e') (orNotFound a) (orNotFound b) := by
  cases h with
  | some alike => exact .ok alike
  | none => exact .error rfl

section Rows

variable {f : Tables → Option α} {g : Tables → Option β}
variable (reads : ∀ now, Memory.answer now call = Memory.read fun t => orNotFound (f t))
variable (reads' : ∀ now, Relational.answer now call' = Relational.read [] fun t =>
  orNotFound (g t))
variable (alike : ∀ m r, Rows c c' π m r → K m → Option.Rel F (f m.tables) (g r.tables))

include reads reads' alike

theorem Parallel.lookUp_row (cmp : Comparable c c') (what : String) :
    Parallel c c' π (Beside c c' π K) (Program.lookUp what call) (Program.lookUp what call')
      fun a b w w' => F a b ∧ Beside c c' π (fun m => f m.tables = some a ∧ K m) w w' := by
  have asked := Duo.Agrees.lookUp (D := sides c c') (E := RefusedAlike c c' π) what cmp.calm
    cmp.calm' (Parallel.answers_read cmp reads reads' (List.forall_mem_nil _) fun m r rows holds =>
      meet_orNotFound (alike m r rows holds)) fun e w w' failed => ⟨rfl, failed.1⟩
  exact asked.after fun a b w w' done =>
    ⟨done.2.1.1, done.1, orNotFound_ok.mp done.2.1.2, done.2.2⟩

theorem Parallel.find_row (cmp : Comparable c c') :
    Parallel c c' π (Beside c c' π K) (Program.find? call) (Program.find? call')
      fun a b w w' => Option.Rel F a b ∧ Beside c c' π (fun m => f m.tables = a ∧ K m) w w' := by
  refine Duo.Agrees.find (D := sides c c') cmp.calm cmp.calm' fun w w' holds => ?_
  obtain ⟨step, holds⟩ := holds
  have told := step.told cmp (Pairing.Within.refl π) step.coupled
  have alike := alike _ _ ⟨_, _, step.coupled⟩ holds
  dsimp only [inMemory, inDatabase]
  rw [reads, reads', Memory.read, Relational.read_eq (List.forall_mem_nil _)]
  generalize found : f w.store.tables = a at alike
  generalize g w'.store.tables = b at alike
  cases alike with
  | some alike => exact .ok ⟨.some alike, told, found, holds⟩
  | none => exact .error ⟨rfl, rfl, .none, told, found, holds⟩

end Rows

end Questions

section Decisions

variable {caller : Caller} {kind : Kind} {ws ws' : Workspace} {d d' : Document} {now now' : Instant}
variable {agreed : Instant → Prop}

theorem permissionOf_twin (on : Stand π.documents d.id d'.id)
    (passed : ∀ t, agreed t → (t ≤ now' ↔ t ≤ now)) {grants grants' : List Share}
    (granted : Forall₂ (Tables.Twin.Granted π agreed) grants grants') :
    permissionOf d'.id caller grants' now' = permissionOf d.id caller grants now := by
  have applied : ∀ s s', Tables.Twin.Granted π agreed s s' →
      applies s d.id caller now = applies s' d'.id caller now' := by
    intro s s' r
    have expired : s'.isExpired now' = s.isExpired now := by
      rw [Share.isExpired, Share.isExpired, r.1.expiresAt]
      cases given : s.expiresAt with
      | none => rfl
      | some t => exact decide_eq_decide.mpr (passed t (r.2 t given))
    simp only [applies, Share.isUsable, on.beq r.1.document, r.1.live, r.1.user, r.1.token, expired]
  rw [permissionOf, permissionOf,
    Repository.map_twin (Repository.filter_twin granted applied) fun _ _ r => r.1.permission]

theorem authorize_document_twin (alike : d.Alike π d') (inside : ws.Alike π ws')
    (on : Stand π.documents d.id d'.id) (within : Stand π.workspaces ws.id ws'.id)
    (passed : ∀ t, agreed t → (t ≤ now' ↔ t ≤ now)) {grants grants' : List Share}
    (granted : Forall₂ (Tables.Twin.Granted π agreed) grants grants') :
    authorize (some (.document d' ws')) caller kind grants' now' =
      authorize (some (.document d ws)) caller kind grants now := by
  have permission :
      permissionOf d'.id caller grants' now' = permissionOf d.id caller grants now :=
    permissionOf_twin on passed granted
  exact authorize_document_congr alike.live inside.live (within.beq alike.workspace).symm
    inside.owner alike.isPublic inside.isPublic permission

end Decisions

theorem settle_meet {caller : Caller} {what : String} {found : Option α} {found' : Option β}
    {R : α → β → Prop} (alike : Option.Rel R found found') {decision : Decision} :
    Meet (fun a b => R a b ∧ found = some a ∧ decision = .allowed) (fun e e' => e' = e)
      (settle caller what found decision) (settle caller what found' decision) := by
  unfold settle
  cases refused : decision.refusal? caller what with
  | some e => exact .error rfl
  | none =>
    cases alike with
    | some alike => exact .ok ⟨alike, rfl, refusal_none refused⟩
    | none => exact .error rfl

theorem letThrough_parallel {caller : Caller} {kind : Kind} {what : String} {id id' : Int}
    {found : Option α} {found' : Option β} {resource : α → Resource} {resource' : β → Resource}
    {grants grants' : List Share} {R : α → β → Prop} (alike : Option.Rel R found found')
    (same : ∀ now now', (∀ t, Agreed c c' t → (t ≤ now' ↔ t ≤ now)) → ∀ a b, R a b →
      authorize (some (resource' b)) caller kind grants' now' =
        authorize (some (resource a)) caller kind grants now) (cmp : Comparable c c') :
    Parallel c c' π (Beside c c' π K) (letThrough caller kind what id found resource grants)
      (letThrough caller kind what id' found' resource' grants') fun a b w w' =>
        (R a b ∧ found = some a ∧
          ∃ now, authorize (some (resource a)) caller kind grants now = .allowed) ∧
        Beside c c' π K w w' := by
  rintro w w' v v' r r' ⟨step, holds⟩ ends ends'
  have here : (letThrough caller kind what id found resource grants).Ends inMemory c w _ _ :=
    letThrough_ends what found resource grants w
  have there : (letThrough caller kind what id' found' resource' grants').Ends inDatabase c' w' _
      _ := letThrough_ends what found' resource' grants' w'
  obtain rfl := here.1.symm.trans ends.1
  obtain rfl := there.1.symm.trans ends'.1
  obtain rfl := here.2.symm.trans ends.2
  obtain rfl := there.2.symm.trans ends'.2
  have passed : ∀ t, Agreed c c' t → (t ≤ c'.clock w'.readings ↔ t ≤ c.clock w.readings) := by
    intro t agreed
    rw [step.readings]
    exact (agreed w.readings).symm
  have decided : authorize (found'.map resource') caller kind grants' (c'.clock w'.readings) =
      authorize (found.map resource) caller kind grants (c.clock w.readings) := by
    cases alike with
    | none => rfl
    | some alike => exact same _ _ passed _ _ alike
  rw [decided]
  refine (settle_meet alike).mono ?_ ?_
  · rintro a b ⟨row, there, allowed⟩
    subst there
    exact ⟨⟨row, rfl, _, allowed⟩, step.tick cmp, holds⟩
  · rintro e e' rfl
    exact ⟨rfl, step.tick cmp⟩

section Targets

variable {caller : Caller} {id id' : Int} (kind : Kind)

theorem findWorkspace_parallel (cmp : Comparable c c') (stand : Stand π.workspaces id id') :
    Parallel c c' π (Beside c c' π K) (Program.find? (.findWorkspace id))
      (Program.find? (.findWorkspace id')) fun a b w w' => Option.Rel (Workspace.Alike π) a b ∧
        Beside c c' π (fun m => m.tables.workspace? id = a ∧ K m) w w' :=
  Parallel.find_row (f := fun t => t.workspace? id) (g := fun t => t.workspace? id')
    (fun _ => rfl) (fun _ => rfl)
    (fun _ _ rows _ => let ⟨_, _, coupled⟩ := rows; coupled.tables.workspace stand) cmp

theorem workspaceFor_parallel (cmp : Comparable c c') (stand : Stand π.workspaces id id') :
    Parallel c c' π (Beside c c' π K) (workspaceFor caller id kind) (workspaceFor caller id' kind)
      fun a b w w' => (a.Alike π b ∧ (kind ≠ .read → caller.user = some a.owner)) ∧
        Beside c c' π (fun m => m.tables.workspace? id = some a ∧ K m) w w' := by
  refine (findWorkspace_parallel cmp stand).bind fun row row' => .given fun alike => ?_
  refine (letThrough_parallel alike (fun now now' _ a b r =>
    authorize_workspace_congr r.live r.owner r.isPublic) cmp).after fun a b w w' done => ?_
  obtain ⟨⟨same, found, now, allowed⟩, beside⟩ := done
  subst found
  exact ⟨⟨same, fun changing => authorize_workspace_allowed changing allowed⟩, beside⟩

theorem workspaceOf_parallel (cmp : Comparable c c') (fair : π.OneToOne) {d d' : Option Document}
    (alike : Option.Rel (Document.Alike π) d d') :
    Parallel c c' π (Beside c c' π K) (workspaceOf d) (workspaceOf d')
      fun a b w w' => Option.Rel (Workspace.Alike π) a b ∧ Beside c c' π K w w' := by
  cases alike with
  | none => exact .done fun _ _ h => ⟨.none, h⟩
  | some alike =>
    exact (findWorkspace_parallel cmp (fair.workspaces _ alike.workspace)).after
      fun a b w w' done => ⟨done.1, done.2.1, done.2.2.2⟩

def Targeted (π : Pairing) (a b : Document × Workspace) : Prop :=
  a.1.Alike π b.1 ∧ a.2.Alike π b.2

theorem both_some {d : Option Document} {ws : Option Workspace} {a : Document × Workspace}
    (found : both d ws = some a) : d = some a.1 ∧ ws = some a.2 := by
  cases d <;> cases ws <;> cases found
  exact ⟨rfl, rfl⟩

theorem both_rel {R : Document → Document → Prop} {S : Workspace → Workspace → Prop}
    {d d' : Option Document} {ws ws' : Option Workspace} (rows : Option.Rel R d d')
    (rowsW : Option.Rel S ws ws') :
    Option.Rel (fun a b => R a.1 b.1 ∧ S a.2 b.2) (both d ws) (both d' ws') := by
  cases rows with
  | none => exact .none
  | some row =>
    cases rowsW with
    | none => exact .none
    | some rowW => exact .some ⟨row, rowW⟩

theorem grantsFor_parallel (cmp : Comparable c c') (fair : π.OneToOne)
    (token : ∀ s ∈ caller.token, isSendable s = true) {a b : Option (Document × Workspace)}
    (alike : Option.Rel (Targeted π) a b) :
    Parallel c c' π (Beside c c' π K) (grantsFor caller a) (grantsFor caller b)
      fun grants grants' w w' => Forall₂ (Tables.Twin.Granted π (Agreed c c')) grants grants' ∧
        Beside c c' π K w w' := by
  cases alike with
  | none => exact .done fun _ _ h => ⟨.nil, h⟩
  | @some a b alike =>
    obtain ⟨d, ws⟩ := a
    obtain ⟨d', ws'⟩ := b
    obtain ⟨alike, inside⟩ : d.Alike π d' ∧ ws.Alike π ws' := alike
    simp only [grantsFor, inside.owner]
    split
    · exact .done fun _ _ h => ⟨.nil, h⟩
    · refine (Parallel.query_read (F := Forall₂ (Tables.Twin.Granted π (Agreed c c')))
        (f := fun t => t.grants d.id caller.user caller.token)
        (g := fun t => t.grants d'.id caller.user caller.token) cmp (fun _ => rfl) (fun _ => rfl)
        (fun s hs => token s (Option.mem_toList.mp hs)) ?_).after ?_
      · rintro m r ⟨_, _, coupled⟩ _
        exact coupled.tables.grants (fair.documents _ alike.paired) _ _
      · exact fun _ _ _ _ done => ⟨done.1, done.2.1, done.2.2.2⟩

theorem documentFor_parallel (cmp : Comparable c c') (fair : π.OneToOne)
    (token : ∀ s ∈ caller.token, isSendable s = true) (stand : Stand π.documents id id') :
    Parallel c c' π (Beside c c' π K) (documentFor caller id kind) (documentFor caller id' kind)
      fun a b w w' => Targeted π a b ∧
        Beside c c' π (fun m => m.tables.document? id = some a.1 ∧ K m) w w' := by
  refine Duo.Agrees.bind (Parallel.find_row (f := fun t => t.document? id)
    (g := fun t => t.document? id') (F := Document.Alike π) (fun _ => rfl) (fun _ => rfl)
    (fun _ _ rows _ => let ⟨_, _, coupled⟩ := rows; coupled.tables.document stand) cmp)
    fun d d' => .given fun alike => ?_
  refine (workspaceOf_parallel cmp fair alike).bind fun ws ws' => .given fun inside => ?_
  have target : Option.Rel (Targeted π) (both d ws) (both d' ws') := both_rel alike inside
  refine (grantsFor_parallel cmp fair token target).bind fun grants grants' =>
    .given fun granted => ?_
  refine (letThrough_parallel target (fun now now' passed a b r => ?_) cmp).after
    fun a b w w' done => ?_
  · exact authorize_document_twin r.1 r.2 (fair.documents _ r.1.paired)
      (fair.workspaces _ r.2.paired) passed granted
  · obtain ⟨⟨same, found, _⟩, step, there, holds⟩ := done
    exact ⟨same, step, there.trans (both_some found).1, holds⟩

end Targets

end Service

end DiagramShare
