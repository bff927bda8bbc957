import DiagramShare.Proofs.Acceptance
import DiagramShare.Proofs.Admission
import DiagramShare.Proofs.Results
import DiagramShare.Service.Operation

/-! Programs over the relational store that are not refused by the database. What each call keeps of
the rows, the states that requests lead to, and for each part of a program what must hold before it
so that it goes on or is refused by a rule. -/
namespace DiagramShare.Repository.Relational

open DiagramShare.Time (Instant)

structure Sound (r : Relational) : Prop where
  owners : ∀ w ∈ r.tables.workspaces, w.owner ∈ r.users

theorem sound_empty : Relational.empty.Sound := ⟨nofun⟩

variable {r r' : Relational} {now : Instant}

structure Unmoved (r r' : Relational) : Prop where
  users : r'.users = r.users
  rows : r'.tables.workspaces = r.tables.workspaces

theorem Unmoved.refl (r : Relational) : Unmoved r r := ⟨rfl, rfl⟩

theorem Unmoved.trans {r'' : Relational} (h : Unmoved r r') (k : Unmoved r' r'') : Unmoved r r'' :=
  ⟨k.users.trans h.users, k.rows.trans h.rows⟩

theorem Sound.unmoved (h : r.Sound) (unmoved : Unmoved r r') : r'.Sound :=
  ⟨fun w hw => unmoved.users ▸ h.owners w (unmoved.rows ▸ hw)⟩

theorem require_ok {holds : Bool} {failure : Failure} {u : Unit}
    (h : require holds failure = .ok u) : holds = true := by
  cases holds with
  | true => rfl
  | false => cases h

theorem ensureUser_sound (h : r.Sound) (id : Int) : (ensureUser id r).1.Sound := by
  unfold ensureUser
  split
  · exact h
  · split
    · exact h
    · exact ⟨fun w hw => List.mem_append_left _ (h.owners w hw)⟩

theorem ensureUser_tables (id : Int) : (ensureUser id r).1.tables = r.tables := by
  unfold ensureUser
  split
  · rfl
  · split <;> rfl

theorem createWorkspace_sound (h : r.Sound) (new : NewWorkspace) :
    (createWorkspace new now r).1.Sound := by
  simp only [createWorkspace]
  split
  · exact h
  · rename_i sent _
    split
    · exact h.unmoved ⟨rfl, rfl⟩
    · rename_i checked
      obtain ⟨_, _, known⟩ := bind_ok checked
      refine ⟨fun w hw => ?_⟩
      rcases List.mem_append.mp hw with hw | hw
      · exact h.owners w hw
      · cases List.mem_singleton.mp hw
        exact List.contains_iff_mem.mp (require_ok known)

theorem setWorkspace_sound (h : r.Sound) {w : Workspace} (known : w.owner ∈ r.users) :
    ({ r with tables := r.tables.setWorkspace w } : Relational).Sound :=
  ⟨forall_updateWhere (fun _ _ _ => known) fun v hv _ => h.owners v hv⟩

theorem updateWorkspace_sound (h : r.Sound) (id : Int) (changes : WorkspaceChanges) :
    (updateWorkspace id changes now r).1.Sound := by
  simp only [updateWorkspace]
  split
  · exact h
  · rename_i row updated
    obtain ⟨_, _, updated⟩ := bind_ok updated
    obtain ⟨_, _, updated⟩ := bind_ok updated
    obtain ⟨w, found, updated⟩ := bind_ok updated
    obtain ⟨_, _, updated⟩ := bind_ok updated
    cases updated
    refine setWorkspace_sound h (h.owners w ?_)
    cases there : r.tables.workspace? id with
    | none => rw [there] at found; cases found
    | some v =>
      rw [there] at found
      cases found
      exact List.mem_of_find?_eq_some there

theorem deleteWorkspace_sound (h : r.Sound) (id : Int) (time : Instant) :
    (deleteWorkspace id time r).1.Sound := by
  simp only [deleteWorkspace, eraseWorkspace]
  split
  · exact h
  · cases found : r.tables.workspace? id with
    | none => exact h
    | some w =>
      have known := h.owners w (List.mem_of_find?_eq_some found)
      exact (setWorkspace_sound h (w := w.tombstone _) known).unmoved ⟨rfl, rfl⟩

theorem createDocument_unmoved (new : NewDocument) : Unmoved r (createDocument new now r).1 := by
  simp only [createDocument]
  split
  · exact .refl r
  · split <;> exact ⟨rfl, rfl⟩

theorem createNextVersion_unmoved (new : NewVersion) :
    Unmoved r (createNextVersion new now r).1 := by
  simp only [createNextVersion]
  split
  · exact .refl r
  · split <;> exact ⟨rfl, rfl⟩

theorem createDocumentWithVersion_unmoved (new : NewDocument) (first : Option FirstVersion) :
    Unmoved r (createDocumentWithVersion new first now r).1 := by
  have made : Unmoved r (createDocument new now r).1 := createDocument_unmoved new
  unfold createDocumentWithVersion
  split
  · rename_i result
    rw [result] at made
    exact made
  · rename_i r₁ d result
    rw [result] at made
    cases first with
    | none => exact made
    | some f =>
      have added : Unmoved r₁ (createNextVersion (f.of d.id) now r₁).1 :=
        createNextVersion_unmoved _
      simp only
      split
      · rename_i result
        rw [result] at added
        exact made.trans added
      · rename_i result
        rw [result] at added
        exact made.trans ⟨added.users, made.rows.symm⟩

theorem updateDocument_unmoved (id : Int) (changes : DocumentChanges) :
    Unmoved r (updateDocument id changes now r).1 := by
  simp only [updateDocument]
  split
  · exact .refl r
  · exact ⟨rfl, rfl⟩

theorem deleteDocument_unmoved (id : Int) (time : Instant) :
    Unmoved r (deleteDocument id time r).1 := by
  simp only [deleteDocument, Tables.deleteDocument]
  split
  · exact .refl r
  · cases r.tables.document? id with
    | none => exact .refl r
    | some d => exact ⟨rfl, rfl⟩

theorem createShare_unmoved (new : NewShare) : Unmoved r (createShare new now r).1 := by
  simp only [createShare]
  split
  · exact .refl r
  · split <;> exact ⟨rfl, rfl⟩

theorem updateShare_unmoved (id : Int) (changes : ShareChanges) :
    Unmoved r (updateShare id changes now r).1 := by
  simp only [updateShare]
  split
  · exact .refl r
  · exact ⟨rfl, rfl⟩

theorem deleteShare_unmoved (id : Int) (time : Instant) :
    Unmoved r (deleteShare id time r).1 := by
  simp only [deleteShare, Tables.deleteShare]
  split
  · exact .refl r
  · cases r.tables.share? id with
    | none => exact .refl r
    | some s => exact ⟨rfl, rfl⟩

theorem answer_sound (h : r.Sound) (call : Call β) (now : Instant) :
    (answer now call r).1.Sound := by
  cases call with
  | ensureUser id => exact ensureUser_sound h id
  | createWorkspace new => exact createWorkspace_sound h new
  | updateWorkspace id changes => exact updateWorkspace_sound h id changes
  | deleteWorkspace id time => exact deleteWorkspace_sound h id time
  | createDocument new => exact h.unmoved (createDocument_unmoved new)
  | createDocumentWithVersion new first =>
    exact h.unmoved (createDocumentWithVersion_unmoved new first)
  | updateDocument id changes => exact h.unmoved (updateDocument_unmoved id changes)
  | deleteDocument id time => exact h.unmoved (deleteDocument_unmoved id time)
  | createNextVersion new => exact h.unmoved (createNextVersion_unmoved new)
  | createShare new => exact h.unmoved (createShare_unmoved new)
  | updateShare id changes => exact h.unmoved (updateShare_unmoved id changes)
  | deleteShare id time => exact h.unmoved (deleteShare_unmoved id time)
  | _ => exact h

end DiagramShare.Repository.Relational

namespace DiagramShare.Service

open DiagramShare.Access
open DiagramShare.Repository (Relational Call Tables)
open DiagramShare.Repository.Relational (isSendable InRange)
open DiagramShare.Time (Instant)

/-- What requests lead to from an empty database, whoever makes them and whatever they meet. -/
inductive Stored : Relational → Prop where
  | empty : Stored .empty
  | served {w : World Relational} (before : Stored w.store) (c : Conditions) (caller : Caller)
      (op : Operation) : Stored ((serve caller op).run inDatabase c w).1.store

variable {c : Conditions} {w w' : World Relational} {r : Relational} {α β : Type}

theorem Stored.holds {P : Relational → Prop} (empty : P .empty)
    (calls : ∀ {β} (call : Call β) now r, P r → P (Relational.answer now call r).1)
    (stored : Stored r) : P r := by
  induction stored with
  | empty => exact empty
  | @served w before c caller op ih =>
    refine ends_closed (R := fun (w w' : World Relational) => P w.store → P w'.store)
      (fun first rest h => rest (first h)) (fun call w h => ?_) (fun same _ h => same ▸ h)
      (ends_run (s := inDatabase) (c := c) _ _) ih
    unfold World.ask
    split
    · exact h
    · exact calls call _ _ h

theorem Stored.sound (stored : Stored r) : r.Sound :=
  stored.holds Relational.sound_empty fun call now _ sound => Relational.answer_sound sound call now

def Blameless (storage : Prop) (e : Failure) : Prop :=
  ∀ cause, e = .unavailable cause → storage ∧ ∃ failure, cause = .storage failure

abbrev Assertion := Relational → Nat → Prop

/-- From where `P` holds, a program leads to where `Q` holds of its result, or it fails without the
database having a part in it. -/
def Program.Served (c : Conditions) (storage : Prop) (P : Assertion) (p : Program α)
    (Q : α → Assertion) : Prop :=
  ∀ w w' r, P w.store w.tokens → p.Ends inDatabase c w w' r →
    (∀ a, r = .ok a → Q a w'.store w'.tokens) ∧ ∀ e, r = .error e → Blameless storage e

def Answered (c : Conditions) (P : Assertion) (call : Call α) (Q : α → Assertion) : Prop :=
  ∀ r n k, P r k → let out := Relational.answer (c.clock n) call r
    (∀ a, out.2 = .ok a → Q a out.1 k) ∧ ∀ e, out.2 = .error e → backendText? e = none

variable {storage : Prop} {P P' : Assertion} {Q Q' : α → Assertion} {R : β → Assertion}

namespace Program.Served

theorem bind {p : Program α} {f : α → Program β} (first : p.Served c storage P Q)
    (rest : ∀ a, (f a).Served c storage (Q a) R) : (p >>= f).Served c storage P R := by
  intro w w' r holds ends
  rcases ends_bind.mp ends with ⟨e, failed, rfl⟩ | ⟨v, a, done, ends⟩
  · refine ⟨nofun, fun e' same => ?_⟩
    cases same
    exact (first w w' _ holds failed).2 e rfl
  · exact rest a v w' r ((first w v _ holds done).1 a rfl) ends

theorem weaken {p : Program α} (h : p.Served c storage P Q) (pre : ∀ r k, P' r k → P r k)
    (post : ∀ a r k, Q a r k → Q' a r k) : p.Served c storage P' Q' := by
  intro w w' r holds ends
  obtain ⟨done, failed⟩ := h w w' r (pre _ _ holds) ends
  exact ⟨fun a same => post a _ _ (done a same), failed⟩

theorem given {F : Prop} {p : Program α} (h : F → p.Served c storage P Q) :
    p.Served c storage (fun r k => P r k ∧ F) Q :=
  fun w w' r holds => h holds.2 w w' r holds.1

theorem done (a : α) (holds : ∀ r k, P r k → Q a r k) : (Program.done a).Served c storage P Q := by
  intro w w' r pre ends
  obtain ⟨rfl, rfl⟩ := ends_done.mp ends
  refine ⟨fun b same => ?_, nofun⟩
  cases same
  exact holds _ _ pre

theorem fail (e : Failure) (blameless : Blameless storage e) :
    (Program.fail e : Program α).Served c storage P Q := by
  intro w w' r _ ends
  obtain ⟨rfl, rfl⟩ := ends_fail.mp ends
  refine ⟨nofun, fun e' same => ?_⟩
  cases same
  exact blameless

theorem ask {call : Call β} {next : Except Repository.Failure β → Program α} (calm : c.Calm)
    (answered : Answered c P call R)
    (done : ∀ a, (next (.ok a)).Served c storage (R a) Q)
    (failed : ∀ e, backendText? e = none →
      (next (.error e)).Served c storage (fun _ _ => True) Q) :
    (Program.ask call next).Served c storage P Q := by
  intro w w' r holds ends
  obtain ⟨v, a, ⟨rfl, rfl⟩, ends⟩ := ends_ask.mp ends
  rw [ask_calm calm] at ends
  obtain ⟨ok, bad⟩ := answered w.store w.readings w.tokens holds
  change (next (Relational.answer (c.clock w.readings) call w.store).2).Ends _ _ _ _ _ at ends
  cases result : (Relational.answer (c.clock w.readings) call w.store).2 with
  | ok a =>
    rw [result] at ends
    exact done a _ w' r (ok a result) ends
  | error e =>
    rw [result] at ends
    exact failed e (bad e result) _ w' r trivial ends

theorem ask_ok {call : Call β} {next : Except Repository.Failure β → Program α} (calm : c.Calm)
    (answers : ∀ r n k, P r k → ∃ a, (Relational.answer (c.clock n) call r).2 = .ok a ∧
      R a (Relational.answer (c.clock n) call r).1 k)
    (done : ∀ a, (next (.ok a)).Served c storage (R a) Q) :
    (Program.ask call next).Served c storage P Q := by
  intro w w' r holds ends
  obtain ⟨v, a, ⟨rfl, rfl⟩, ends⟩ := ends_ask.mp ends
  rw [ask_calm calm] at ends
  obtain ⟨a, result, there⟩ := answers w.store w.readings w.tokens holds
  change (next (Relational.answer (c.clock w.readings) call w.store).2).Ends _ _ _ _ _ at ends
  rw [result] at ends
  exact done a _ w' r there ends

theorem store {call : Storage.Call β} {next : Except Storage.Failure β → Program α}
    (rest : ∀ r, (next r).Served c storage P Q) :
    (Program.store call next).Served c storage P Q := by
  intro w w' r holds ends
  obtain ⟨backend, a, ends⟩ := ends_store ends
  have result := rest a _ w' r (by exact holds) ends
  exact result

theorem freshToken : Program.freshToken.Served c storage P fun token r _ =>
    ∃ drawn, token = c.token drawn ∧ P r drawn := by
  intro w w' r holds ends
  obtain ⟨rfl, rfl⟩ := ends_freshToken.mp ends
  refine ⟨fun token same => ?_, nofun⟩
  cases same
  exact ⟨w.tokens, rfl, holds⟩

theorem blameless_ofRepository {e : Repository.Failure} (none : backendText? e = none) :
    Blameless storage (.ofRepository e) := by
  intro cause same
  cases e <;> simp_all [backendText?, Failure.ofRepository]

theorem blameless_ofLookup {e : Repository.Failure} {what : String} (none : backendText? e = none) :
    Blameless storage (.ofLookup what e) := by
  intro cause same
  cases e <;> simp_all [backendText?, Failure.ofLookup, Failure.ofRepository]

theorem query {call : Call α} (calm : c.Calm) (answered : Answered c P call Q) :
    (Program.query call).Served c storage P Q :=
  .ask calm answered (fun a => .done a fun _ _ h => h)
    fun _ none => .fail _ (blameless_ofRepository none)

theorem lookUp {what : String} {call : Call α} (calm : c.Calm) (answered : Answered c P call Q) :
    (Program.lookUp what call).Served c storage P Q :=
  .ask calm answered (fun a => .done a fun _ _ h => h)
    fun _ none => .fail _ (blameless_ofLookup none)

theorem obey (checked : Except Invalid α) :
    (Program.obey checked).Served c storage P fun a r k => P r k ∧ checked = .ok a := by
  cases checked with
  | ok a => exact .done a fun _ _ h => ⟨h, rfl⟩
  | error e => exact .fail _ (by intro cause same; cases same)

theorem refuseIf (found : Bool) (clash : Clash) :
    (Program.refuseIf found clash).Served c storage P fun _ r k => P r k ∧ found = false := by
  cases found with
  | false => exact .done () fun _ _ h => ⟨h, rfl⟩
  | true => exact .fail _ (by intro cause same; cases same)

theorem note (level : Level) (text : String) :
    (Program.note level text).Served c storage P fun _ => P := by
  intro w w' r holds ends
  obtain ⟨rfl, rfl⟩ := ends_note.mp ends
  exact ⟨fun _ _ => holds, nofun⟩

theorem clock : Program.clock.Served c storage P fun now r k =>
    P r k ∧ ∃ n, now = c.clock n := by
  intro w w' r holds ends
  obtain ⟨rfl, rfl⟩ := ends_clock.mp ends
  refine ⟨fun now same => ?_, nofun⟩
  cases same
  exact ⟨holds, w.readings, rfl⟩

end Program.Served

open Repository (orNotFound)

theorem answered_read {call : Call α} {texts : List String}
    {f : Tables → Except Repository.Failure α}
    (reads : ∀ now, Relational.answer now call = Relational.read texts f)
    (sendable : ∀ s ∈ texts, isSendable s = true)
    (fine : ∀ t e, f t = .error e → backendText? e = none) :
    Answered c P call fun a r k => P r k ∧ f r.tables = .ok a := by
  intro r n k holds
  simp only [reads, Relational.read_eq sendable]
  exact ⟨fun a same => ⟨holds, same⟩, fine r.tables⟩

theorem fine_ok {g : Tables → α} (t : Tables) (e : Repository.Failure)
    (failed : (Except.ok (g t) : Except Repository.Failure α) = .error e) :
    backendText? e = none := nomatch failed

theorem fine_orNotFound {g : Tables → Option α} (t : Tables) (e : Repository.Failure)
    (failed : orNotFound (g t) = .error e) : backendText? e = none := by
  cases there : g t with
  | none => rw [there] at failed; cases failed; rfl
  | some a => rw [there] at failed; cases failed

namespace Program.Served

theorem find {call : Call α} {g : Tables → Option α} (calm : c.Calm)
    (reads : ∀ now, Relational.answer now call = Relational.read [] fun t => orNotFound (g t)) :
    (Program.find? call).Served c storage P fun o r k => P r k ∧ g r.tables = o := by
  intro w w' r holds ends
  obtain ⟨v, a, ⟨rfl, rfl⟩, ends⟩ := ends_ask.mp ends
  rw [ask_calm calm] at ends
  simp only [inDatabase, reads, Relational.read_eq (List.forall_mem_nil _)] at ends
  let T : Option α → Assertion := fun o r k => P r k ∧ g r.tables = o
  cases there : g w.store.tables with
  | none =>
    have absent : (Program.done none).Served c storage (T none) T := done none fun _ _ h => h
    simp only [there, orNotFound] at ends
    exact absent _ w' r (by exact ⟨holds, there⟩) ends
  | some row =>
    have present : (Program.done (some row)).Served c storage (T (some row)) T :=
      done (some row) fun _ _ h => h
    simp only [there, orNotFound] at ends
    exact present _ w' r (by exact ⟨holds, there⟩) ends

theorem query_read {call : Call α} {texts : List String} {g : Tables → α} (calm : c.Calm)
    (reads : ∀ now, Relational.answer now call = Relational.read texts fun t => .ok (g t))
    (sendable : ∀ s ∈ texts, isSendable s = true) :
    (Program.query call).Served c storage P fun a r k => P r k ∧ g r.tables = a :=
  (query calm (answered_read reads sendable fine_ok)).weaken (fun _ _ h => h)
    fun _ _ _ h => ⟨h.1, Except.ok.inj h.2⟩

end Program.Served

theorem settle_blameless {caller : Caller} {what : String} {found : Option α} {decision : Decision}
    {e : Failure} (refused : settle caller what found decision = .error e) :
    Blameless storage e := by
  intro cause same
  subst same
  unfold settle at refused
  split at refused
  · rename_i refusal
    cases decision <;> simp [Decision.refusal?] at refusal
    · split at refusal <;> simp_all
    · simp_all
  · cases refused
  · cases refused

theorem letThrough_served {caller : Caller} {kind : Kind} {what : String} {id : Int}
    {found : Option α} {resource : α → Resource} {grants : List Share} :
    (letThrough caller kind what id found resource grants).Served c storage P
      fun a r k => P r k ∧ found = some a ∧
        ∃ now, authorize (some (resource a)) caller kind grants now = .allowed := by
  intro w w' r holds ends
  refine ⟨fun a same => ?_, fun e same => ?_⟩
  · subst same
    obtain ⟨there, rfl, allowed⟩ := letThrough_ok ends
    exact ⟨holds, there, _, allowed⟩
  · subst same
    have settled : (letThrough caller kind what id found resource grants).Ends inDatabase c w _ _ :=
      letThrough_ends what found resource grants w
    exact settle_blameless (settled.2.symm.trans ends.2)

section Targets

variable {caller : Caller} {kind : Kind} {id : Int}

theorem workspaceFor_served (calm : c.Calm) :
    (workspaceFor caller id kind).Served c storage P fun ws r k =>
      P r k ∧ r.tables.workspace? id = some ws ∧ (kind ≠ .read → caller.user = some ws.owner) := by
  refine (Program.Served.find (g := fun t => t.workspace? id) calm fun _ => rfl).bind fun row => ?_
  refine letThrough_served.weaken (fun _ _ h => h) ?_
  rintro ws r k ⟨⟨holds, found⟩, rfl, now, allowed⟩
  exact ⟨holds, found, fun changing => authorize_workspace_allowed changing allowed⟩

theorem grantsFor_served (calm : c.Calm) (token : ∀ s ∈ caller.token, isSendable s = true)
    (target : Option (Document × Workspace)) :
    (grantsFor caller target).Served c storage P fun _ => P := by
  rcases target with _ | ⟨d, ws⟩
  · exact .done [] fun _ _ h => h
  · simp only [grantsFor]
    split
    · exact .done [] fun _ _ h => h
    · exact (Program.Served.query_read (g := fun t => t.grants d.id caller.user caller.token) calm
        (fun _ => rfl) fun s hs => token s (Option.mem_toList.mp hs)).weaken (fun _ _ h => h)
        fun _ _ _ h => h.1

theorem documentFor_served (calm : c.Calm) (token : ∀ s ∈ caller.token, isSendable s = true) :
    (documentFor caller id kind).Served c storage P fun target r k =>
      P r k ∧ r.tables.document? id = some target.1 ∧
        r.tables.workspace? target.1.workspace = some target.2 := by
  refine (Program.Served.find (g := fun t => t.document? id) calm fun _ => rfl).bind fun d => ?_
  refine Program.Served.bind (Q := fun ws r k => (P r k ∧ r.tables.document? id = d) ∧
    (d.bind fun d => r.tables.workspace? d.workspace) = ws) ?_ fun ws => ?_
  · cases d with
    | none => exact .done none fun _ _ h => ⟨h, rfl⟩
    | some d =>
      exact Program.Served.find (g := fun t => t.workspace? d.workspace) calm fun _ => rfl
  · refine (grantsFor_served calm token _).bind fun grants => ?_
    refine letThrough_served.weaken (fun _ _ h => h) ?_
    rintro ⟨d', ws'⟩ r k ⟨⟨⟨holds, foundD⟩, foundW⟩, target, _⟩
    cases d with
    | none => cases target
    | some d =>
      cases ws with
      | none => cases target
      | some ws =>
        cases target
        exact ⟨holds, foundD, foundW⟩

end Targets

end DiagramShare.Service
