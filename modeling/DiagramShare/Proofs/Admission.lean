import DiagramShare.Proofs.Entitlement
import DiagramShare.Proofs.Reachable

/-! Who is let through to a target. Finding a target changes nothing, and whoever is let through was
entitled to it at an instant that the clock showed meanwhile. -/
namespace DiagramShare.Service

open DiagramShare.Access
open DiagramShare.Repository (Memory Call)
open DiagramShare.Time (Instant)

variable {c : Conditions} {w w' : World Memory} {caller : Caller} {kind : Kind} {id : Int}

def reading : CallKind := fun _ call => call.isRead

def rowKeeping : CallKind := fun _ call => call.keepsRows

theorem answers_ok {call : Call β} {b : β} (h : w.Answers inMemory c call w' (.ok b)) :
    Memory.answer (c.clock w.readings) call w.store = (w'.store, .ok b) ∧
      w'.readings = w.readings + 1 := by
  obtain ⟨rfl, hr⟩ := h
  unfold World.ask at hr ⊢
  split at hr
  · cases hr
  · exact ⟨Prod.ext rfl hr, rfl⟩

theorem answers_read {call : Call β} {f : Repository.Tables → Except Repository.Failure β} {b : β}
    (reads : ∀ now, Memory.answer now call = Memory.read f)
    (h : w.Answers inMemory c call w' (.ok b)) : f w.store.tables = .ok b := by
  have asked := (answers_ok h).1
  rw [reads] at asked
  exact (Prod.ext_iff.mp asked).2

theorem orNotFound_ok {row : Option α} {a : α} :
    Repository.orNotFound row = .ok a ↔ row = some a := by
  cases row <;> simp [Repository.orNotFound]

theorem found_row {call : Call β} {g : Repository.Tables → Option β} {b : β}
    (reads : ∀ now, Memory.answer now call = Memory.read fun t => Repository.orNotFound (g t))
    (h : (Program.find? call).Ends inMemory c w w' (.ok (some b))) :
    g w.store.tables = some b :=
  orNotFound_ok.mp (answers_read reads (ends_find_some.mp h))

theorem ask_createShare_error {new : NewShare} {e : Repository.Failure}
    (failed : (w.ask inMemory c (.createShare new)).2.1 = .error e) :
    (w.ask inMemory c (.createShare new)).1.store = w.store := by
  unfold World.ask at failed ⊢
  split at failed
  · rfl
  · change (Memory.createShare new (c.clock w.readings) w.store).2 = .error e at failed
    change (Memory.createShare new (c.clock w.readings) w.store).1 = w.store
    rcases Memory.createShare_cases new (c.clock w.readings) w.store with ⟨e, he⟩ | ⟨_, hok⟩
    · rw [he]
    · rw [hok] at failed
      cases failed

theorem Program.Only.same {p : Program α} (only : p.Only reading) {r : Except Access.Failure α}
    (h : p.Ends inMemory c w w' r) : w'.store = w.store :=
  only.keeps (R := fun m m' => m' = m) (fun _ => rfl) (fun _ _ _ h k => k.trans h)
    (fun _ read _ _ => Memory.answer_isRead read) h

theorem Program.Only.kept {p : Program α} (only : p.Only rowKeeping) {r : Except Access.Failure α}
    (h : p.Ends inMemory c w w' r) : w.store.Kept 0 w'.store :=
  only.keeps (R := Memory.Kept 0) Memory.Kept.refl (fun _ _ _ h k => h.trans k)
    (fun _ keeps _ _ => Memory.answer_keepsRows keeps) h

theorem isRead_keepsRows {call : Call β} (h : call.isRead = true) : call.keepsRows = true := by
  cases call <;> first | rfl | contradiction

theorem Program.Only.keepsRows {p : Program α} (only : p.Only reading) : p.Only rowKeeping :=
  only.mono isRead_keepsRows

theorem noteDenial_only (kind' : CallKind) (decision : Decision) (caller : Caller) (kind : Kind)
    (what : String) (id : Int) : (noteDenial decision caller kind what id).Only kind' := by
  unfold noteDenial
  split
  · exact .done ()
  · exact .note _ _

theorem heed_only (kind' : CallKind) (decision : Decision) (caller : Caller) (what : String) :
    (heed decision caller what).Only kind' := by
  unfold heed
  split
  · exact .done ()
  · exact .fail _

theorem letThrough_only (kind' : CallKind) (caller : Caller) (kind : Kind) (what : String)
    (id : Int) (found : Option α) (resource : α → Resource) (grants : List Share) :
    (letThrough caller kind what id found resource grants).Only kind' := by
  refine Program.Only.clock.bind fun now => ?_
  refine (noteDenial_only _ _ _ _ _ _).bind fun _ => ?_
  refine (heed_only _ _ _ _).bind fun _ => ?_
  cases found with
  | none => exact .fail _
  | some a => exact .done a

theorem refusal_none {decision : Decision} {what : String}
    (h : decision.refusal? caller what = none) : decision = .allowed := by
  cases decision <;> first | rfl | contradiction

section AnyStore

variable {σ : Type} {s : Store σ} {v v' : World σ}

theorem ends_noteDenial {decision : Decision} {what : String} {r : Except Access.Failure Unit} :
    (noteDenial decision caller kind what id).Ends s c v v' r ↔ v' = v ∧ r = .ok () := by
  unfold noteDenial
  split <;> simp

theorem ends_heed_ok {decision : Decision} {what : String} {u : Unit} :
    (heed decision caller what).Ends s c v v' (.ok u) ↔
      v' = v ∧ decision.refusal? caller what = none := by
  unfold heed
  split <;> simp [*]

theorem letThrough_ok {what : String} {found : Option α} {resource : α → Resource}
    {grants : List Share} {a : α}
    (h : (letThrough caller kind what id found resource grants).Ends s c v v' (.ok a)) :
    found = some a ∧ v' = { v with readings := v.readings + 1 } ∧
      authorize (some (resource a)) caller kind grants (c.clock v.readings) = .allowed := by
  simp only [letThrough, ends_bind_ok, ends_clock, ends_noteDenial, ends_heed_ok] at h
  obtain ⟨_, now, ⟨rfl, hnow⟩, _, _, ⟨rfl, _⟩, _, _, ⟨rfl, heeded⟩, h⟩ := h
  cases found with
  | none => simp [present] at h
  | some b =>
    simp only [present, ends_done, Except.ok.injEq] at h
    obtain ⟨rfl, rfl⟩ := h
    cases hnow
    exact ⟨rfl, rfl, refusal_none heeded⟩

end AnyStore

theorem workspaceFor_only (caller : Caller) (id : Int) (kind : Kind) :
    (workspaceFor caller id kind).Only reading := by
  refine Program.Only.bind (.find? rfl) fun row => ?_
  exact letThrough_only _ _ _ _ _ _ _ _

theorem grantsFor_only (caller : Caller) (target : Option (Document × Workspace)) :
    (grantsFor caller target).Only reading := by
  rcases target with _ | ⟨d, w⟩
  · exact .done []
  · simp only [grantsFor]
    split
    · exact .done []
    · exact .query rfl

theorem documentFor_only (caller : Caller) (id : Int) (kind : Kind) :
    (documentFor caller id kind).Only reading := by
  refine Program.Only.bind (.find? rfl) fun d => ?_
  refine Program.Only.bind ?_ fun w => ?_
  · cases d with
    | none => exact .done none
    | some d => exact .find? rfl
  · refine (grantsFor_only _ _).bind fun grants => ?_
    exact letThrough_only _ _ _ _ _ _ _ _

def chosen (t : Repository.Tables) (caller : Caller) (d : Document) (w : Workspace) : List Share :=
  if caller.isAnonymous || caller.user == some w.owner then []
  else t.grants d.id caller.user caller.token

theorem entitled_chosen {t : Repository.Tables} {now : Instant} {d : Document} {ws : Workspace} :
    Entitled (chosen t caller d ws) caller kind now d ws ↔
      Entitled t.shares caller kind now d ws := by
  by_cases own : caller.user = some ws.owner
  · exact ⟨fun _ => .owner own, fun _ => .owner own⟩
  · apply entitled_congr
    intro s on inForce
    have shown : caller.isAnonymous = false := by
      rcases inForce.held with ⟨user, _, mine⟩ | ⟨_, presented⟩
      · simp [Caller.isAnonymous, mine]
      · simp [Caller.isAnonymous, presented]
    have picked : chosen t caller d ws = t.grants d.id caller.user caller.token := by
      simp [chosen, shown, own]
    rw [picked, ← on]
    exact ⟨mem_of_mem_grants, fun stored => mem_grants_of_inForce stored inForce⟩

theorem grantsFor_ok {d : Document} {ws : Workspace} {grants : List Share}
    (h : (grantsFor caller (some (d, ws))).Ends inMemory c w w' (.ok grants)) :
    grants = chosen w.store.tables caller d ws := by
  simp only [grantsFor] at h
  split at h
  · rename_i skipped
    rw [chosen, if_pos skipped]
    exact Except.ok.inj (ends_done.mp h).2
  · rename_i needed
    rw [chosen, if_neg needed]
    have asked := answers_read (f := fun t => .ok (t.grants d.id caller.user caller.token))
      (fun _ => rfl) (ends_query_ok.mp h)
    exact (Except.ok.inj asked).symm

theorem workspaceFor_ok {ws : Workspace} (changing : kind ≠ .read)
    (h : (workspaceFor caller id kind).Ends inMemory c w w' (.ok ws)) :
    w'.store = w.store ∧ w.store.tables.workspace? id = some ws ∧ caller.user = some ws.owner := by
  refine ⟨(workspaceFor_only caller id kind).same h, ?_⟩
  obtain ⟨v, row, found, h⟩ := ends_bind_ok.mp h
  obtain ⟨rfl, _, allowed⟩ := letThrough_ok h
  exact ⟨found_row (g := fun t => t.workspace? id) (fun _ => rfl) found,
    authorize_workspace_allowed changing allowed⟩

theorem documentFor_ok {d : Document} {ws : Workspace} (numbered : w.store.Numbered)
    (h : (documentFor caller id kind).Ends inMemory c w w' (.ok (d, ws))) :
    w'.store = w.store ∧ Present w.store.tables d ws ∧ d.id = id ∧
      ∃ now, Shown c w w' now ∧ Entitled w.store.tables.shares caller kind now d ws := by
  refine ⟨(documentFor_only caller id kind).same h, ?_⟩
  obtain ⟨v₁, od, foundD, h⟩ := ends_bind_ok.mp h
  obtain ⟨v₂, ow, foundW, h⟩ := ends_bind_ok.mp h
  obtain ⟨v₃, grants, picked, h⟩ := ends_bind_ok.mp h
  obtain ⟨target, rfl, allowed⟩ := letThrough_ok h
  obtain ⟨rfl, rfl⟩ : od = some d ∧ ow = some ws := by
    cases od <;> cases ow <;> simp_all [both]
  have same₁ : v₁.store = w.store := Program.Only.same (.find? rfl) foundD
  have same₂ : v₂.store = v₁.store := Program.Only.same (.find? rfl) foundW
  have rowD := found_row (g := fun t => t.document? id) (fun _ => rfl) foundD
  have rowW := found_row (g := fun t => t.workspace? d.workspace) (fun _ => rfl) foundW
  rw [same₁] at rowW
  obtain ⟨storedD, number, liveD⟩ := numbered.document_iff.mp rowD
  obtain ⟨storedW, inside, liveW⟩ := numbered.workspace_iff.mp rowW
  refine ⟨⟨storedD, storedW, inside.symm, liveD, liveW⟩, number, c.clock v₃.readings, ?_, ?_⟩
  · have le₁ := readings_le foundD
    have le₂ := readings_le foundW
    have le₃ := readings_le picked
    exact ⟨v₃.readings, by omega, Nat.lt_succ_self _, rfl⟩
  · rw [grantsFor_ok picked, same₂, same₁] at allowed
    rcases authorize_document (chosen w.store.tables caller d ws) caller kind
      (c.clock v₃.readings) inside.symm liveD liveW with ⟨entitled, _⟩ | ⟨_, forbidden⟩
    · exact entitled_chosen.mp entitled
    · rw [forbidden] at allowed
      cases allowed

/-- The store never fails from outside. -/
def Conditions.Calm (c : Conditions) : Prop := ∀ n, c.outage n = none

theorem ask_calm {σ : Type} {s : Store σ} (calm : c.Calm) (call : Call β) (w : World σ) :
    w.ask s c call =
      let (store, result) := s.answer (c.clock w.readings) call w.store
      ({ w with store := store, calls := w.calls + 1, readings := w.readings + 1 }, result,
        s.records call result) := by
  simp only [World.ask, calm w.calls]

theorem answers_of {call : Call β} {m : Memory} {r : Except Repository.Failure β} (calm : c.Calm)
    (answered : Memory.answer (c.clock w.readings) call w.store = (m, r)) :
    w.Answers inMemory c call
      { w with store := m, calls := w.calls + 1, readings := w.readings + 1 } r := by
  rw [World.Answers, ask_calm calm]
  simp only [inMemory, answered, and_self]

/-- The document with a number and its workspace, both live. -/
def target? (t : Repository.Tables) (id : Int) : Option (Document × Workspace) :=
  both (t.document? id) ((t.document? id).bind fun d => t.workspace? d.workspace)

/-- The answer to a caller who asks for something that may have been found. -/
def settle (caller : Caller) (what : String) (found : Option α) (decision : Decision) :
    Except Access.Failure α :=
  match decision.refusal? caller what, found with
  | some e, _ => .error e
  | none, some a => .ok a
  | none, none => .error (.notFound what)

def ruling (t : Repository.Tables) (caller : Caller) (id : Int) (kind : Kind) (now : Instant) :
    Except Access.Failure (Document × Workspace) :=
  settle caller "document" (target? t id)
    (authorize ((target? t id).map fun (d, w) => .document d w) caller kind t.shares now)

def World.tick (w : World Memory) : World Memory :=
  { w with calls := w.calls + 1, readings := w.readings + 1 }

theorem answers_calm {call : Call β} {f : Repository.Tables → Except Repository.Failure β}
    (calm : c.Calm) (reads : ∀ now, Memory.answer now call = Memory.read f) (w : World Memory) :
    w.Answers inMemory c call w.tick (f w.store.tables) := by
  simp only [World.Answers, World.ask, calm w.calls, inMemory, reads, Memory.read, World.tick,
    and_self]

theorem find_calm {call : Call β} {g : Repository.Tables → Option β} (calm : c.Calm)
    (reads : ∀ now, Memory.answer now call = Memory.read fun t => Repository.orNotFound (g t))
    (w : World Memory) :
    (Program.find? call).Ends inMemory c w w.tick (.ok (g w.store.tables)) := by
  refine ends_ask.mpr ⟨_, _, answers_calm calm reads w, ?_⟩
  cases g w.store.tables <;> simp [Repository.orNotFound]

theorem query_calm {call : Call β} {g : Repository.Tables → β} (calm : c.Calm)
    (reads : ∀ now, Memory.answer now call = Memory.read fun t => .ok (g t)) (w : World Memory) :
    (Program.query call).Ends inMemory c w w.tick (.ok (g w.store.tables)) :=
  ends_query_ok.mpr (answers_calm calm reads w)

theorem letThrough_ends {σ : Type} {s : Store σ} (what : String) (found : Option α)
    (resource : α → Resource) (grants : List Share) (w : World σ) :
    (letThrough caller kind what id found resource grants).Ends s c w
      { w with readings := w.readings + 1 }
      (settle caller what found
        (authorize (found.map resource) caller kind grants (c.clock w.readings))) := by
  refine ends_then (ends_clock.mpr ⟨rfl, rfl⟩) ?_
  refine ends_then (ends_noteDenial.mpr ⟨rfl, rfl⟩) ?_
  generalize authorize (found.map resource) caller kind grants (c.clock w.readings) = decision
  cases refused : decision.refusal? caller what with
  | some e =>
    refine ends_bind.mpr (.inl ⟨e, ?_, ?_⟩)
    · simp [heed, refused]
    · simp [settle, refused]
  | none =>
    refine ends_then (a := ()) (ends_heed_ok.mpr ⟨rfl, refused⟩) ?_
    cases found <;> simp [present, settle, refused]

theorem authorize_chosen {t : Repository.Tables} {now : Instant} {d : Document} {ws : Workspace}
    (inside : d.workspace = ws.id) (live : d.isLive = true) (liveW : ws.isLive = true) :
    authorize (some (.document d ws)) caller kind (chosen t caller d ws) now =
      authorize (some (.document d ws)) caller kind t.shares now := by
  rcases authorize_document (chosen t caller d ws) caller kind now inside live liveW with
    ⟨few, hfew⟩ | ⟨few, hfew⟩ <;>
  rcases authorize_document t.shares caller kind now inside live liveW with
    ⟨all, hall⟩ | ⟨all, hall⟩
  · rw [hfew, hall]
  · exact absurd (entitled_chosen.mp few) all
  · exact absurd (entitled_chosen.mpr all) few
  · rw [hfew, hall]

theorem target_some {t : Repository.Tables} {d : Document} {ws : Workspace} :
    target? t id = some (d, ws) ↔
      t.document? id = some d ∧ t.workspace? d.workspace = some ws := by
  cases hd : t.document? id with
  | none => simp [target?, both, hd]
  | some e =>
    cases hw : t.workspace? e.workspace with
    | none =>
      simp only [target?, both, hd, hw, Option.bind_some, reduceCtorEq, Option.some.injEq,
        false_iff, not_and]
      rintro rfl found
      rw [hw] at found
      cases found
    | some v =>
      simp only [target?, both, hd, hw, Option.bind_some, Option.some.injEq, Prod.mk.injEq]
      constructor
      · rintro ⟨rfl, rfl⟩
        exact ⟨rfl, hw⟩
      · rintro ⟨rfl, found⟩
        rw [hw] at found
        exact ⟨rfl, Option.some.inj found⟩

theorem target_iff {m : Memory} {d : Document} {ws : Workspace} (numbered : m.Numbered) :
    target? m.tables id = some (d, ws) ↔ Present m.tables d ws ∧ d.id = id := by
  rw [target_some, numbered.document_iff, numbered.workspace_iff]
  constructor
  · rintro ⟨⟨stored, number, live⟩, storedW, inside, liveW⟩
    exact ⟨⟨stored, storedW, inside.symm, live, liveW⟩, number⟩
  · rintro ⟨present, number⟩
    exact ⟨⟨present.document, number, present.documentLive⟩, present.workspace,
      present.inside.symm, present.workspaceLive⟩

theorem grantsFor_calm (calm : c.Calm) (caller : Caller) (d : Document) (ws : Workspace)
    (w : World Memory) :
    ∃ v, (grantsFor caller (some (d, ws))).Ends inMemory c w v
      (.ok (chosen w.store.tables caller d ws)) := by
  simp only [grantsFor, chosen]
  split
  · exact ⟨w, ends_done.mpr ⟨rfl, rfl⟩⟩
  · exact ⟨w.tick, query_calm (g := fun t => t.grants d.id caller.user caller.token) calm
      (fun _ => rfl) w⟩

/-- The check of a caller answers what the rules say about all shares, at the last instant that it
read, although the store only picks out some of the shares, or is not asked for any. -/
theorem documentFor_calm (calm : c.Calm) (numbered : w.store.Numbered) (caller : Caller)
    (id : Int) (kind : Kind) :
    ∃ w', w.readings < w'.readings ∧ (documentFor caller id kind).Ends inMemory c w w'
      (ruling w.store.tables caller id kind (c.clock (w'.readings - 1))) := by
  have findD : (Program.find? (.findDocument id)).Ends inMemory c w w.tick
      (.ok (w.store.tables.document? id)) :=
    find_calm (g := fun t => t.document? id) calm (fun _ => rfl) w
  cases hd : w.store.tables.document? id with
  | none =>
    have missing : target? w.store.tables id = none := by simp [target?, hd, both]
    rw [hd] at findD
    refine ⟨{ w.tick with readings := w.tick.readings + 1 }, ?_, ends_then findD ?_⟩
    · simp only [World.tick]
      omega
    refine ends_then (a := none) (ends_done.mpr ⟨rfl, rfl⟩) ?_
    refine ends_then (a := []) (ends_done.mpr ⟨rfl, rfl⟩) ?_
    rw [ruling, missing]
    exact letThrough_ends _ _ _ _ _
  | some d =>
    have findW : (Program.find? (.findWorkspace d.workspace)).Ends inMemory c w.tick w.tick.tick
        (.ok (w.store.tables.workspace? d.workspace)) :=
      find_calm (g := fun t => t.workspace? d.workspace) calm (fun _ => rfl) w.tick
    rw [hd] at findD
    cases hw : w.store.tables.workspace? d.workspace with
    | none =>
      have missing : target? w.store.tables id = none := by simp [target?, hd, hw, both]
      rw [hw] at findW
      refine ⟨{ w.tick.tick with readings := w.tick.tick.readings + 1 }, ?_, ends_then findD ?_⟩
      · simp only [World.tick]
        omega
      refine ends_then (a := none) findW ?_
      refine ends_then (a := []) (ends_done.mpr ⟨rfl, rfl⟩) ?_
      rw [ruling, missing]
      exact letThrough_ends _ _ _ _ _
    | some ws =>
      have found : target? w.store.tables id = some (d, ws) := target_some.mpr ⟨hd, hw⟩
      obtain ⟨present, _⟩ := (target_iff numbered).mp found
      rw [hw] at findW
      obtain ⟨v, picked⟩ := grantsFor_calm calm caller d ws w.tick.tick
      refine ⟨{ v with readings := v.readings + 1 }, ?_, ends_then findD ?_⟩
      · have later := readings_le picked
        simp only [World.tick] at later ⊢
        omega
      refine ends_then (a := some ws) findW ?_
      refine ends_then picked ?_
      rw [ruling, found, Option.map_some, ← authorize_chosen present.inside present.documentLive
        present.workspaceLive]
      exact letThrough_ends _ _ _ _ _

end DiagramShare.Service
