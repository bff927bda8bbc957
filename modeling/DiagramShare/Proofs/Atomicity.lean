import DiagramShare.Http.Endpoint
import DiagramShare.Proofs.Shape

/-! An operation that fails has changed no row, wherever it was when it failed. What a backend
reports ends the operation, and a client is not told what it was. -/
namespace DiagramShare.Service

open DiagramShare.Access
open DiagramShare.Repository (Memory Call)
open DiagramShare.Time (Instant)

variable {c : Conditions} {w w' : World Memory} {α β : Type}

theorem Program.Settled.ends {p : Program α} (settled : p.Settled) {r : Except Failure α}
    (h : p.Ends inMemory c w w' r) : ∃ a, r = .ok a := by
  induction settled with
  | done a => exact ⟨a, (ends_done.mp h).2⟩
  | log _ ih => exact ih (ends_log.mp h)

theorem ask_keepsRows {call : Call β} (keeps : call.keepsRows = true) (w : World Memory) :
    w.store.Kept 0 (w.ask inMemory c call).1.store := by
  unfold World.ask
  split
  · exact .refl _
  · exact Memory.answer_keepsRows keeps

theorem ask_error_kept {call : Call β} {e : Repository.Failure} (numbered : w.store.Numbered)
    (failed : (w.ask inMemory c call).2.1 = .error e) :
    ∃ used, used ≤ 1 ∧ w.store.Kept used (w.ask inMemory c call).1.store := by
  unfold World.ask at failed ⊢
  split at failed
  · exact ⟨0, Nat.zero_le _, .refl _⟩
  · exact Memory.answer_error_kept numbered (Prod.ext rfl failed)

/-- A program of this shape that fails has changed no row. -/
theorem Program.Whole.kept {p : Program α} (whole : p.Whole) (numbered : w.store.Numbered)
    {e : Failure} (h : p.Ends inMemory c w w' (.error e)) :
    ∃ used, used ≤ 1 ∧ w.store.Kept used w'.store := by
  induction whole generalizing w with
  | done a => cases (ends_done.mp h).2
  | fail e =>
    rw [(ends_fail.mp h).1]
    exact ⟨0, Nat.zero_le _, .refl _⟩
  | @ask β call next keeps _ _ ih =>
    obtain ⟨v, r, ⟨rfl, _⟩, h⟩ := ends_ask.mp h
    obtain ⟨used, le, kept⟩ := ih r (ask_numbered call numbered) h
    exact ⟨0 + used, by omega, (ask_keepsRows keeps w).trans kept⟩
  | @last β call next settled _ fails =>
    obtain ⟨v, r, ⟨rfl, hr⟩, h⟩ := ends_ask.mp h
    cases r with
    | ok a =>
      obtain ⟨b, hb⟩ := (settled a).ends h
      cases hb
    | error e =>
      obtain ⟨f, hf⟩ := fails e
      rw [hf] at h
      rw [(ends_fail.mp h).1]
      exact ask_error_kept numbered hr
  | @retry new next settled _ _ ih =>
    obtain ⟨v, r, ⟨rfl, hr⟩, h⟩ := ends_ask.mp h
    cases r with
    | ok a =>
      obtain ⟨b, hb⟩ := (settled a).ends h
      cases hb
    | error e =>
      -- The failed attempt used up no number, so that attempts do not add up.
      obtain ⟨used, le, kept⟩ := ih e (ask_numbered (.createShare new) numbered) h
      rw [ask_createShare_error hr] at kept
      exact ⟨used, le, kept⟩
  | store _ ih =>
    obtain ⟨backend, a, h⟩ := ends_store h
    exact ih a (w := { w with backend := backend, uploads := w.uploads + 1 }) numbered h
  | now _ ih => exact ih _ (w := { w with readings := w.readings + 1 }) numbered (ends_now.mp h)
  | token _ ih => exact ih _ (w := { w with tokens := w.tokens + 1 }) numbered (ends_token.mp h)
  | log _ ih => exact ih numbered (ends_log.mp h)

/-- The failures that a store answers with during a run. -/
def Program.failures (s : Store σ) (c : Conditions) : Program α → World σ → List Repository.Failure
  | .done _, _ => []
  | .fail _, _ => []
  | .ask call next, w =>
    let (v, result, _) := w.ask s c call
    let met := match result with
      | .ok _ => []
      | .error e => [e]
    met ++ (next result).failures s c v
  | .store call next, w =>
    let (backend, result, _) := w.backend.answer (c.staging w.uploads) call
    (next result).failures s c { w with backend := backend, uploads := w.uploads + 1 }
  | .now next, w => (next (c.clock w.readings)).failures s c { w with readings := w.readings + 1 }
  | .token next, w => (next (c.token w.tokens)).failures s c { w with tokens := w.tokens + 1 }
  | .log _ next, w => next.failures s c w

theorem mem_failures_ask {s : Store σ} {call : Call β}
    {next : Except Repository.Failure β → Program α} {w : World σ} {e : Repository.Failure} :
    e ∈ (Program.ask call next).failures s c w ↔ (w.ask s c call).2.1 = .error e ∨
      e ∈ (next (w.ask s c call).2.1).failures s c (w.ask s c call).1 := by
  rcases result : w.ask s c call with ⟨v, r, records⟩
  simp only [Program.failures, result, List.mem_append]
  cases r <;> simp [eq_comm]

theorem outage_mem_failures {s : Store σ} {p : Program α} {w : World σ} {n : Nat}
    {e : Repository.Failure} (start : w.calls ≤ n) (reached : n < (p.run s c w).1.calls)
    (out : c.outage n = some e) : e ∈ p.failures s c w := by
  induction p generalizing w with
  | done a => exact absurd reached (Nat.not_lt.mpr start)
  | fail e => exact absurd reached (Nat.not_lt.mpr start)
  | ask call next ih =>
    rw [mem_failures_ask]
    rcases Nat.eq_or_lt_of_le start with rfl | later
    · left
      simp only [World.ask, out]
    · right
      refine ih _ ?_ reached
      unfold World.ask
      split <;> exact later
  | store call next ih => exact ih _ start reached
  | now next ih => exact ih _ start reached
  | token next ih => exact ih _ start reached
  | log record next ih => exact ih start reached

theorem Program.Settled.failures {s : Store σ} {p : Program α} (settled : p.Settled)
    (w : World σ) : p.failures s c w = [] := by
  induction settled with
  | done a => rfl
  | log _ ih => exact ih

theorem run_ask_unavailable {s : Store σ} {call : Call β}
    {next : Except Repository.Failure β → Program α} {w : World σ} {e : Repository.Failure}
    {text : String} (givesUp : GivesUp next) (reported : backendText? e = some text)
    (met : e ∈ (Program.ask call next).failures s c w)
    (rest : ∀ r, (w.ask s c call).2.1 = r → e ∈ (next r).failures s c (w.ask s c call).1 →
      ((next r).run s c (w.ask s c call).1).2.1 = .error (.unavailable (.backend text))) :
    ((Program.ask call next).run s c w).2.1 = .error (.unavailable (.backend text)) := by
  change ((next (w.ask s c call).2.1).run s c (w.ask s c call).1).2.1 = _
  rcases mem_failures_ask.mp met with failed | later
  · rw [failed, givesUp e text reported]
    rfl
  · exact rest _ rfl later

theorem Program.Whole.unavailable {s : Store σ} {p : Program α} (whole : p.Whole) {w : World σ}
    {e : Repository.Failure} {text : String} (reported : backendText? e = some text)
    (met : e ∈ p.failures s c w) :
    (p.run s c w).2.1 = .error (.unavailable (.backend text)) := by
  induction whole generalizing w with
  | done a => cases met
  | fail e => cases met
  | ask _ givesUp _ ih =>
    exact run_ask_unavailable givesUp reported met fun r _ later => ih r later
  | last settled givesUp fails =>
    refine run_ask_unavailable givesUp reported met fun r _ later => ?_
    cases r with
    | ok a => rw [(settled a).failures] at later; cases later
    | error e =>
      obtain ⟨f, hf⟩ := fails e
      rw [hf] at later
      cases later
  | retry settled givesUp _ ih =>
    refine run_ask_unavailable givesUp reported met fun r _ later => ?_
    cases r with
    | ok a => rw [(settled a).failures] at later; cases later
    | error e => exact ih e later
  | store _ ih => exact ih _ met
  | now _ ih => exact ih _ met
  | token _ ih => exact ih _ met
  | log _ ih => exact ih met

/-- An operation that fails keeps all rows of the store: at most a user has become known and a
number is used up. Where the backend failed one of its calls, in whichever way and at whichever
call, it fails as unavailable, and the response is the same for every text that the backend gave. -/
theorem serve_atomic (reached : Reachable w.store) (c : Conditions) (caller : Caller)
    (op : Operation) :
    let out := (serve caller op).run inMemory c w
    (∀ e, out.2.1 = .error e → ∃ used, used ≤ 1 ∧ w.store.Kept used out.1.store) ∧
    (∀ n e, w.calls ≤ n → n < out.1.calls → c.outage n = some e →
      e ∈ (serve caller op).failures inMemory c w) ∧
    (∀ e text, e ∈ (serve caller op).failures inMemory c w → backendText? e = some text →
      out.2.1 = .error (.unavailable (.backend text)) ∧
        ∀ other, Http.Response.ofFailure (.unavailable (.backend text)) =
          Http.Response.ofFailure (.unavailable (.backend other))) := by
  intro out
  refine ⟨?_, ?_, ?_⟩
  · intro e failed
    exact (serve_whole caller op).kept reached.numbered ⟨rfl, failed⟩
  · intro n e start before out
    exact outage_mem_failures start before out
  · intro e text met reported
    exact ⟨(serve_whole caller op).unavailable reported met, fun other => rfl⟩

def sampleFailing : World Memory :=
  { sample with store := { sample.store with failVersions := true } }

/-- There, a new document is taken out again where its first version fails. -/
theorem sampleFailing_keeps :
    let op := Operation.createDocument 1 ⟨"Next", .markdown, none, none, some "text"⟩
    let out := (serve ⟨some 1, none⟩ op).run inMemory steady sampleFailing
    Reachable sampleFailing.store ∧
      (∃ used, used ≤ 1 ∧ sampleFailing.store.Kept used out.1.store) ∧
      out.2.1 = .error (.unavailable (.backend "connection reset")) := by
  intro op out
  have reached : Reachable sampleFailing.store := .failing sample_reachable true
  obtain ⟨keeps, _, unavailable⟩ := serve_atomic reached steady ⟨some 1, none⟩ op
  have met : .database "connection reset" ∈
      (serve ⟨some 1, none⟩ op).failures inMemory steady sampleFailing := by decide +kernel
  obtain ⟨failed, _⟩ := unavailable _ _ met rfl
  exact ⟨reached, keeps _ failed, failed⟩

end DiagramShare.Service
