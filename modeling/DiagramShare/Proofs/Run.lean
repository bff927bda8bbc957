import DiagramShare.Service.Program

/-! Runs of programs, taken apart step by step. A run of a sequence is a run of its first part that
fails, or one that succeeds and a run of the rest. Nothing here depends on the store. -/
namespace DiagramShare.Service

open DiagramShare.Time (Instant)
open DiagramShare.Access (Failure)

variable {σ : Type} {s : Store σ} {c : Conditions} {α β : Type}

/-- A program leads from one world to another and has this result. Records are left aside. -/
def Program.Ends (s : Store σ) (c : Conditions) (p : Program α) (w w' : World σ)
    (r : Except Failure α) : Prop :=
  (p.run s c w).1 = w' ∧ (p.run s c w).2.1 = r

def World.Answers (s : Store σ) (c : Conditions) (call : Repository.Call β) (w w' : World σ)
    (r : Except Repository.Failure β) : Prop :=
  (w.ask s c call).1 = w' ∧ (w.ask s c call).2.1 = r

/-- The clock shows this instant at some time between two worlds of a run. -/
def Shown (c : Conditions) (w w' : World σ) (now : Instant) : Prop :=
  ∃ n, w.readings ≤ n ∧ n < w'.readings ∧ c.clock n = now

theorem ends_run (p : Program α) (w : World σ) :
    p.Ends s c w (p.run s c w).1 (p.run s c w).2.1 := ⟨rfl, rfl⟩

@[simp] theorem ends_done {a : α} {w w' : World σ} {r : Except Failure α} :
    (Program.done a).Ends s c w w' r ↔ w' = w ∧ r = .ok a := by
  simp only [Program.Ends, Program.run, eq_comm]

@[simp] theorem ends_pure {a : α} {w w' : World σ} {r : Except Failure α} :
    (pure a : Program α).Ends s c w w' r ↔ w' = w ∧ r = .ok a := ends_done

@[simp] theorem ends_fail {e : Failure} {w w' : World σ} {r : Except Failure α} :
    (Program.fail e).Ends s c w w' r ↔ w' = w ∧ r = .error e := by
  simp only [Program.Ends, Program.run, eq_comm]

theorem ends_ask {call : Repository.Call β} {next : Except Repository.Failure β → Program α}
    {w w' : World σ} {r : Except Failure α} :
    (Program.ask call next).Ends s c w w' r ↔
      ∃ v a, w.Answers s c call v a ∧ (next a).Ends s c v w' r := by
  constructor
  · intro h
    exact ⟨_, _, ⟨rfl, rfl⟩, h⟩
  · rintro ⟨v, a, ⟨rfl, rfl⟩, h⟩
    exact h

theorem ends_store {call : Storage.Call β} {next : Except Storage.Failure β → Program α}
    {w w' : World σ} {r : Except Failure α} (h : (Program.store call next).Ends s c w w' r) :
    ∃ backend a, (next a).Ends s c { w with backend := backend, uploads := w.uploads + 1 } w' r :=
  ⟨_, _, h⟩

@[simp] theorem ends_now {next : Instant → Program α} {w w' : World σ} {r : Except Failure α} :
    (Program.now next).Ends s c w w' r ↔
      (next (c.clock w.readings)).Ends s c { w with readings := w.readings + 1 } w' r := Iff.rfl

@[simp] theorem ends_token {next : String → Program α} {w w' : World σ} {r : Except Failure α} :
    (Program.token next).Ends s c w w' r ↔
      (next (c.token w.tokens)).Ends s c { w with tokens := w.tokens + 1 } w' r := Iff.rfl

@[simp] theorem ends_log {record : LogRecord} {next : Program α} {w w' : World σ}
    {r : Except Failure α} : (Program.log record next).Ends s c w w' r ↔ next.Ends s c w w' r :=
  Iff.rfl

theorem ends_andThen (p : Program α) (f : α → Program β) (w w' : World σ)
    (r : Except Failure β) :
    (p.andThen f).Ends s c w w' r ↔
      (∃ e, p.Ends s c w w' (.error e) ∧ r = .error e) ∨
      ∃ v a, p.Ends s c w v (.ok a) ∧ (f a).Ends s c v w' r := by
  induction p generalizing w with
  | done a =>
    simp only [Program.andThen, ends_done, reduceCtorEq, and_false, false_and, exists_false,
      false_or, Except.ok.injEq]
    constructor
    · intro h
      exact ⟨w, a, ⟨rfl, rfl⟩, h⟩
    · rintro ⟨v, b, ⟨rfl, rfl⟩, h⟩
      exact h
  | fail e =>
    simp only [Program.andThen, ends_fail, reduceCtorEq, and_false, false_and, exists_false,
      or_false, Except.error.injEq]
    constructor
    · rintro ⟨hw, hr⟩
      exact ⟨e, ⟨hw, rfl⟩, hr⟩
    · rintro ⟨_, ⟨hw, rfl⟩, hr⟩
      exact ⟨hw, hr⟩
  | ask call next ih => exact ih _ _
  | store call next ih => exact ih _ _
  | now next ih => exact ih _ _
  | token next ih => exact ih _ _
  | log record next ih => exact ih _

theorem ends_bind {p : Program α} {f : α → Program β} {w w' : World σ} {r : Except Failure β} :
    (p >>= f).Ends s c w w' r ↔
      (∃ e, p.Ends s c w w' (.error e) ∧ r = .error e) ∨
      ∃ v a, p.Ends s c w v (.ok a) ∧ (f a).Ends s c v w' r :=
  ends_andThen p f w w' r

theorem ends_then {p : Program α} {f : α → Program β} {w v w' : World σ} {a : α}
    {r : Except Failure β} (first : p.Ends s c w v (.ok a)) (rest : (f a).Ends s c v w' r) :
    (p >>= f).Ends s c w w' r :=
  ends_bind.mpr (.inr ⟨v, a, first, rest⟩)

theorem ends_bind_ok {p : Program α} {f : α → Program β} {w w' : World σ} {b : β} :
    (p >>= f).Ends s c w w' (.ok b) ↔
      ∃ v a, p.Ends s c w v (.ok a) ∧ (f a).Ends s c v w' (.ok b) := by
  simp [ends_bind]

theorem ends_query_ok {call : Repository.Call α} {w w' : World σ} {a : α} :
    (Program.query call).Ends s c w w' (.ok a) ↔ w.Answers s c call w' (.ok a) := by
  simp only [Program.query, ends_ask]
  constructor
  · rintro ⟨v, b, hb, h⟩
    cases b <;> simp_all
  · intro h
    exact ⟨w', .ok a, h, by simp⟩

theorem ends_lookUp_ok {what : String} {call : Repository.Call α} {w w' : World σ} {a : α} :
    (Program.lookUp what call).Ends s c w w' (.ok a) ↔ w.Answers s c call w' (.ok a) := by
  simp only [Program.lookUp, ends_ask]
  constructor
  · rintro ⟨v, b, hb, h⟩
    cases b <;> simp_all
  · intro h
    exact ⟨w', .ok a, h, by simp⟩

theorem ends_find_some {call : Repository.Call α} {w w' : World σ} {a : α} :
    (Program.find? call).Ends s c w w' (.ok (some a)) ↔ w.Answers s c call w' (.ok a) := by
  simp only [Program.find?, ends_ask]
  constructor
  · rintro ⟨v, b, hb, h⟩
    split at h <;> simp_all
  · intro h
    exact ⟨w', .ok a, h, by simp⟩

@[simp] theorem ends_clock {w w' : World σ} {r : Except Failure Instant} :
    Program.clock.Ends s c w w' r ↔
      w' = { w with readings := w.readings + 1 } ∧ r = .ok (c.clock w.readings) := by
  simp [Program.clock]

@[simp] theorem ends_freshToken {w w' : World σ} {r : Except Failure String} :
    Program.freshToken.Ends s c w w' r ↔
      w' = { w with tokens := w.tokens + 1 } ∧ r = .ok (c.token w.tokens) := by
  simp [Program.freshToken]

@[simp] theorem ends_note {level : Level} {text : String} {w w' : World σ}
    {r : Except Failure Unit} : (Program.note level text).Ends s c w w' r ↔ w' = w ∧ r = .ok () := by
  simp [Program.note]

@[simp] theorem ends_obey_ok {checked : Except Access.Invalid α} {w w' : World σ} {a : α} :
    (Program.obey checked).Ends s c w w' (.ok a) ↔ w' = w ∧ checked = .ok a := by
  cases checked <;> simp [Program.obey, eq_comm]

@[simp] theorem ends_refuseIf_ok {found : Bool} {clash : Access.Clash} {w w' : World σ} {u : Unit} :
    (Program.refuseIf found clash).Ends s c w w' (.ok u) ↔ w' = w ∧ found = false := by
  cases found <;> simp [Program.refuseIf]

/-- A relation of worlds that calls keep, and that all steps keep which neither touch the store nor
turn back the clock, holds from the start of a run to its end. -/
theorem ends_closed {R : World σ → World σ → Prop} (trans : ∀ {w v u}, R w v → R v u → R w u)
    (asks : ∀ {β} (call : Repository.Call β) (w : World σ), R w (w.ask s c call).1)
    (others : ∀ {w v : World σ}, v.store = w.store → w.readings ≤ v.readings → R w v)
    {p : Program α} {w w' : World σ} {r : Except Failure α} (h : p.Ends s c w w' r) : R w w' := by
  induction p generalizing w with
  | done a => rw [(ends_done.mp h).1]; exact others rfl (Nat.le_refl _)
  | fail e => rw [(ends_fail.mp h).1]; exact others rfl (Nat.le_refl _)
  | ask call next ih =>
    obtain ⟨v, a, ⟨rfl, _⟩, h⟩ := ends_ask.mp h
    exact trans (asks call w) (ih _ h)
  | store call next ih =>
    obtain ⟨_, a, h⟩ := ends_store h
    have rest := ih a h
    refine trans ?_ rest
    exact others rfl (Nat.le_refl _)
  | now next ih =>
    have rest := ih _ (ends_now.mp h)
    refine trans ?_ rest
    exact others rfl (Nat.le_succ _)
  | token next ih =>
    have rest := ih _ (ends_token.mp h)
    refine trans ?_ rest
    exact others rfl (Nat.le_refl _)
  | log record next ih => exact ih (ends_log.mp h)

theorem ask_readings_le (call : Repository.Call β) (w : World σ) :
    w.readings ≤ (w.ask s c call).1.readings := by
  unfold World.ask
  split
  · exact Nat.le_refl _
  · exact Nat.le_succ _

theorem readings_le {p : Program α} {w w' : World σ} {r : Except Failure α}
    (h : p.Ends s c w w' r) : w.readings ≤ w'.readings :=
  ends_closed (R := fun w w' => w.readings ≤ w'.readings) Nat.le_trans ask_readings_le
    (fun _ later => later) h

theorem Shown.mono {w v v' w' : World σ} {now : Instant} (h : Shown c v v' now)
    (before : w.readings ≤ v.readings) (after : v'.readings ≤ w'.readings) : Shown c w w' now := by
  obtain ⟨n, lo, hi, hn⟩ := h
  exact ⟨n, Nat.le_trans before lo, Nat.lt_of_lt_of_le hi after, hn⟩

/-- What a backend reports where it fails. A row that is missing or doubled is no such failure. -/
def backendText? : Repository.Failure → Option String
  | .noConnection text => some text
  | .database text => some text
  | _ => none

def GivesUp (next : Except Repository.Failure β → Program α) : Prop :=
  ∀ e text, backendText? e = some text → next (.error e) = .fail (.unavailable (.backend text))

abbrev CallKind := (β : Type) → Repository.Call β → Bool

/-- Whatever the answers are, a program makes only calls of a kind to the store, and it gives up
where one fails for the backend. -/
inductive Program.Only (kind : CallKind) : Program α → Prop where
  | done (a : α) : Only kind (.done a)
  | fail (e : Failure) : Only kind (.fail e)
  | ask {β : Type} {call : Repository.Call β} {next : Except Repository.Failure β → Program α}
      (ofKind : kind β call = true) (givesUp : GivesUp next) (rest : ∀ r, Only kind (next r)) :
      Only kind (.ask call next)
  | store {β : Type} {call : Storage.Call β} {next : Except Storage.Failure β → Program α}
      (rest : ∀ r, Only kind (next r)) : Only kind (.store call next)
  | now {next : Instant → Program α} (rest : ∀ t, Only kind (next t)) : Only kind (.now next)
  | token {next : String → Program α} (rest : ∀ t, Only kind (next t)) : Only kind (.token next)
  | log {record : LogRecord} {next : Program α} (rest : Only kind next) :
      Only kind (.log record next)

section Only

variable {kind : CallKind}

theorem GivesUp.bind {next : Except Repository.Failure γ → Program α} (h : GivesUp next)
    (f : α → Program β) : GivesUp fun r => (next r).andThen f := by
  intro e text reported
  simp only [h e text reported, Program.andThen]

theorem Program.Only.bind {p : Program α} {f : α → Program β} (hp : p.Only kind)
    (hf : ∀ a, (f a).Only kind) : (p >>= f).Only kind := by
  change (p.andThen f).Only kind
  induction hp with
  | done a => exact hf a
  | fail e => exact .fail e
  | ask ofKind givesUp _ ih => exact .ask ofKind (givesUp.bind f) ih
  | store _ ih => exact .store ih
  | now _ ih => exact .now ih
  | token _ ih => exact .token ih
  | log _ ih => exact .log ih

theorem Program.Only.mono {wide : CallKind} {p : Program α} (only : p.Only kind)
    (wider : ∀ {γ : Type} {call : Repository.Call γ}, kind γ call = true → wide γ call = true) :
    p.Only wide := by
  induction only with
  | done a => exact .done a
  | fail e => exact .fail e
  | ask ofKind givesUp _ ih => exact .ask (wider ofKind) givesUp ih
  | store _ ih => exact .store ih
  | now _ ih => exact .now ih
  | token _ ih => exact .token ih
  | log _ ih => exact .log ih

theorem Program.Only.clock : Program.clock.Only kind := .now .done

theorem Program.Only.note (level : Level) (text : String) :
    (Program.note level text).Only kind := .log (.done ())

theorem Program.Only.obey (checked : Except Access.Invalid α) :
    (Program.obey checked).Only kind := by
  cases checked with
  | ok a => exact .done a
  | error e => exact .fail _

theorem Program.Only.obeyed {checked : Except Access.Invalid α} {f : α → Program β}
    (rest : ∀ a, checked = .ok a → (f a).Only kind) : (Program.obey checked >>= f).Only kind := by
  cases checked with
  | ok a => exact rest a rfl
  | error e => exact .fail _

theorem Program.Only.refuseIf (found : Bool) (clash : Access.Clash) :
    (Program.refuseIf found clash).Only kind := by
  cases found with
  | false => exact .done ()
  | true => exact .fail _

theorem givesUp_ofRepository {e : Repository.Failure} {text : String}
    (h : backendText? e = some text) : Failure.ofRepository e = .unavailable (.backend text) := by
  cases e <;> simp_all [backendText?, Failure.ofRepository]

theorem givesUp_ofLookup {e : Repository.Failure} {what text : String}
    (h : backendText? e = some text) :
    Failure.ofLookup what e = .unavailable (.backend text) := by
  cases e <;> simp_all [backendText?, Failure.ofLookup, Failure.ofRepository]

theorem Program.Only.query {call : Repository.Call α} (h : kind α call = true) :
    (Program.query call).Only kind := by
  refine .ask h ?_ fun r => ?_
  · intro e text reported
    simp only [givesUp_ofRepository reported]
  · cases r with
    | ok a => exact .done a
    | error e => exact .fail _

theorem Program.Only.lookUp {what : String} {call : Repository.Call α} (h : kind α call = true) :
    (Program.lookUp what call).Only kind := by
  refine .ask h ?_ fun r => ?_
  · intro e text reported
    simp only [givesUp_ofLookup reported]
  · cases r with
    | ok a => exact .done a
    | error e => exact .fail _

theorem Program.Only.find? {call : Repository.Call α} (h : kind α call = true) :
    (Program.find? call).Only kind := by
  refine .ask h ?_ fun r => ?_
  · intro e text reported
    cases e <;> simp_all [backendText?, Failure.ofRepository]
  · rcases r with e | a
    · cases e with
      | notFound => exact .done none
      | _ => exact .fail _
    · exact .done _

theorem Program.Only.storing (call : Storage.Call α) : (Program.storing call).Only kind := by
  refine .store fun r => ?_
  cases r with
  | ok a => exact .done a
  | error e => exact .fail _

theorem Program.Only.keeps {R : σ → σ → Prop} (refl : ∀ m, R m m)
    (trans : ∀ m m' m'', R m m' → R m' m'' → R m m'') {p : Program α} (only : p.Only kind)
    (calls : ∀ {β} (call : Repository.Call β), kind β call = true → ∀ now m,
      R m (s.answer now call m).1)
    {w w' : World σ} {r : Except Failure α} (h : p.Ends s c w w' r) : R w.store w'.store := by
  induction only generalizing w with
  | done a => rw [(ends_done.mp h).1]; exact refl _
  | fail e => rw [(ends_fail.mp h).1]; exact refl _
  | @ask β call next ofKind _ _ ih =>
    obtain ⟨v, a, ⟨rfl, _⟩, h⟩ := ends_ask.mp h
    refine trans _ _ _ ?_ (ih a h)
    unfold World.ask
    split
    · exact refl _
    · exact calls call ofKind _ _
  | store _ ih =>
    obtain ⟨_, a, h⟩ := ends_store h
    have rest := ih a h
    exact rest
  | now _ ih =>
    have rest := ih _ (ends_now.mp h)
    exact rest
  | token _ ih =>
    have rest := ih _ (ends_token.mp h)
    exact rest
  | log _ ih => exact ih (ends_log.mp h)

end Only

end DiagramShare.Service
