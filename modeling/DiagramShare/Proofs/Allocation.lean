import DiagramShare.Proofs.Conflicts
import DiagramShare.Proofs.Tokens

/-! How a share comes by its token. Up to three tokens are drawn; the first that no share has, not even
a revoked one, becomes the token of the new share, and where all are taken no share is stored. -/
namespace DiagramShare.Repository

open DiagramShare.Time (Instant)

/-- A share has this token, whether it is live or not. -/
def Tables.TokenHeld (t : Tables) (token : String) : Prop := ∃ s ∈ t.shares, s.token = token

theorem Tables.tokenExists_iff {t : Tables} {token : String} :
    t.tokenExists token = true ↔ t.TokenHeld token := by
  simp only [tokenExists, TokenHeld, List.any_eq_true, beq_iff_eq]

namespace Memory

variable {m : Memory} {new : NewShare} {now : Instant}

def Bindable (m : Memory) (document : Int) (user : Option Int) : Prop :=
  ∀ i, user = some i → i ∈ m.users ∧ m.tables.shareForUser? document i = none

theorem shareRefusal_bindable (bindable : m.Bindable new.document new.user) :
    m.shareRefusal? new =
      if m.tables.tokenExists new.token then some (.duplicate Index.shareToken.name) else none := by
  unfold shareRefusal?
  cases given : new.user with
  | none => rfl
  | some user => simp [bindable user given]

theorem createShare_held (bindable : m.Bindable new.document new.user)
    (held : m.tables.TokenHeld new.token) :
    createShare new now m = (m, .error (.duplicate Index.shareToken.name)) := by
  simp only [createShare, shareRefusal_bindable bindable, Tables.tokenExists_iff.mpr held, if_true]

theorem createShare_free (bindable : m.Bindable new.document new.user)
    (free : ¬ m.tables.TokenHeld new.token) :
    createShare new now m = ((Change.addShare new now).on m, .ok (new.row m.nextId now)) := by
  rw [← Tables.tokenExists_iff] at free
  simp only [createShare, shareRefusal_bindable bindable, free]
  rfl

end Memory

end DiagramShare.Repository

namespace DiagramShare.Service

open DiagramShare.Access
open DiagramShare.Repository (Memory Tables Change Index)
open DiagramShare.Time (Instant)

variable {α β : Type} {c : Conditions} {w w' : World Memory} {caller : Caller} {id : Int}

/-- Whatever the answers are, a program draws at most so many tokens. -/
inductive Program.Draws : Nat → Program α → Prop where
  | done {n : Nat} (a : α) : Draws n (.done a)
  | fail {n : Nat} (e : Failure) : Draws n (.fail e)
  | ask {n : Nat} {γ : Type} {call : Repository.Call γ}
      {next : Except Repository.Failure γ → Program α} (rest : ∀ r, Draws n (next r)) :
      Draws n (.ask call next)
  | store {n : Nat} {γ : Type} {call : Storage.Call γ}
      {next : Except Storage.Failure γ → Program α} (rest : ∀ r, Draws n (next r)) :
      Draws n (.store call next)
  | now {n : Nat} {next : Instant → Program α} (rest : ∀ t, Draws n (next t)) :
      Draws n (.now next)
  | token {n : Nat} {next : String → Program α} (rest : ∀ t, Draws n (next t)) :
      Draws (n + 1) (.token next)
  | log {n : Nat} {record : LogRecord} {next : Program α} (rest : Draws n next) :
      Draws n (.log record next)

theorem Program.Draws.mono {p : Program α} {n n' : Nat} (few : p.Draws n) (le : n ≤ n') :
    p.Draws n' := by
  induction few generalizing n' with
  | done a => exact .done a
  | fail e => exact .fail e
  | ask _ ih => exact .ask fun r => ih r le
  | store _ ih => exact .store fun r => ih r le
  | now _ ih => exact .now fun t => ih t le
  | token _ ih =>
    obtain ⟨more, rfl⟩ := Nat.exists_eq_add_of_lt le
    exact .token fun t => ih t (Nat.le_add_right _ _)
  | log _ ih => exact .log (ih le)

theorem Program.Draws.bind {p : Program α} {f : α → Program β} {n k : Nat} (first : p.Draws n)
    (rest : ∀ a, (f a).Draws k) : (p >>= f).Draws (n + k) := by
  change (p.andThen f).Draws (n + k)
  induction first with
  | done a => exact (rest a).mono (Nat.le_add_left _ _)
  | fail e => exact .fail e
  | ask _ ih => exact .ask ih
  | store _ ih => exact .store ih
  | now _ ih => exact .now ih
  | token _ ih =>
    rw [Nat.add_right_comm]
    exact .token ih
  | log _ ih => exact .log ih

theorem Program.Draws.after {p : Program α} {f : α → Program β} {k : Nat} (first : p.Draws 0)
    (rest : ∀ a, (f a).Draws k) : (p >>= f).Draws k :=
  Nat.zero_add k ▸ first.bind rest

theorem Program.Draws.bounds {p : Program α} {n : Nat} (few : p.Draws n)
    {r : Except Failure α} (h : p.Ends inMemory c w w' r) : w'.tokens ≤ w.tokens + n := by
  induction few generalizing w with
  | done a => exact (ends_done.mp h).1 ▸ Nat.le_add_right _ _
  | fail e => exact (ends_fail.mp h).1 ▸ Nat.le_add_right _ _
  | ask _ ih =>
    obtain ⟨v, a, ⟨rfl, _⟩, h⟩ := ends_ask.mp h
    exact ask_tokens _ w ▸ ih a h
  | store _ ih =>
    obtain ⟨_, a, h⟩ := ends_store h
    have rest := ih a h
    exact rest
  | now _ ih =>
    have rest := ih _ (ends_now.mp h)
    exact rest
  | token _ ih =>
    have rest := ih _ (ends_token.mp h)
    exact Nat.le_trans rest (by simp only; omega)
  | log _ ih => exact ih (ends_log.mp h)

theorem Program.Draws.same {p : Program α} (none : p.Draws 0) {r : Except Failure α}
    (h : p.Ends inMemory c w w' r) : w'.tokens = w.tokens :=
  Nat.le_antisymm (none.bounds h) (tokens_le h)

section Parts

variable {n : Nat}

theorem draws_clock : Program.clock.Draws n := .now .done

theorem draws_note (level : Level) (text : String) : (Program.note level text).Draws n :=
  .log (.done ())

theorem draws_obey (checked : Except Invalid α) : (Program.obey checked).Draws n := by
  cases checked with
  | ok a => exact .done a
  | error e => exact .fail _

theorem draws_refuseIf (found : Bool) (clash : Clash) :
    (Program.refuseIf found clash).Draws n := by
  cases found with
  | false => exact .done ()
  | true => exact .fail _

theorem draws_query (call : Repository.Call α) : (Program.query call).Draws n := by
  refine .ask fun r => ?_
  cases r with
  | ok a => exact .done a
  | error e => exact .fail _

theorem draws_find (call : Repository.Call α) : (Program.find? call).Draws n := by
  refine .ask fun r => ?_
  rcases r with e | a
  · cases e with
    | notFound => exact .done none
    | _ => exact .fail _
  · exact .done _

theorem draws_letThrough (caller : Caller) (kind : Kind) (what : String) (id : Int)
    (found : Option α) (resource : α → Resource) (grants : List Share) :
    (letThrough caller kind what id found resource grants).Draws 0 := by
  refine draws_clock.after fun now => ?_
  refine Program.Draws.after ?_ fun _ => Program.Draws.after ?_ fun _ => ?_
  · unfold noteDenial
    split
    · exact .done ()
    · exact draws_note _ _
  · unfold heed
    split
    · exact .done ()
    · exact .fail _
  · cases found with
    | none => exact .fail _
    | some a => exact .done a

end Parts

theorem draws_documentFor (caller : Caller) (id : Int) (kind : Kind) :
    (documentFor caller id kind).Draws 0 := by
  refine (draws_find _).after fun d => Program.Draws.after ?_ fun ws =>
    Program.Draws.after ?_ fun grants => draws_letThrough _ _ _ _ _ _ _
  · cases d with
    | none => exact .done none
    | some d => exact draws_find _
  · unfold grantsFor
    split
    · exact .done []
    · split
      · exact .done []
      · exact draws_query _

theorem draws_requireUser (d : Document) (ws : Workspace) (user : Option Int) :
    (requireUser d ws user).Draws 0 := by
  cases user with
  | none => exact .done ()
  | some user =>
    exact (draws_obey _).after fun _ => (draws_obey _).after fun _ => (draws_query _).after
      fun _ => (draws_query _).after fun _ => draws_refuseIf _ _

theorem draws_allocate (document : Int) (request : ShareRequest) (attempt left : Nat) :
    (allocate document request attempt left).Draws left := by
  induction left generalizing attempt with
  | zero => exact .fail _
  | succ left ih =>
    refine .token fun token => .ask fun r => ?_
    rcases r with e | s
    · cases e with
      | duplicate index =>
        simp only
        split
        · exact (draws_note _ _).after fun _ => ih _
        · exact .fail _
      | _ => exact .fail _
    · exact (draws_note _ _).after fun _ => .done s

theorem draws_shareDocument (caller : Caller) (id : Int) (request : ShareRequest) :
    (shareDocument caller id request).Draws tokenAttempts :=
  (draws_documentFor _ _ _).after fun _ => draws_clock.after fun _ => (draws_obey _).after fun _ =>
    (draws_requireUser _ _ _).after fun _ => draws_allocate _ _ _ _

section Allocate

def asked (document : Int) (request : ShareRequest) (token : String) : NewShare :=
  ⟨document, request.user, token, request.permission, request.expiresAt⟩

variable {document : Int} {request : ShareRequest}

theorem allocate_over (calm : c.Calm) (bindable : w.store.Bindable document request.user)
    (held : w.store.tables.TokenHeld (c.token w.tokens)) :
    ∃ v : World Memory, v.store = w.store ∧ v.tokens = w.tokens + 1 ∧
      ∀ attempt left w' r, (allocate document request (attempt + 1) left).Ends inMemory c v w' r →
        (allocate document request attempt (left + 1)).Ends inMemory c w w' r := by
  let drawn : World Memory := { w with tokens := w.tokens + 1 }
  have refused : drawn.Answers inMemory c
      (.createShare (asked document request (c.token w.tokens))) drawn.tick
      (.error (.duplicate Index.shareToken.name)) :=
    answers_of calm (Memory.createShare_held bindable held)
  refine ⟨drawn.tick, rfl, rfl, fun attempt left w' r rest => ?_⟩
  refine ends_then (ends_freshToken.mpr ⟨rfl, rfl⟩) (ends_ask.mpr ⟨_, _, refused, ?_⟩)
  simp only [if_true]
  exact ends_then (ends_note.mpr ⟨rfl, rfl⟩) rest

theorem allocate_takes (calm : c.Calm) (request : ShareRequest)
    (bindable : w.store.Bindable document request.user)
    (free : ¬ w.store.tables.TokenHeld (c.token w.tokens)) (attempt left : Nat) :
    ∃ (w' : World Memory) (now : Instant),
      (allocate document request attempt (left + 1)).Ends inMemory c w w'
        (.ok ((asked document request (c.token w.tokens)).row w.store.nextId now)) ∧
      w'.store = (Change.addShare (asked document request (c.token w.tokens)) now).on w.store ∧
      w'.tokens = w.tokens + 1 := by
  let drawn : World Memory := { w with tokens := w.tokens + 1 }
  let new := asked document request (c.token w.tokens)
  let now := c.clock w.readings
  let made : World Memory := { drawn.tick with store := (Change.addShare new now).on w.store }
  have stored : drawn.Answers inMemory c (.createShare new) made
      (.ok (new.row w.store.nextId now)) :=
    answers_of calm (Memory.createShare_free bindable free)
  refine ⟨made, now, ends_then (ends_freshToken.mpr ⟨rfl, rfl⟩) ?_, rfl, rfl⟩
  refine ends_ask.mpr ⟨_, _, stored, ?_⟩
  exact ends_then (ends_note.mpr ⟨rfl, rfl⟩) (ends_pure.mpr ⟨rfl, rfl⟩)

theorem allocate_skips (calm : c.Calm) (bindable : w.store.Bindable document request.user)
    {n : Nat} (held : ∀ i < n, w.store.tables.TokenHeld (c.token (w.tokens + i))) :
    ∃ v : World Memory, v.store = w.store ∧ v.tokens = w.tokens + n ∧
      ∀ attempt left w' r, (allocate document request (attempt + n) left).Ends inMemory c v w' r →
        (allocate document request attempt (left + n)).Ends inMemory c w w' r := by
  induction n generalizing w with
  | zero => exact ⟨w, rfl, rfl, fun _ _ _ _ rest => rest⟩
  | succ n ih =>
    obtain ⟨v, same, drawn, passes⟩ := allocate_over calm bindable (held 0 (Nat.succ_pos n))
    have later : ∀ i < n, v.store.tables.TokenHeld (c.token (v.tokens + i)) := by
      intro i lt
      rw [same, drawn, Nat.add_assoc, Nat.add_comm 1]
      exact held (i + 1) (Nat.succ_lt_succ lt)
    obtain ⟨u, same', drawn', skips⟩ := ih (same ▸ bindable) later
    refine ⟨u, same'.trans same, by omega, fun attempt left w' r rest => ?_⟩
    apply passes attempt (left + n)
    apply skips
    rwa [Nat.add_assoc, Nat.add_comm 1]

theorem allocate_first (calm : c.Calm) (request : ShareRequest)
    (bindable : w.store.Bindable document request.user)
    {i : Nat} (held : ∀ j < i, w.store.tables.TokenHeld (c.token (w.tokens + j)))
    (free : ¬ w.store.tables.TokenHeld (c.token (w.tokens + i))) (attempt left : Nat) :
    ∃ (w' : World Memory) (now : Instant),
      (allocate document request attempt (left + 1 + i)).Ends inMemory c w w'
        (.ok ((asked document request (c.token (w.tokens + i))).row w.store.nextId now)) ∧
      w'.store =
        (Change.addShare (asked document request (c.token (w.tokens + i))) now).on w.store ∧
      w'.tokens = w.tokens + i + 1 := by
  obtain ⟨v, same, drawn, skips⟩ := allocate_skips calm bindable held
  rw [← same] at bindable
  rw [← same, ← drawn] at free
  obtain ⟨w', now, done, stored, counted⟩ :=
    allocate_takes calm request bindable free (attempt + i) left
  rw [same, drawn] at done stored
  exact ⟨w', now, skips _ _ _ _ done, stored, drawn ▸ counted⟩

theorem allocate_none (calm : c.Calm) (request : ShareRequest)
    (bindable : w.store.Bindable document request.user)
    {n : Nat} (held : ∀ i < n, w.store.tables.TokenHeld (c.token (w.tokens + i)))
    (attempt : Nat) : ∃ w' : World Memory,
      (allocate document request attempt n).Ends inMemory c w w'
        (.error (.unavailable .noToken)) ∧ w'.store = w.store ∧ w'.tokens = w.tokens + n := by
  obtain ⟨v, same, drawn, skips⟩ := allocate_skips calm bindable held
  refine ⟨v, ?_, same, drawn⟩
  have rest := skips attempt 0 v (.error (.unavailable .noToken)) (ends_fail.mpr ⟨rfl, rfl⟩)
  rwa [Nat.zero_add] at rest

end Allocate

theorem exists_first {free : Nat → Prop} {n : Nat} (some : ∃ i < n, free i) :
    ∃ i < n, (∀ j < i, ¬ free j) ∧ free i := by
  classical
  obtain ⟨i, lt, here⟩ := some
  have exists_ : ∃ i, free i := ⟨i, here⟩
  have least : Nat.find exists_ ≤ i := Nat.find_min' exists_ here
  exact ⟨Nat.find exists_, by omega, fun j => Nat.find_min exists_, Nat.find_spec exists_⟩

/-- A request to share a document passes the checks of its caller, of its expiry and of the user that
it names, if it names one. -/
def Passes (c : Conditions) (w : World Memory) (caller : Caller) (id : Int)
    (request : ShareRequest) : Prop :=
  ∃ d ws v, (documentFor caller id .manage).Ends inMemory c w v (.ok (d, ws)) ∧
    futureExpiry request.expiresAt (c.clock v.readings) = .ok () ∧
    ∀ user, request.user = some user →
      0 < user ∧ user ≠ ws.owner ∧ ¬ w.store.tables.SlotHeld id user

theorem requireUser_passes (calm : c.Calm) {d : Document} {ws : Workspace} {user : Option Int}
    (fit : ∀ i, user = some i → 0 < i ∧ i ≠ ws.owner ∧ ¬ w.store.tables.SlotHeld d.id i) :
    ∃ v, (requireUser d ws user).Ends inMemory c w v (.ok ()) ∧
      v.store.tables = w.store.tables ∧ v.store.Bindable d.id user := by
  cases user with
  | none => exact ⟨w, ends_done.mpr ⟨rfl, rfl⟩, rfl, nofun⟩
  | some i =>
    obtain ⟨positive, other, unheld⟩ := fit i rfl
    let known : World Memory := { w.tick with store := w.store.know i }
    have answers : w.Answers inMemory c (.ensureUser i) known (.ok ()) := answers_of calm rfl
    have rows : known.store.tables = w.store.tables := (w.store.kept_know i).tables
    have free : known.store.tables.shareForUser? d.id i = none := by
      rw [rows]
      exact Option.isNone_iff_eq_none.mp (by
        simpa [← Tables.shareForUser_iff] using unheld)
    have looked : (Program.query (.findShareForUser d.id i)).Ends inMemory c known known.tick
        (.ok none) :=
      free ▸ query_calm (g := fun t => t.shareForUser? d.id i) calm (fun _ => rfl) known
    refine ⟨known.tick, ?_, rows, ?_⟩
    · refine ends_then (a := i) (ends_obey_ok.mpr ⟨rfl, if_pos positive⟩) ?_
      refine ends_then (a := ()) (ends_obey_ok.mpr ⟨rfl, if_neg other⟩) ?_
      refine ends_then (a := ()) (ends_query_ok.mpr answers) ?_
      exact ends_then looked (ends_refuseIf_ok.mpr ⟨rfl, rfl⟩)
    · intro j named
      cases named
      exact ⟨Memory.mem_know.mpr (.inr rfl), free⟩

theorem shareDocument_passes (calm : c.Calm) (numbered : w.store.Numbered) {request : ShareRequest}
    (passes : Passes c w caller id request) : ∃ u : World Memory,
      u.store.tables = w.store.tables ∧ u.tokens = w.tokens ∧
      u.store.Bindable id request.user ∧ ∀ w' r,
        (allocate id request 1 tokenAttempts).Ends inMemory c u w' r →
        (shareDocument caller id request).Ends inMemory c w w' r := by
  obtain ⟨d, ws, v, admitted, timely, fit⟩ := passes
  obtain ⟨same, _, rfl, _⟩ := documentFor_manage numbered admitted
  let read : World Memory := { v with readings := v.readings + 1 }
  rw [← same] at fit
  obtain ⟨u, required, rows, bindable⟩ := requireUser_passes (w := read) calm fit
  have drawn : u.tokens = w.tokens := by
    have before := (draws_documentFor _ _ _).same admitted
    exact ((draws_requireUser _ _ _).same required).trans before
  refine ⟨u, by rw [rows, ← same], drawn, bindable, fun w' r rest => ?_⟩
  refine ends_then admitted (ends_then (ends_clock.mpr ⟨rfl, rfl⟩) ?_)
  exact ends_then (a := ()) (ends_obey_ok.mpr ⟨rfl, timely⟩) (ends_then required rest)

theorem shareDocument_first (calm : c.Calm) (numbered : w.store.Numbered) {request : ShareRequest}
    (passes : Passes c w caller id request) {i : Nat} (lt : i < tokenAttempts)
    (held : ∀ j < i, w.store.tables.TokenHeld (c.token (w.tokens + j)))
    (free : ¬ w.store.tables.TokenHeld (c.token (w.tokens + i))) :
    ∃ w' s, (shareDocument caller id request).Ends inMemory c w w' (.ok s) ∧
      s.token = c.token (w.tokens + i) ∧ s.document = id ∧ s.user = request.user ∧
      s.permission = request.permission ∧ s.expiresAt = request.expiresAt ∧ s.isLive = true ∧
      w'.store.tables = w.store.tables.addShare s ∧ w'.tokens = w.tokens + i + 1 := by
  obtain ⟨u, rows, drawn, bindable, reaches⟩ := shareDocument_passes calm numbered passes
  rw [← rows, ← drawn] at held free
  obtain ⟨w', now, done, stored, counted⟩ :=
    allocate_first calm request bindable held free 1 (tokenAttempts - 1 - i)
  rw [show tokenAttempts - 1 - i + 1 + i = tokenAttempts by omega] at done
  refine ⟨w', _, reaches _ _ done, drawn ▸ rfl, rfl, rfl, rfl, rfl, rfl, ?_, drawn ▸ counted⟩
  rw [stored, ← rows]
  rfl

theorem shareDocument_none (calm : c.Calm) (numbered : w.store.Numbered) {request : ShareRequest}
    (passes : Passes c w caller id request)
    (held : ∀ i < tokenAttempts, w.store.tables.TokenHeld (c.token (w.tokens + i))) :
    ∃ w', (shareDocument caller id request).Ends inMemory c w w'
        (.error (.unavailable .noToken)) ∧
      w'.store.tables = w.store.tables ∧ w'.tokens = w.tokens + tokenAttempts := by
  obtain ⟨u, rows, drawn, bindable, reaches⟩ := shareDocument_passes calm numbered passes
  rw [← rows, ← drawn] at held
  obtain ⟨w', done, stored, counted⟩ := allocate_none calm request bindable held 1
  exact ⟨w', reaches _ _ done, by rw [stored, rows], drawn ▸ counted⟩

/-- In every state that requests lead to, a request to share a document draws three tokens at most,
and no token makes it end with a conflict. A request that passes the checks succeeds just where one of
the three tokens is held by no share, live or not. Then the first such token is taken, and the share
that was asked for is added to the rows; otherwise the rows stay as they are. -/
theorem Reachable.shareDocument_token (reached : Reachable w.store) (calm : c.Calm)
    (caller : Caller) (id : Int) (request : ShareRequest) :
    let t := w.store.tables
    let token := fun i => c.token (w.tokens + i)
    let out := (shareDocument caller id request).run inMemory c w
    out.1.tokens ≤ w.tokens + 3 ∧
    (∀ clash, out.2.1 = .error (.conflict clash) → ∃ user, clash = .shareUser id user) ∧
    (Passes c w caller id request →
      (∀ clash, out.2.1 ≠ .error (.conflict clash)) ∧
      ((∃ s, out.2.1 = .ok s) ↔ ∃ i < 3, ¬ t.TokenHeld (token i)) ∧
      (∀ i < 3, (∀ j < i, t.TokenHeld (token j)) → ¬ t.TokenHeld (token i) →
        ∃ s, out.2.1 = .ok s ∧ s.token = token i ∧ s.document = id ∧ s.user = request.user ∧
          s.permission = request.permission ∧ s.expiresAt = request.expiresAt ∧ s.isLive = true ∧
          out.1.store.tables = t.addShare s ∧ out.1.tokens = w.tokens + i + 1) ∧
      ((∀ i < 3, t.TokenHeld (token i)) → out.2.1 = .error (.unavailable .noToken) ∧
        out.1.store.tables = t ∧ out.1.tokens = w.tokens + 3)) := by
  intro t token out
  have numbered := reached.numbered
  have clashes : (shareDocument caller id request).Clashes c w _ :=
    shareDocument_clashes calm numbered id request
  refine ⟨(draws_shareDocument caller id request).bounds (ends_run _ _), fun clash refused => ?_,
    fun passes => ?_⟩
  · rcases (clashes.conflicts clash).mp refused with _ | _ | _ | _ | _
    exact ⟨_, rfl⟩
  have outcome : (∀ clash, out.2.1 ≠ .error (.conflict clash)) ∧
      ((∃ s, out.2.1 = .ok s) ↔ ∃ i < 3, ¬ t.TokenHeld (token i)) := by
    by_cases some : ∃ i < 3, ¬ t.TokenHeld (token i)
    · obtain ⟨i, lt, held, free⟩ := exists_first some
      obtain ⟨_, s, ⟨_, result⟩, _⟩ := shareDocument_first calm numbered passes lt
        (fun j before => not_not.mp (held j before)) free
      exact ⟨by simp [out, result], iff_of_true ⟨s, result⟩ some⟩
    · have held : ∀ i < 3, t.TokenHeld (token i) := by simpa using some
      obtain ⟨_, ⟨_, result⟩, _⟩ := shareDocument_none calm numbered passes held
      exact ⟨by simp [out, result], iff_of_false (by simp [out, result]) some⟩
  refine ⟨outcome.1, outcome.2, fun i lt held free => ?_, fun held => ?_⟩
  · obtain ⟨_, s, ⟨rfl, result⟩, share⟩ := shareDocument_first calm numbered passes lt held free
    exact ⟨s, result, share⟩
  · obtain ⟨_, ⟨rfl, result⟩, rows⟩ := shareDocument_none calm numbered passes held
    exact ⟨result, rows⟩

def tripled : Conditions where
  clock := steady.clock
  token := fun n => if n < 3 then "a" else "b"
  staging := steady.staging
  outage := steady.outage

def revoked : World Memory := sample.after ⟨some 1, none⟩ (.revokeShare 2 4)

/-- The token of the revoked share is drawn twice and passed over twice. -/
theorem revoked_token : Passes tripled revoked ⟨some 1, none⟩ 2 ⟨some 2, .view, none⟩ ∧
    ∃ s, ((shareDocument ⟨some 1, none⟩ 2 ⟨some 2, .view, none⟩).run inMemory tripled
      revoked).2.1 = .ok s ∧ s.token = "b" := by
  have reached : Reachable revoked.store := sample_reachable.after _ _
  have passes : Passes tripled revoked ⟨some 1, none⟩ 2 ⟨some 2, .view, none⟩ := by
    have admitted : ((documentFor ⟨some 1, none⟩ 2 .manage).run inMemory tripled
        revoked).2.1.isOk = true := by decide +kernel
    obtain ⟨⟨d, ws⟩, result⟩ := exists_ok admitted
    obtain ⟨_, _, _, own⟩ := documentFor_manage reached.numbered ⟨rfl, result⟩
    refine ⟨d, ws, _, ⟨rfl, result⟩, rfl, fun user named => ?_⟩
    cases named
    refine ⟨by decide, fun same => ?_, ?_⟩
    · rw [← same] at own
      cases own
    · rw [← Tables.shareForUser_iff]
      decide +kernel
  obtain ⟨_, _, settled⟩ := reached.shareDocument_token (c := tripled) (fun _ => rfl)
    ⟨some 1, none⟩ 2 ⟨some 2, .view, none⟩
  obtain ⟨_, _, first, _⟩ := settled passes
  obtain ⟨s, result, token, _⟩ := first 2 (by decide)
    (by simp only [← Tables.tokenExists_iff]; decide +kernel)
    (by simp only [← Tables.tokenExists_iff]; decide +kernel)
  refine ⟨passes, s, result, token.trans ?_⟩
  decide +kernel

end DiagramShare.Service
