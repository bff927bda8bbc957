import DiagramShare.Access.Rules
import DiagramShare.Log
import DiagramShare.Repository.Call
import DiagramShare.Storage.Call

/-!
Programs of the service. A program asks the store and the storage, reads the clock, draws tokens
and writes the log; it ends with a result or a refusal. `Program.run` gives it a store to work on.
-/
namespace DiagramShare.Service

open DiagramShare.Time (Instant)

inductive Program (α : Type) : Type 1 where
  | done (a : α)
  | fail (e : Access.Failure)
  | ask {β : Type} (call : Repository.Call β)
      (next : Except Repository.Failure β → Program α)
  | store {β : Type} (call : Storage.Call β) (next : Except Storage.Failure β → Program α)
  | now (next : Instant → Program α)
  | token (next : String → Program α)
  | log (record : LogRecord) (next : Program α)

namespace Program

def andThen : Program α → (α → Program β) → Program β
  | done a, f => f a
  | fail e, _ => fail e
  | ask call next, f => ask call fun r => (next r).andThen f
  | store call next, f => store call fun r => (next r).andThen f
  | now next, f => now fun t => (next t).andThen f
  | token next, f => token fun s => (next s).andThen f
  | log record next, f => log record (next.andThen f)

/-- A program that never fails: its result tells whether the program did. -/
def attempt : Program α → Program (Except Access.Failure α)
  | done a => done (.ok a)
  | fail e => done (.error e)
  | ask call next => ask call fun r => (next r).attempt
  | store call next => store call fun r => (next r).attempt
  | now next => now fun t => (next t).attempt
  | token next => token fun s => (next s).attempt
  | log record next => log record next.attempt

instance : Monad Program where
  pure := done
  bind := andThen

def query (call : Repository.Call α) : Program α :=
  ask call fun
    | .ok a => done a
    | .error e => fail (.ofRepository e)

/-- Asks the store for something that may not be there. -/
def lookUp (what : String) (call : Repository.Call α) : Program α :=
  ask call fun
    | .ok a => done a
    | .error e => fail (.ofLookup what e)

/-- Asks the store for something whose absence is an answer. -/
def find? (call : Repository.Call α) : Program (Option α) :=
  ask call fun
    | .ok a => done (some a)
    | .error .notFound => done none
    | .error e => fail (.ofRepository e)

def storing (call : Storage.Call α) : Program α :=
  store call fun
    | .ok a => done a
    | .error e => fail (.ofStorage e)

def clock : Program Instant := now done

def freshToken : Program String := token done

def obey : Except Access.Invalid α → Program α
  | .ok a => done a
  | .error e => fail (.invalid e)

def note (level : Level) (text : String) : Program Unit := log ⟨level, text⟩ (done ())

def refuseIf (found : Bool) (clash : Access.Clash) : Program Unit :=
  if found then fail (.conflict clash) else done ()

end Program

/-- How a store answers, and what its layer logs about an answer. -/
structure Store (σ : Type) where
  answer : {α : Type} → Instant → Repository.Call α → σ → σ × Except Repository.Failure α
  records : {α : Type} → Repository.Call α → Except Repository.Failure α → List LogRecord

/-- What a run meets from outside: the readings of the clock, the drawn tokens, the numbers of
staging files and the calls at which the store fails, each by its number. -/
structure Conditions where
  clock : Nat → Instant
  token : Nat → String
  staging : Nat → Nat
  outage : Nat → Option Repository.Failure

/-- A store and a storage, and how much of the conditions has been used. -/
structure World (σ : Type) where
  store : σ
  backend : Storage.Backend
  readings : Nat
  tokens : Nat
  uploads : Nat
  calls : Nat

def outageRecords : Repository.Failure → List LogRecord
  | .noConnection text => [⟨.error, s!"Failed to get database connection: {text}"⟩]
  | _ => []

namespace World

def start (store : σ) (backend : Storage.Backend) : World σ := ⟨store, backend, 0, 0, 0, 0⟩

def ask (s : Store σ) (c : Conditions) (call : Repository.Call α) (w : World σ) :
    World σ × Except Repository.Failure α × List LogRecord :=
  match c.outage w.calls with
  | some e => ({ w with calls := w.calls + 1 }, .error e, outageRecords e)
  | none =>
    let (store, result) := s.answer (c.clock w.readings) call w.store
    ({ w with store := store, calls := w.calls + 1, readings := w.readings + 1 }, result,
      s.records call result)

end World

/-- Runs a program on a world; the log records come in order. -/
def Program.run (s : Store σ) (c : Conditions) : Program α → World σ →
    World σ × Except Access.Failure α × List LogRecord
  | done a, w => (w, .ok a, [])
  | fail e, w => (w, .error e, [])
  | ask call next, w =>
    let (w, result, records) := w.ask s c call
    let (w, final, more) := (next result).run s c w
    (w, final, records ++ more)
  | store call next, w =>
    let (backend, result, records) := w.backend.answer (c.staging w.uploads) call
    let (w, final, more) :=
      (next result).run s c { w with backend := backend, uploads := w.uploads + 1 }
    (w, final, records ++ more)
  | now next, w => (next (c.clock w.readings)).run s c { w with readings := w.readings + 1 }
  | token next, w => (next (c.token w.tokens)).run s c { w with tokens := w.tokens + 1 }
  | log record next, w =>
    let (w, final, more) := next.run s c w
    (w, final, record :: more)

end DiagramShare.Service
