import DiagramShare.Proofs.Admission

/-! Two runs side by side. Two programs run on two stores, each under conditions of its own. A
judgement says what holds of both worlds and of both results when they have ended, and judgements
compose along sequences of programs; nothing here depends on the stores. -/
namespace DiagramShare.Service

open DiagramShare.Access (Failure Invalid Clash)
open DiagramShare.Time (Instant)

variable {σ τ : Type} {α β γ δ : Type}

/-- Two outcomes of one kind: two results in one relation or two failures in another. -/
inductive Meet {ε φ : Type} (Q : α → β → Prop) (E : ε → φ → Prop) :
    Except ε α → Except φ β → Prop where
  | ok {a : α} {b : β} (holds : Q a b) : Meet Q E (.ok a) (.ok b)
  | error {e : ε} {f : φ} (holds : E e f) : Meet Q E (.error e) (.error f)

theorem Meet.mono {ε φ : Type} {Q Q' : α → β → Prop} {E E' : ε → φ → Prop} {r : Except ε α}
    {r' : Except φ β} (h : Meet Q E r r') (oks : ∀ a b, Q a b → Q' a b)
    (errors : ∀ e f, E e f → E' e f) : Meet Q' E' r r' := by
  cases h with
  | ok holds => exact .ok (oks _ _ holds)
  | error holds => exact .error (errors _ _ holds)

theorem Meet.known {ε φ : Type} {Q : α → β → Prop} {E : ε → φ → Prop} {r : Except ε α}
    {r' : Except φ β} (h : Meet Q E r r') :
    Meet (fun a b => Q a b ∧ r = .ok a) (fun e f => E e f ∧ r = .error e) r r' := by
  cases h with
  | ok holds => exact .ok ⟨holds, rfl⟩
  | error holds => exact .error ⟨holds, rfl⟩

abbrev Bond (σ τ : Type) := World σ → World τ → Prop

structure Duo (σ τ : Type) where
  left : Store σ
  right : Store τ
  here : Conditions
  there : Conditions

/-- From worlds with `P`, two programs lead to worlds and results with `Q`, or both fail, with `E`
of the failures and worlds. -/
def Duo.Agrees (D : Duo σ τ) (E : Failure → Failure → Bond σ τ) (P : Bond σ τ) (p : Program α)
    (p' : Program β) (Q : α → β → Bond σ τ) : Prop :=
  ∀ w w' v v' r r', P w w' → p.Ends D.left D.here w v r → p'.Ends D.right D.there w' v' r' →
    Meet (fun a b => Q a b v v') (fun e e' => E e e' v v') r r'

def World.told (w : World σ) (store : σ) : World σ :=
  { w with store := store, calls := w.calls + 1, readings := w.readings + 1 }

def Duo.Answers (D : Duo σ τ) (P : Bond σ τ) (call : Repository.Call α) (call' : Repository.Call β)
    (R : α → β → Bond σ τ) (F : Repository.Failure → Repository.Failure → Bond σ τ) : Prop :=
  ∀ w w', P w w' →
    let out := D.left.answer (D.here.clock w.readings) call w.store
    let out' := D.right.answer (D.there.clock w'.readings) call' w'.store
    Meet (fun a b => R a b (w.told out.1) (w'.told out'.1))
      (fun e e' => F e e' (w.told out.1) (w'.told out'.1)) out.2 out'.2

namespace Duo.Agrees

variable {D : Duo σ τ} {E : Failure → Failure → Bond σ τ} {P P' : Bond σ τ}
variable {Q Q' : α → β → Bond σ τ} {R : γ → δ → Bond σ τ}

theorem bind {p : Program α} {p' : Program β} {f : α → Program γ} {f' : β → Program δ}
    (first : D.Agrees E P p p' Q) (rest : ∀ a b, D.Agrees E (Q a b) (f a) (f' b) R) :
    D.Agrees E P (p >>= f) (p' >>= f') R := by
  intro w w' v v' r r' holds ends ends'
  rcases ends_bind.mp ends with ⟨e, failed, rfl⟩ | ⟨u, a, done, ends⟩ <;>
  rcases ends_bind.mp ends' with ⟨e', failed', rfl⟩ | ⟨u', a', done', ends'⟩
  · cases first w w' v v' _ _ holds failed failed' with
    | error holds => exact .error holds
  · cases first w w' v u' _ _ holds failed done'
  · cases first w w' u v' _ _ holds done failed'
  · cases first w w' u u' _ _ holds done done' with
    | ok holds => exact rest a a' u u' v v' r r' holds ends ends'

theorem weaken {p : Program α} {p' : Program β} (h : D.Agrees E P p p' Q)
    (pre : ∀ w w', P' w w' → P w w') (post : ∀ a b w w', Q a b w w' → Q' a b w w') :
    D.Agrees E P' p p' Q' :=
  fun w w' v v' r r' holds ends ends' =>
    (h w w' v v' r r' (pre w w' holds) ends ends').mono (fun a b => post a b v v') fun _ _ h => h

theorem before {p : Program α} {p' : Program β} (h : D.Agrees E P p p' Q)
    (pre : ∀ w w', P' w w' → P w w') : D.Agrees E P' p p' Q :=
  h.weaken pre fun _ _ _ _ h => h

theorem after {p : Program α} {p' : Program β} (h : D.Agrees E P p p' Q)
    (post : ∀ a b w w', Q a b w w' → Q' a b w w') : D.Agrees E P p p' Q' :=
  h.weaken (fun _ _ h => h) post

theorem given {F : Prop} {p : Program α} {p' : Program β} (h : F → D.Agrees E P p p' Q) :
    D.Agrees E (fun w w' => F ∧ P w w') p p' Q :=
  fun w w' v v' r r' holds => h holds.1 w w' v v' r r' holds.2

theorem done {a : α} {b : β} (holds : ∀ w w', P w w' → Q a b w w') :
    D.Agrees E P (.done a) (.done b) Q := by
  intro w w' v v' r r' pre ends ends'
  obtain ⟨rfl, rfl⟩ := ends_done.mp ends
  obtain ⟨rfl, rfl⟩ := ends_done.mp ends'
  exact .ok (holds _ _ pre)

theorem fail {e e' : Failure} (holds : ∀ w w', P w w' → E e e' w w') :
    D.Agrees E P (.fail e : Program α) (.fail e' : Program β) Q := by
  intro w w' v v' r r' pre ends ends'
  obtain ⟨rfl, rfl⟩ := ends_fail.mp ends
  obtain ⟨rfl, rfl⟩ := ends_fail.mp ends'
  exact .error (holds _ _ pre)

theorem ask {call : Repository.Call γ} {call' : Repository.Call δ}
    {next : Except Repository.Failure γ → Program α}
    {next' : Except Repository.Failure δ → Program β}
    {F : Repository.Failure → Repository.Failure → Bond σ τ} (calm : D.here.Calm)
    (calm' : D.there.Calm) (answers : D.Answers P call call' R F)
    (done : ∀ a b, D.Agrees E (R a b) (next (.ok a)) (next' (.ok b)) Q)
    (failed : ∀ e e', D.Agrees E (F e e') (next (.error e)) (next' (.error e')) Q) :
    D.Agrees E P (.ask call next) (.ask call' next') Q := by
  intro w w' v v' r r' holds ends ends'
  obtain ⟨u, a, ⟨rfl, rfl⟩, ends⟩ := ends_ask.mp ends
  obtain ⟨u', a', ⟨rfl, rfl⟩, ends'⟩ := ends_ask.mp ends'
  rw [ask_calm calm] at ends
  rw [ask_calm calm'] at ends'
  have met := answers w w' holds
  revert ends ends'
  generalize D.left.answer (D.here.clock w.readings) call w.store = out at met ⊢
  generalize D.right.answer (D.there.clock w'.readings) call' w'.store = out' at met ⊢
  obtain ⟨store, result⟩ := out
  obtain ⟨store', result'⟩ := out'
  intro ends ends'
  cases met with
  | ok holds => exact done _ _ _ _ v v' r r' holds ends ends'
  | error holds => exact failed _ _ _ _ v v' r r' holds ends ends'

def Alike (I : Bond σ τ) (e e' : Repository.Failure) (w : World σ) (w' : World τ) : Prop :=
  e = e' ∧ I w w'

section Queries

variable {I : Bond σ τ} {call : Repository.Call α} {call' : Repository.Call β}

theorem query (calm : D.here.Calm) (calm' : D.there.Calm)
    (answers : D.Answers P call call' Q (Alike I)) (errors : ∀ e w w', I w w' → E e e w w') :
    D.Agrees E P (Program.query call) (Program.query call') Q :=
  .ask calm calm' answers (fun _ _ => .done fun _ _ h => h) fun e e' => .fail fun w w' h => by
    obtain ⟨rfl, holds⟩ := h
    exact errors _ w w' holds

theorem lookUp (what : String) (calm : D.here.Calm) (calm' : D.there.Calm)
    (answers : D.Answers P call call' Q (Alike I)) (errors : ∀ e w w', I w w' → E e e w w') :
    D.Agrees E P (Program.lookUp what call) (Program.lookUp what call') Q :=
  .ask calm calm' answers (fun _ _ => .done fun _ _ h => h) fun e e' => .fail fun w w' h => by
    obtain ⟨rfl, holds⟩ := h
    exact errors _ w w' holds

theorem find {call : Repository.Call γ} {call' : Repository.Call δ}
    {S : Option γ → Option δ → Bond σ τ} (calm : D.here.Calm) (calm' : D.there.Calm)
    (answers : D.Answers P call call' (fun a b => S (some a) (some b))
      fun e e' w w' => e = .notFound ∧ e' = .notFound ∧ S none none w w') :
    D.Agrees E P (Program.find? call) (Program.find? call') S :=
  .ask calm calm' answers (fun _ _ => .done fun _ _ h => h) fun e e' => by
    intro w w' v v' r r' holds
    obtain ⟨rfl, rfl, missing⟩ := holds
    exact done (P := S none none) (fun _ _ h => h) w w' v v' r r' missing

end Queries

theorem clock : D.Agrees E P Program.clock Program.clock fun now now' v v' => ∃ w w', P w w' ∧
    now = D.here.clock w.readings ∧ now' = D.there.clock w'.readings ∧
    v = { w with readings := w.readings + 1 } ∧ v' = { w' with readings := w'.readings + 1 } := by
  intro w w' v v' r r' holds ends ends'
  obtain ⟨rfl, rfl⟩ := ends_clock.mp ends
  obtain ⟨rfl, rfl⟩ := ends_clock.mp ends'
  exact .ok ⟨w, w', holds, rfl, rfl, rfl, rfl⟩

theorem freshToken : D.Agrees E P Program.freshToken Program.freshToken
    fun token token' v v' => ∃ w w', P w w' ∧ token = D.here.token w.tokens ∧
      token' = D.there.token w'.tokens ∧ v = { w with tokens := w.tokens + 1 } ∧
      v' = { w' with tokens := w'.tokens + 1 } := by
  intro w w' v v' r r' holds ends ends'
  obtain ⟨rfl, rfl⟩ := ends_freshToken.mp ends
  obtain ⟨rfl, rfl⟩ := ends_freshToken.mp ends'
  exact .ok ⟨w, w', holds, rfl, rfl, rfl, rfl⟩

theorem note {level level' : Level} {text text' : String} :
    D.Agrees E P (Program.note level text) (Program.note level' text') fun _ _ => P := by
  intro w w' v v' r r' holds ends ends'
  obtain ⟨rfl, rfl⟩ := ends_note.mp ends
  obtain ⟨rfl, rfl⟩ := ends_note.mp ends'
  exact .ok holds

theorem obey {checked : Except Invalid α}
    (errors : ∀ e w w', P w w' → E (.invalid e) (.invalid e) w w') :
    D.Agrees E P (Program.obey checked) (Program.obey checked)
      fun a b w w' => (a = b ∧ checked = .ok a) ∧ P w w' := by
  cases checked with
  | ok a => exact .done fun _ _ h => ⟨⟨rfl, rfl⟩, h⟩
  | error e => exact .fail (errors e)

theorem refuseIf {found found' : Bool} {clash clash' : Clash} (same : found = found')
    (errors : ∀ w w', P w w' → E (.conflict clash) (.conflict clash') w w') :
    D.Agrees E P (Program.refuseIf found clash) (Program.refuseIf found' clash')
      fun _ _ w w' => found = false ∧ P w w' := by
  subst same
  cases found with
  | false => exact .done fun _ _ h => ⟨rfl, h⟩
  | true => exact .fail errors

def filed (w : World σ) (backend : Storage.Backend) : World σ :=
  { w with backend := backend, uploads := w.uploads + 1 }

theorem store {call : Storage.Call γ} {call' : Storage.Call δ}
    {next : Except Storage.Failure γ → Program α} {next' : Except Storage.Failure δ → Program β}
    {S : Except Storage.Failure γ → Except Storage.Failure δ → Bond σ τ}
    (answers : ∀ w w', P w w' →
      let out := w.backend.answer (D.here.staging w.uploads) call
      let out' := w'.backend.answer (D.there.staging w'.uploads) call'
      S out.2.1 out'.2.1 (filed w out.1) (filed w' out'.1))
    (rest : ∀ a b, D.Agrees E (S a b) (next a) (next' b) Q) :
    D.Agrees E P (.store call next) (.store call' next') Q := by
  intro w w' v v' r r' holds ends ends'
  exact rest _ _ _ _ v v' r r' (answers w w' holds) ends ends'

end Duo.Agrees

end DiagramShare.Service
