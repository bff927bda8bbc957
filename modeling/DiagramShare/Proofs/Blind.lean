import DiagramShare.Proofs.Decision
import DiagramShare.Proofs.InStep
import DiagramShare.Proofs.Veil

/-! Programs that do not see behind a veil. Run on two stores that differ only there, a program
answers the same and leaves stores that again differ only there; whoever is kept from what is hidden
is not let through to it, and after that no program asks for it. -/
namespace DiagramShare.Service

open DiagramShare.Access
open DiagramShare.Repository (Memory Tables Call Over)
open DiagramShare.Time (Instant)
open List (Forall₂)

/-- Worlds whose stores differ only behind a veil, and that have come equally far. Tokens that are
yet to be drawn are not hidden. -/
structure World.Veiled (V : Veil) (c : Conditions) (w w' : World Memory) : Prop where
  backend : w'.backend = w.backend
  readings : w'.readings = w.readings
  drawn : w'.tokens = w.tokens
  uploads : w'.uploads = w.uploads
  calls : w'.calls = w.calls
  fresh : ∀ n, w.tokens ≤ n → V.known (c.token n)
  store : w.store.Veiled V w'.store
  numbered : w.store.Numbered
  numbered' : w'.store.Numbered

def Behind (V : Veil) (c : Conditions) (K : Tables → Prop) : Bond Memory Memory :=
  fun w w' => w.Veiled V c w' ∧ K w.store.tables

def SameRefusal (V : Veil) (c : Conditions) (e e' : Failure) : Bond Memory Memory :=
  fun w w' => e' = e ∧ w.Veiled V c w'

abbrev twice (c : Conditions) : Duo Memory Memory := ⟨inMemory, inMemory, c, c⟩

abbrev Alongside (V : Veil) (c : Conditions) (K : Tables → Prop) (p : Program α) (p' : Program β)
    (Q : α → β → Bond Memory Memory) : Prop :=
  (twice c).Agrees (SameRefusal V c) (Behind V c K) p p' Q

/-- A program does not see behind a veil, where the tables are such. -/
def Program.Blind (V : Veil) (c : Conditions) (K : Tables → Prop) (p : Program α) : Prop :=
  Alongside V c K p p fun a b w w' => b = a ∧ w.Veiled V c w'

def anywhere : Tables → Prop := fun _ => True

variable {V : Veil} {c : Conditions} {K J : Tables → Prop} {w w' : World Memory}

theorem World.Veiled.told (h : w.Veiled V c w') {m m' : Memory} (store : m.Veiled V m')
    (numbered : m.Numbered) (numbered' : m'.Numbered) : (w.told m).Veiled V c (w'.told m') :=
  { h with
    readings := congrArg (· + 1) h.readings
    calls := congrArg (· + 1) h.calls
    store, numbered, numbered' }

theorem World.Veiled.tick (h : w.Veiled V c w') : World.Veiled V c
    { w with readings := w.readings + 1 } { w' with readings := w'.readings + 1 } :=
  { h with readings := congrArg (· + 1) h.readings }

theorem World.Veiled.beside {m : Memory} (fresh : ∀ n, w.tokens ≤ n → V.known (c.token n))
    (store : w.store.Veiled V m) (numbered : w.store.Numbered) (numbered' : m.Numbered) :
    w.Veiled V c { w with store := m } :=
  ⟨rfl, rfl, rfl, rfl, rfl, fresh, store, numbered, numbered'⟩

theorem World.Veiled.elsewhere (h : w.Veiled V c w') : w' = { w with store := w'.store } := by
  obtain ⟨backend, readings, drawn, uploads, calls⟩ := h
  cases w'
  simp_all

theorem Alongside.ask {call : Call γ} {next : Except Repository.Failure γ → Program α}
    {next' : Except Repository.Failure γ → Program β} {Q : α → β → Bond Memory Memory}
    {S : Except Repository.Failure γ → Except Repository.Failure γ → Prop}
    (failed : ∀ e, S (.error e) (.error e))
    (answers : ∀ now (m m' : Memory), m.Veiled V m' → m.Numbered → m'.Numbered → K m.tables →
      S (Memory.answer now call m).2 (Memory.answer now call m').2 ∧
        (Memory.answer now call m).1.Veiled V (Memory.answer now call m').1 ∧
        J (Memory.answer now call m).1.tables)
    (idle : ∀ t, K t → J t)
    (rest : ∀ r r', S r r' → Alongside V c J (next r) (next' r') Q) :
    Alongside V c K (.ask call next) (.ask call next') Q := by
  rintro w w' v v' r r' ⟨h, holds⟩ ends ends'
  obtain ⟨u, a, ⟨rfl, rfl⟩, ends⟩ := ends_ask.mp ends
  obtain ⟨u', a', ⟨rfl, rfl⟩, ends'⟩ := ends_ask.mp ends'
  simp only [World.ask, h.calls] at ends ends'
  cases outage : c.outage w.calls with
  | some e =>
    simp only [outage] at ends ends'
    have after : World.Veiled V c { w with calls := w.calls + 1 }
        { w' with calls := w.calls + 1 } := { h with calls := rfl }
    exact rest _ _ (failed e) _ _ v v' r r' ⟨after, idle _ holds⟩ ends ends'
  | none =>
    simp only [outage, inMemory, h.readings] at ends ends'
    obtain ⟨same, store, kept⟩ :=
      answers (c.clock w.readings) w.store w'.store h.store h.numbered h.numbered' holds
    have told := h.told store (Memory.answer_numbered h.numbered call _)
      (Memory.answer_numbered h.numbered' call _)
    simp only [World.told, h.calls, h.readings] at told
    exact rest _ _ same _ _ v v' r r' ⟨told, kept⟩ ends ends'

namespace Program.Blind

variable {p : Program α} {call : Call γ}

theorem done (a : α) : (Program.done a).Blind V c K :=
  Duo.Agrees.done fun _ _ h => ⟨rfl, h.1⟩

theorem fail (e : Failure) : (Program.fail e : Program α).Blind V c K :=
  Duo.Agrees.fail fun _ _ h => ⟨rfl, h.1⟩

theorem given {F : Prop} (h : F → p.Blind V c K) : p.Blind V c fun t => F ∧ K t :=
  fun w w' v v' r r' holds => h holds.2.1 w w' v v' r r' ⟨holds.1, holds.2.2⟩

theorem learn {f : α → Program β} {F : α → Tables → Prop} (h : p.Blind V c K)
    (facts : ∀ w v a, K w.store.tables → p.Ends inMemory c w v (.ok a) → F a v.store.tables)
    (rest : ∀ a, (f a).Blind V c (F a)) : (p >>= f).Blind V c K := by
  have learned : Alongside V c K p p fun a b w w' => b = a ∧ Behind V c (F a) w w' := by
    intro w w' v v' r r' holds ends ends'
    cases h w w' v v' r r' holds ends ends' with
    | ok same => exact .ok ⟨same.1, same.2, facts w v _ holds.2 ends⟩
    | error same => exact .error same
  refine Duo.Agrees.bind learned fun a b => ?_
  refine Duo.Agrees.given (F := b = a) ?_
  rintro rfl
  exact rest b

theorem bind {f : α → Program β} (h : p.Blind V c K) (rest : ∀ a, (f a).Blind V c anywhere) :
    (p >>= f).Blind V c K :=
  h.learn (fun _ _ _ _ _ => trivial) rest

theorem andThen {f : α → Program β} (h : p.Blind V c K) (only : p.Only rowKeeping)
    (rest : ∀ a, (f a).Blind V c K) : (p >>= f).Blind V c K :=
  h.learn (fun _ _ _ holds ends => (only.kept ends).tables ▸ holds) rest

theorem ask {next : Except Repository.Failure γ → Program α} (opened : ∀ t, K t → call.Open V t)
    (rest : ∀ r, (next r).Blind V c anywhere) : (Program.ask call next).Blind V c K := by
  refine Alongside.ask (S := fun r r' => r' = r) (fun _ => rfl) ?_ (fun _ _ => trivial) ?_
  · intro now m m' veiled numbered numbered' holds
    have even := Repository.answer_evenly veiled numbered numbered' (opened _ holds) now
    exact ⟨even.answer, even.veiled, trivial⟩
  · rintro r r' rfl
    exact rest r'

theorem query (opened : ∀ t, K t → call.Open V t) : (Program.query call).Blind V c K := by
  refine ask opened fun r => ?_
  cases r with
  | ok a => exact done a
  | error e => exact fail _

theorem lookUp {what : String} (opened : ∀ t, K t → call.Open V t) :
    (Program.lookUp what call).Blind V c K := by
  refine ask opened fun r => ?_
  cases r with
  | ok a => exact done a
  | error e => exact fail _

theorem note (level : Level) (text : String) : (Program.note level text).Blind V c K :=
  (Duo.Agrees.note).after fun _ _ _ _ h => ⟨rfl, h.1⟩

theorem obey (checked : Except Invalid α) : (Program.obey checked).Blind V c K := by
  cases checked with
  | ok a => exact done a
  | error e => exact fail _

theorem refuseIf (found : Bool) (clash : Clash) : (Program.refuseIf found clash).Blind V c K := by
  cases found with
  | false => exact done ()
  | true => exact fail _

theorem clock : Program.clock.Blind V c K := by
  refine (Duo.Agrees.clock).after fun now now' v v' read => ?_
  obtain ⟨w, w', ⟨h, _⟩, rfl, rfl, rfl, rfl⟩ := read
  exact ⟨congrArg c.clock h.readings, h.tick⟩

theorem drawing {f : String → Program β} (rest : ∀ token, V.known token → (f token).Blind V c K) :
    (Program.freshToken >>= f).Blind V c K := by
  rintro w w' v v' r r' ⟨h, holds⟩ ends ends'
  have later : World.Veiled V c { w with tokens := w.tokens + 1 }
      { w' with tokens := w'.tokens + 1 } :=
    { h with
      drawn := congrArg (· + 1) h.drawn
      fresh := fun n drawn => h.fresh n (Nat.le_of_succ_le drawn) }
  have known := h.fresh w.tokens (Nat.le_refl _)
  have left : (f (c.token w.tokens)).Ends inMemory c { w with tokens := w.tokens + 1 } v r := ends
  have right : (f (c.token w.tokens)).Ends inMemory c { w' with tokens := w'.tokens + 1 } v' r' :=
    h.drawn ▸ ends'
  exact rest _ known _ _ v v' r r' ⟨later, holds⟩ left right

theorem store {call : Storage.Call γ} {next : Except Storage.Failure γ → Program α}
    (rest : ∀ r, (next r).Blind V c anywhere) : (Program.store call next).Blind V c K := by
  refine Duo.Agrees.store (S := fun r r' w w' => r' = r ∧ w.Veiled V c w') ?_ fun r r' => ?_
  · rintro w w' ⟨h, _⟩
    dsimp only
    rw [h.backend, h.uploads]
    exact ⟨rfl, { h with backend := rfl, uploads := congrArg (· + 1) h.uploads }⟩
  · refine Duo.Agrees.before (Duo.Agrees.given (F := r' = r) ?_) fun w w' h => h
    rintro rfl
    exact (rest r').before fun _ _ h => ⟨h, trivial⟩

theorem storing (call : Storage.Call γ) : (Program.storing call).Blind V c K := by
  refine store fun r => ?_
  cases r with
  | ok a => exact done a
  | error e => exact fail _

end Program.Blind

structure Veil.For (V : Veil) (caller : Caller) : Prop where
  user : V.user = caller.user
  token : ∀ shown ∈ caller.token, V.known shown

section Decisions

variable {caller : Caller} {kind : Kind} {d d' : Document} {ws ws' : Workspace} {now : Instant}

theorem applies_veiled (own : Veil.For V caller) {s s' : Share} (row : s.Veiled V s')
    (document : Int) : applies s' document caller now = applies s document caller now := by
  have expired : s'.isExpired now = s.isExpired now := by
    rw [Share.isExpired, Share.isExpired, row.expiresAt]
  simp only [applies, Share.isUsable, row.document, row.live, row.user, expired]
  cases s.user with
  | some user => rfl
  | none =>
    cases shown : caller.token with
    | none => rfl
    | some token =>
      have seen := row.beq (own.token token shown)
      simp only [Option.some_beq_some, Bool.beq_comm (a := token), seen]

theorem authorize_document_veiled (own : Veil.For V caller) (row : d.Veiled V d')
    (rowW : ws.Veiled V ws') {grants grants' : List Share}
    (granted : Forall₂ (Share.Veiled V) grants grants') :
    authorize (some (.document d' ws')) caller kind grants' now =
      authorize (some (.document d ws)) caller kind grants now := by
  have inside : (d'.workspace == ws'.id) = (d.workspace == ws.id) := by
    rw [row.workspace, rowW.id]
  have permission :
      permissionOf d'.id caller grants' now = permissionOf d.id caller grants now := by
    have picked := Repository.filter_twin granted (p := fun s => applies s d.id caller now)
      (q := fun s => applies s d.id caller now) fun s s' r => (applies_veiled own r d.id).symm
    rw [permissionOf, permissionOf, row.id, Repository.map_twin picked fun _ _ r => r.permission]
  exact authorize_document_congr row.live rowW.live inside rowW.owner row.isPublic rowW.isPublic
    permission

end Decisions

section Targets

variable {caller : Caller} {kind : Kind} {id : Int}

theorem find_veiled {call : Call γ} {f : Tables → Option γ} {R : γ → γ → Prop}
    (reads : ∀ now, Memory.answer now call = Memory.read fun t => Repository.orNotFound (f t))
    (rows : ∀ t t' : Tables, t.Veiled V t' → Option.Rel R (f t) (f t')) :
    Alongside V c anywhere (Program.find? call) (Program.find? call) fun a b w w' =>
      Option.Rel R a b ∧ Behind V c anywhere w w' := by
  refine Alongside.ask (S := Meet R fun e e' => e = e') (fun e => .error rfl) ?_
    (fun _ _ => trivial) fun r r' met => ?_
  · intro now m m' veiled _ _ _
    rw [reads]
    exact ⟨meet_orNotFound (rows _ _ veiled.tables), veiled, trivial⟩
  · cases met with
    | ok row => exact .done fun _ _ h => ⟨.some row, h⟩
    | @error e _ same =>
      cases same
      cases e with
      | notFound => exact .done fun _ _ h => ⟨.none, h⟩
      | _ => exact .fail fun _ _ h => ⟨rfl, h.1⟩

theorem letThrough_veiled {what : String} {found found' : Option α} {resource : α → Resource}
    {grants grants' : List Share} {R : α → α → Prop} (rows : Option.Rel R found found')
    (same : ∀ now a b, R a b → authorize (some (resource b)) caller kind grants' now =
      authorize (some (resource a)) caller kind grants now) :
    Alongside V c anywhere (letThrough caller kind what id found resource grants)
      (letThrough caller kind what id found' resource grants') fun a b w w' =>
        R a b ∧ w.Veiled V c w' := by
  rintro w w' v v' r r' ⟨h, _⟩ ends ends'
  have here : (letThrough caller kind what id found resource grants).Ends inMemory c w _ _ :=
    letThrough_ends what found resource grants w
  have there : (letThrough caller kind what id found' resource grants').Ends inMemory c w' _ _ :=
    letThrough_ends what found' resource grants' w'
  obtain rfl := here.1.symm.trans ends.1
  obtain rfl := there.1.symm.trans ends'.1
  obtain rfl := here.2.symm.trans ends.2
  obtain rfl := there.2.symm.trans ends'.2
  have decided : authorize (found'.map resource) caller kind grants' (c.clock w'.readings) =
      authorize (found.map resource) caller kind grants (c.clock w.readings) := by
    rw [h.readings]
    cases rows with
    | none => rfl
    | some row => exact same _ _ _ row
  rw [decided]
  refine (settle_meet rows).mono ?_ ?_
  · rintro a b ⟨row, _⟩
    exact ⟨row, h.tick⟩
  · rintro e e' rfl
    exact ⟨rfl, h.tick⟩

theorem workspaceFor_veiled : Alongside V c anywhere (workspaceFor caller id kind)
    (workspaceFor caller id kind) fun a b w w' => a.Veiled V b ∧ w.Veiled V c w' := by
  refine Duo.Agrees.bind (find_veiled (f := fun t => t.workspace? id) (fun _ => rfl)
    fun _ _ tables => tables.workspace id) fun row row' => .given fun rows => ?_
  exact letThrough_veiled rows fun _ _ _ row =>
    authorize_workspace_congr row.live row.owner row.isPublic

theorem workspaceOf_veiled {d d' : Option Document} (rows : Option.Rel (Document.Veiled V) d d') :
    Alongside V c anywhere (workspaceOf d) (workspaceOf d') fun a b w w' =>
      Option.Rel (Workspace.Veiled V) a b ∧ Behind V c anywhere w w' := by
  cases rows with
  | none => exact .done fun _ _ h => ⟨.none, h⟩
  | @some d d' row =>
    simp only [workspaceOf, row.workspace]
    exact find_veiled (f := fun t => t.workspace? d.workspace) (fun _ => rfl)
      fun _ _ tables => tables.workspace d.workspace

def Hid (V : Veil) (a b : Document × Workspace) : Prop := a.1.Veiled V b.1 ∧ a.2.Veiled V b.2

theorem grantsFor_veiled (own : Veil.For V caller) {a b : Option (Document × Workspace)}
    (rows : Option.Rel (Hid V) a b) : Alongside V c anywhere (grantsFor caller a)
      (grantsFor caller b) fun grants grants' w w' =>
        Forall₂ (Share.Veiled V) grants grants' ∧ Behind V c anywhere w w' := by
  cases rows with
  | none => exact .done fun _ _ h => ⟨.nil, h⟩
  | @some a b row =>
    obtain ⟨d, ws⟩ := a
    obtain ⟨d', ws'⟩ := b
    obtain ⟨row, rowW⟩ : d.Veiled V d' ∧ ws.Veiled V ws' := row
    simp only [grantsFor, rowW.owner, row.id]
    split
    · exact .done fun _ _ h => ⟨.nil, h⟩
    · refine Alongside.ask (S := Meet (Forall₂ (Share.Veiled V)) fun e e' => e = e')
        (fun e => .error rfl) ?_ (fun _ _ => trivial) fun r r' met => ?_
      · intro now m m' veiled _ _ _
        exact ⟨.ok (veiled.tables.grants d.id caller.user own.token), veiled, trivial⟩
      · cases met with
        | ok granted => exact .done fun _ _ h => ⟨granted, h⟩
        | error same =>
          cases same
          exact .fail fun _ _ h => ⟨rfl, h.1⟩

theorem documentFor_veiled (own : Veil.For V caller) : Alongside V c anywhere
    (documentFor caller id kind) (documentFor caller id kind) fun a b w w' =>
      Hid V a b ∧ w.Veiled V c w' := by
  refine Duo.Agrees.bind (find_veiled (f := fun t => t.document? id) (fun _ => rfl)
    fun _ _ tables => tables.document id) fun d d' => .given fun rows => ?_
  refine (workspaceOf_veiled rows).bind fun ws ws' => .given fun rowsW => ?_
  have target : Option.Rel (Hid V) (both d ws) (both d' ws') := both_rel rows rowsW
  refine (grantsFor_veiled own target).bind fun grants grants' => .given fun granted => ?_
  exact letThrough_veiled target fun _ _ _ r => authorize_document_veiled own r.1 r.2 granted

end Targets

structure KeptOut (V : Veil) (caller : Caller) (t : Tables) (now : Instant) : Prop where
  workspaces : ∀ ws ∈ t.workspaces, V.shut ws.id = true →
    authorize (some (.workspace ws)) caller .read [] now ≠ .allowed
  documents : ∀ id, V.closed id = true → ¬ Allowed t caller id .read now

/-- A program does not see behind a veil when a caller that is kept out at every instant of its run
has it run. -/
def Program.Guarded (V : Veil) (c : Conditions) (caller : Caller) (p : Program α) : Prop :=
  ∀ w w' v v' r r', World.Veiled V c w w' → p.Ends inMemory c w v r → p.Ends inMemory c w' v' r' →
    (∀ now, Shown c w v now → KeptOut V caller w.store.tables now) → r' = r ∧ v.Veiled V c v'

section Guarded

variable {caller : Caller}

theorem Program.Blind.guarded {p : Program α} (h : p.Blind V c anywhere) :
    p.Guarded V c caller := by
  intro w w' v v' r r' veiled ends ends' _
  cases h w w' v v' r r' ⟨veiled, trivial⟩ ends ends' with
  | ok same => exact ⟨congrArg _ same.1, same.2⟩
  | error same => exact ⟨congrArg _ same.1, same.2⟩

theorem Program.Guarded.as {p : Program α} (h : p.Guarded V c caller) (wrap : α → Answer) :
    (p.as wrap).Guarded V c caller := by
  intro w w' v v' r r' veiled ends ends' out
  obtain ⟨b, done, rfl⟩ := ends_as.mp ends
  obtain ⟨b', done', rfl⟩ := ends_as.mp ends'
  obtain ⟨rfl, left⟩ := h w w' v v' b b' veiled done done' out
  exact ⟨rfl, left⟩

/-- Where only what is seen is let through, what follows need not see more. -/
theorem Program.Guarded.of_admission {p : Program α} {f : α → Program β} {R : α → α → Prop}
    {F : α → Tables → Prop}
    (first : Alongside V c anywhere p p fun a b w w' => R a b ∧ w.Veiled V c w')
    (learn : ∀ w v a b, w.store.Numbered → Over V w.store.tables →
      (∀ now, Shown c w v now → KeptOut V caller w.store.tables now) →
      p.Ends inMemory c w v (.ok a) → R a b → b = a ∧ F a v.store.tables)
    (rest : ∀ a, (f a).Blind V c (F a)) : (p >>= f).Guarded V c caller := by
  intro w w' v v' r r' veiled ends ends' out
  rcases ends_bind.mp ends with ⟨e, failed, rfl⟩ | ⟨u, a, done, ends⟩ <;>
  rcases ends_bind.mp ends' with ⟨e', failed', rfl⟩ | ⟨u', b, done', ends'⟩
  · cases first w w' v v' _ _ ⟨veiled, trivial⟩ failed failed' with
    | error same => exact ⟨congrArg _ same.1, same.2⟩
  · cases first w w' v u' _ _ ⟨veiled, trivial⟩ failed done'
  · cases first w w' u v' _ _ ⟨veiled, trivial⟩ done failed'
  · cases first w w' u u' _ _ ⟨veiled, trivial⟩ done done' with
    | ok met =>
      have later := readings_le ends
      obtain ⟨rfl, holds⟩ := learn w u a b veiled.numbered veiled.store.tables.hides
        (fun now shown => out now (shown.mono (Nat.le_refl _) later)) done met.1
      cases rest b u u' v v' r r' ⟨met.2, holds⟩ ends ends' with
      | ok same => exact ⟨congrArg _ same.1, same.2⟩
      | error same => exact ⟨congrArg _ same.1, same.2⟩

end Guarded

end DiagramShare.Service
