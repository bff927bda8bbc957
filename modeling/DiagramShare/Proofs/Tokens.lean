import DiagramShare.Proofs.Unseen
import Mathlib.Data.Fintype.EquivFin

/-! What a caller learns of tokens. Whoever does not own the workspace of a document is answered the
same whatever the tokens of its shares are, so long as the caller does not present one of them. -/
namespace DiagramShare

open DiagramShare.Time (Instant)
open List (Forall₂)

namespace Repository

def Tables.Foreign (t : Tables) (caller : Caller) (document : Int) : Prop :=
  ∃ d ∈ t.documents, ∃ w ∈ t.workspaces, d.id = document ∧ d.workspace = w.id ∧
    caller.user ≠ some w.owner

instance (t : Tables) (caller : Caller) (document : Int) : Decidable (t.Foreign caller document) :=
  inferInstanceAs (Decidable (∃ d ∈ t.documents, ∃ w ∈ t.workspaces, d.id = document ∧
    d.workspace = w.id ∧ caller.user ≠ some w.owner))

/-- Two shares that are the same, or the same but for tokens that the caller does not present, on a
document in a workspace of another. -/
inductive Retokened (caller : Caller) (t : Tables) (s : Share) : Share → Prop where
  | same : Retokened caller t s s
  | token (foreign : t.Foreign caller s.document) (token : String)
      (hidden : caller.token ≠ some s.token) (hidden' : caller.token ≠ some token) :
      Retokened caller t s { s with token := token }

/-- Two stores that are the same but for tokens of shares of others. -/
structure Memory.AlikeFor (caller : Caller) (m m' : Memory) : Prop where
  lastId : m'.lastId = m.lastId
  users : ∀ user, user ∈ m'.users ↔ user ∈ m.users
  failVersions : m'.failVersions = m.failVersions
  workspaces : m'.tables.workspaces = m.tables.workspaces
  documents : m'.tables.documents = m.tables.documents
  versions : m'.tables.versions = m.tables.versions
  shares : Forall₂ (Retokened caller m.tables) m.tables.shares m'.tables.shares

def Unused (m m' : Memory) (token : String) : Prop :=
  m.tables.tokenExists token = false ∧ m'.tables.tokenExists token = false

def veilOfTokens (caller : Caller) (m m' : Memory) : Veil where
  user := caller.user
  shut := fun _ => false
  closed := fun _ => false
  secret := m.tables.Foreign caller
  known := fun token => caller.token = some token ∨ Unused m m' token

variable {caller : Caller} {m m' : Memory}

theorem tokenExists_of_mem {t : Tables} {s : Share} (stored : s ∈ t.shares) :
    t.tokenExists s.token = true :=
  List.any_eq_true.mpr ⟨s, stored, beq_self_eq_true _⟩

theorem over_tokens : Over (veilOfTokens caller m m') m.tables :=
  ⟨fun _ => nofun, fun _ => nofun, fun _ _ => rfl, fun _ _ => nofun, fun _ secret => secret⟩

theorem Memory.AlikeFor.veiled (h : m.AlikeFor caller m') :
    m.Veiled (veilOfTokens caller m m') m' := by
  refine ⟨h.lastId, h.users, h.failVersions, ?_, ?_, ?_, ?_, over_tokens⟩
  · rw [h.workspaces]
    exact List.forall₂_same.mpr fun _ _ => .same
  · rw [h.documents]
    exact List.forall₂_same.mpr fun _ _ => .same
  · rw [h.versions]
  · have listed := (listed_twin (listed_twin h.shares).flip).flip
    refine listed.imp fun s s' ⟨stored', stored, row⟩ => ?_
    cases row with
    | same => exact .same
    | token foreign token hidden hidden' =>
      refine .token foreign token ?_ ?_
      · rintro (shown | ⟨unused, _⟩)
        · exact hidden shown
        · exact Bool.noConfusion (unused.symm.trans (tokenExists_of_mem stored))
      · rintro (shown | ⟨_, unused⟩)
        · exact hidden' shown
        · exact Bool.noConfusion (unused.symm.trans (tokenExists_of_mem stored'))

theorem Memory.Veiled.alikeFor {n n' : Memory} (h : n.Veiled (veilOfTokens caller m m') n') :
    n.AlikeFor caller n' := by
  have workspaces : Forall₂ Eq n.tables.workspaces n'.tables.workspaces :=
    h.tables.workspaces.imp fun _ _ row => (row.eq rfl).symm
  have documents : Forall₂ Eq n.tables.documents n'.tables.documents :=
    h.tables.documents.imp fun _ _ row => (row.eq rfl).symm
  have versions := h.tables.versions
  simp only [veilOfTokens, Bool.not_false, List.filter_true] at versions
  rw [List.forall₂_eq_eq_eq] at workspaces documents
  refine ⟨h.lastId, h.users, h.failVersions, workspaces.symm, documents.symm, versions, ?_⟩
  refine h.tables.shares.imp fun s s' row => ?_
  cases row with
  | same => exact .same
  | token secret token hidden hidden' =>
    exact .token (h.tables.hides.others _ secret) token (fun shown => hidden (.inl shown))
      fun shown => hidden' (.inl shown)

theorem exists_unused (m m' : Memory) : ∃ token, Unused m m' token := by
  obtain ⟨token, free⟩ := Infinite.exists_notMem_finset
    ((m.tables.shares ++ m'.tables.shares).map Share.token).toFinset
  simp only [List.mem_toFinset, List.mem_map, List.mem_append, not_exists, not_and] at free
  refine ⟨token, List.any_eq_false.mpr ?_, List.any_eq_false.mpr ?_⟩
  · intro s stored same
    exact free s (.inl stored) (beq_iff_eq.mp same)
  · intro s stored same
    exact free s (.inr stored) (beq_iff_eq.mp same)

end Repository

namespace Service

open DiagramShare.Access
open DiagramShare.Repository (Memory Unused veilOfTokens)

variable {σ : Type} {s : Store σ} {c : Conditions}

/-- A token is drawn between two worlds of a run. -/
def Drawn (c : Conditions) (w w' : World σ) (token : String) : Prop :=
  ∃ n, w.tokens ≤ n ∧ n < w'.tokens ∧ c.token n = token

theorem ask_tokens (call : Repository.Call β) (w : World σ) :
    (w.ask s c call).1.tokens = w.tokens := by
  unfold World.ask
  split <;> rfl

theorem tokens_le {p : Program α} {w w' : World σ} {r : Except Failure α}
    (h : p.Ends s c w w' r) : w.tokens ≤ w'.tokens := by
  induction p generalizing w with
  | done a => rw [(ends_done.mp h).1]
  | fail e => rw [(ends_fail.mp h).1]
  | ask call next ih =>
    obtain ⟨v, a, ⟨rfl, _⟩, h⟩ := ends_ask.mp h
    exact ask_tokens call w ▸ ih a h
  | store call next ih =>
    obtain ⟨_, a, h⟩ := ends_store h
    have rest := ih a h
    exact rest
  | now next ih =>
    have rest := ih _ (ends_now.mp h)
    exact rest
  | token next ih => exact Nat.le_of_succ_le (ih _ (ends_token.mp h))
  | log record next ih => exact ih (ends_log.mp h)

/-- A run depends on no tokens but those that it draws. -/
theorem ends_redrawn {p : Program α} {token : Nat → String} {w w' : World σ}
    {r : Except Failure α} (h : p.Ends s c w w' r)
    (same : ∀ n, w.tokens ≤ n → n < w'.tokens → token n = c.token n) :
    p.Ends s { c with token := token } w w' r := by
  induction p generalizing w with
  | done a => exact ends_done.mpr (ends_done.mp h)
  | fail e => exact ends_fail.mpr (ends_fail.mp h)
  | ask call next ih =>
    obtain ⟨v, a, ⟨rfl, rfl⟩, h⟩ := ends_ask.mp h
    refine ends_ask.mpr ⟨_, _, ⟨rfl, rfl⟩, ih _ h ?_⟩
    rw [ask_tokens]
    exact same
  | store call next ih => exact ih _ h same
  | now next ih => exact ih _ h same
  | token next ih =>
    have later := tokens_le (ends_token.mp h)
    have here := same w.tokens (Nat.le_refl _) later
    refine ends_token.mpr ?_
    dsimp only
    rw [here]
    exact ih _ h fun n drawn => same n (Nat.le_of_succ_le drawn)
  | log record next ih => exact ih h same

variable {w v : World Memory} {caller : Caller}

theorem unused_source {m' : Memory} {last : Nat}
    (fresh : ∀ n, w.tokens ≤ n → n < last → Unused w.store m' (c.token n)) :
    ∃ token : Nat → String, (∀ n, n < last → token n = c.token n) ∧
      ∀ n, w.tokens ≤ n → Unused w.store m' (token n) := by
  obtain ⟨spare, unused⟩ := Repository.exists_unused w.store m'
  refine ⟨fun n => if n < last then c.token n else spare, fun n drawn => if_pos drawn, ?_⟩
  intro n later
  dsimp only
  split
  · rename_i drawn
    exact fresh n later drawn
  · exact unused

/-- Two stores that requests have led to are the same but for tokens of shares of documents in
workspaces of others, none of them the one that a caller presents. Where no token that is drawn is
used in either store, the caller is answered the same on both, whatever the caller asks for, and the
stores are left the same but for such tokens again. -/
theorem token_noninterference {m' : Memory} (reached : Reachable w.store)
    (reached' : Reachable m') (alike : w.store.AlikeFor caller m') (op : Operation) :
    let out := (serve caller op).run inMemory c w
    let out' := (serve caller op).run inMemory c { w with store := m' }
    (∀ token, Drawn c w out.1 token ∨ Drawn c w out'.1 token → Unused w.store m' token) →
      out'.2.1 = out.2.1 ∧ out.1.store.AlikeFor caller out'.1.store ∧
        out'.1 = { out.1 with store := out'.1.store } := by
  intro out out' fresh
  have ends : (serve caller op).Ends inMemory c w out.1 out.2.1 := ends_run _ _
  have ends' : (serve caller op).Ends inMemory c { w with store := m' } out'.1 out'.2.1 :=
    ends_run _ _
  have unused : ∀ n, w.tokens ≤ n → n < max out.1.tokens out'.1.tokens →
      Unused w.store m' (c.token n) := by
    intro n later before
    rcases lt_max_iff.mp before with before | before
    · exact fresh _ (.inl ⟨n, later, before, rfl⟩)
    · exact fresh _ (.inr ⟨n, later, before, rfl⟩)
  obtain ⟨token, drawn, unused⟩ := unused_source unused
  have start : World.Veiled (veilOfTokens caller w.store m') { c with token := token } w
      { w with store := m' } :=
    .beside (fun n later => .inr (unused n later)) alike.veiled reached.numbered reached'.numbered
  have own : Veil.For (veilOfTokens caller w.store m') caller :=
    ⟨rfl, fun _ shown => .inl shown⟩
  obtain ⟨same, left⟩ := serve_guarded own op _ _ _ _ _ _ start
    (ends_redrawn ends fun n _ before => drawn n (lt_max_of_lt_left before))
    (ends_redrawn ends' fun n _ before => drawn n (lt_max_of_lt_right before))
    fun _ _ => ⟨fun _ _ => nofun, fun _ => nofun⟩
  exact ⟨same, left.store.alikeFor, left.elsewhere⟩

def borrowed (letter : Char) : World Memory :=
  (((serve ⟨some 1, none⟩ (.shareDocument 2 ⟨some 2, .view, none⟩)).run inMemory
    { steady with token := fun n => String.ofList (List.replicate (n + 1) letter) } sample).1.after
    ⟨some 2, none⟩ (.createWorkspace ⟨"Notes", none, none⟩)).after ⟨some 2, none⟩
    (.createDocument 6 ⟨"List", .markdown, none, none, none⟩)

theorem borrowed_reachable (letter : Char) : Reachable (borrowed letter).store :=
  ((Reachable.served sample_reachable _ _ _).after _ _).after _ _

def retoken (s : Share) : Share := if s.token = "bb" then { s with token := "cc" } else s

theorem borrowed_alikeFor : (borrowed 'b').store.AlikeFor ⟨some 2, none⟩ (borrowed 'c').store := by
  have others : ∀ s ∈ (borrowed 'b').store.tables.shares, s.token = "bb" →
      (borrowed 'b').store.tables.Foreign ⟨some 2, none⟩ s.document := by decide +kernel
  have shares : (borrowed 'c').store.tables.shares =
      (borrowed 'b').store.tables.shares.map retoken := by decide +kernel
  have users : (borrowed 'c').store.users = (borrowed 'b').store.users := by decide +kernel
  refine ⟨by decide +kernel, fun user => ?_, by decide +kernel, by decide +kernel,
    by decide +kernel, by decide +kernel, ?_⟩
  · rw [users]
  · rw [shares, List.forall₂_map_right_iff, List.forall₂_same]
    intro s stored
    by_cases drawn : s.token = "bb"
    · have swapped : retoken s = { s with token := "cc" } := if_pos drawn
      rw [swapped]
      exact .token (others s stored drawn) "cc" nofun nofun
    · have kept : retoken s = s := if_neg drawn
      rw [kept]
      exact .same

/-- User 2, who has the document of user 1 by a share, shares another and does not learn by which
token that share goes. -/
theorem borrower_unaware :
    let caller : Caller := ⟨some 2, none⟩
    let w := borrowed 'b'
    let m' := (borrowed 'c').store
    let op : Operation := .shareDocument 7 ⟨none, .edit, none⟩
    let out := (serve caller op).run inMemory steady w
    let out' := (serve caller op).run inMemory steady { w with store := m' }
    m'.tables.shares ≠ w.store.tables.shares ∧ Drawn steady w out.1 "aaa" ∧
      out.2.1.toOption.isSome = true ∧ out'.2.1 = out.2.1 ∧
      out.1.store.AlikeFor caller out'.1.store := by
  intro caller w m' op out out'
  have counts : w.tokens = 2 ∧ out.1.tokens = 3 ∧ out'.1.tokens = 3 := by decide +kernel
  have unused : Unused w.store m' (steady.token 2) := ⟨by decide +kernel, by decide +kernel⟩
  obtain ⟨before, after, after'⟩ := counts
  have once : ∀ v : World Memory, v.tokens = 3 → ∀ token, Drawn steady w v token →
      Unused w.store m' token := by
    rintro v three token ⟨n, later, earlier, rfl⟩
    obtain rfl : n = 2 := by omega
    exact unused
  obtain ⟨same, left, _⟩ := token_noninterference (c := steady) (borrowed_reachable 'b')
    (borrowed_reachable 'c') borrowed_alikeFor op fun token drawn =>
      drawn.elim (once out.1 after token) (once out'.1 after' token)
  refine ⟨?_, ⟨2, ?_, ?_, rfl⟩, ?_, same, left⟩
  · decide +kernel
  · omega
  · omega
  · decide +kernel

end Service

end DiagramShare
