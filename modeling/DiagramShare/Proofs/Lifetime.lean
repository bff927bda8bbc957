import DiagramShare.Proofs.Effect

/-! Lives of shares. Whether a share is in force at some later time is told by the requests that have
succeeded since it was made: one that ends it ends it for good, and its permission and its expiry are
the ones that were set last. -/
namespace DiagramShare.Repository

open DiagramShare.Time (Instant)

def Change.onDocument (change : Change) (d : Document) : Document :=
  match change with
  | setDocument e changes now => if d.id == e.id then e.change changes now else d
  | deleteDocument e time => if d.id == e.id then e.tombstone time else d
  | deleteWorkspace w time => if d.workspace == w.id && d.isLive then d.tombstone time else d
  | _ => d

def Change.onShare (change : Change) (t : Tables) (s : Share) : Share :=
  match change with
  | setShare r changes now => if s.id == r.id then r.change changes now else s
  | deleteShare r time => if s.id == r.id then r.tombstone time else s
  | deleteDocument d time => if [d.id].contains s.document && s.isLive then s.tombstone time else s
  | deleteWorkspace w time =>
    if ((t.documentsOf w.id).map Document.id).contains s.document && s.isLive then
      s.tombstone time
    else s
  | _ => s

variable {m : Memory} {change : Change}

theorem onDocument_mem {d : Document} (stored : d ∈ m.tables.documents) :
    change.onDocument d ∈ (change.on m).tables.documents := by
  cases change with
  | know user => exact (m.kept_know user).tables ▸ stored
  | addDocument new now => exact List.mem_append_left _ stored
  | addDocumentWithVersion new first now => exact List.mem_append_left _ stored
  | setDocument e changes now => exact mem_updateWhere.mpr ⟨d, stored, rfl⟩
  | deleteDocument e time => exact mem_updateWhere.mpr ⟨d, stored, rfl⟩
  | deleteWorkspace w time => exact mem_updateWhere.mpr ⟨d, stored, rfl⟩
  | _ => exact stored

theorem onShare_mem {s : Share} (stored : s ∈ m.tables.shares) :
    change.onShare m.tables s ∈ (change.on m).tables.shares := by
  cases change with
  | know user => exact (m.kept_know user).tables ▸ stored
  | addShare new now => exact List.mem_append_left _ stored
  | setShare r changes now => exact mem_updateWhere.mpr ⟨s, stored, rfl⟩
  | deleteShare r time => exact mem_updateWhere.mpr ⟨s, stored, rfl⟩
  | deleteDocument d time => exact mem_updateWhere.mpr ⟨s, stored, rfl⟩
  | deleteWorkspace w time => exact mem_updateWhere.mpr ⟨s, stored, rfl⟩
  | _ => exact stored

theorem onDocument_id (change : Change) (d : Document) : (change.onDocument d).id = d.id := by
  cases change with
  | setDocument e changes now =>
    simp only [Change.onDocument]
    split
    · rename_i hit
      exact (beq_iff_eq.mp hit).symm
    · rfl
  | deleteDocument e time =>
    simp only [Change.onDocument]
    split
    · rename_i hit
      exact (beq_iff_eq.mp hit).symm
    · rfl
  | deleteWorkspace w time =>
    simp only [Change.onDocument]
    split <;> rfl
  | _ => rfl

section Deletions

variable {t : Tables} {s r : Share} {d e : Document} {w : Workspace} {time : Instant}

def Deleted (s s' : Share) : Prop := s' = s ∧ s.isLive = false ∨ ∃ time, s' = s.tombstone time

theorem onShare_deleteDocument (on : s.document = e.id) :
    Deleted s ((Change.deleteDocument e time).onShare t s) := by
  cases live : s.isLive <;> simp [Deleted, Change.onShare, on, live]

theorem onShare_deleteDocument_eq (other : s.document ≠ e.id) :
    (Change.deleteDocument e time).onShare t s = s := by
  simp [Change.onShare, other]

theorem onDocument_deleteDocument_eq (other : d.id ≠ e.id) :
    (Change.deleteDocument e time).onDocument d = d := by
  simp [Change.onDocument, other]

theorem onShare_deleteWorkspace (stored : d ∈ t.documents) (on : s.document = d.id)
    (inside : s.isLive = true → d.workspace = w.id ∧ d.isLive = true) :
    Deleted s ((Change.deleteWorkspace w time).onShare t s) := by
  cases live : s.isLive with
  | false => simp [Deleted, Change.onShare, live]
  | true =>
    obtain ⟨within, liveD⟩ := inside live
    have hit : d ∈ t.documentsOf w.id := List.mem_filter.mpr ⟨stored, by simp [within, liveD]⟩
    have listed : s.document ∈ (t.documentsOf w.id).map Document.id :=
      List.mem_map.mpr ⟨d, hit, on.symm⟩
    exact .inr ⟨time, if_pos (by simp [listed, live])⟩

theorem onShare_deleteWorkspace_eq (distinct : (t.documents.map Document.id).Nodup)
    (stored : d ∈ t.documents) (on : s.document = d.id)
    (outside : s.isLive = true → d.workspace ≠ w.id) :
    (Change.deleteWorkspace w time).onShare t s = s := by
  refine if_neg fun hit => ?_
  rw [Bool.and_eq_true, List.contains_iff_mem, List.mem_map] at hit
  obtain ⟨⟨e, listed, number⟩, live⟩ := hit
  obtain ⟨storedE, hitE⟩ := List.mem_filter.mp listed
  obtain rfl := eq_of_key distinct storedE stored (number.trans on)
  rw [Bool.and_eq_true, beq_iff_eq] at hitE
  exact outside live hitE.1

theorem onDocument_deleteWorkspace_eq (other : d.workspace ≠ w.id) :
    (Change.deleteWorkspace w time).onDocument d = d := by
  simp [Change.onDocument, other]

theorem onShare_setShare {changes : ShareChanges} {now : Instant} (same : s = r) :
    (Change.setShare r changes now).onShare t s = s.change changes now := by
  subst same
  exact if_pos (beq_self_eq_true _)

theorem onShare_setShare_eq {changes : ShareChanges} {now : Instant} (other : s.id ≠ r.id) :
    (Change.setShare r changes now).onShare t s = s :=
  if_neg (by simpa using other)

theorem onShare_deleteShare (same : s = r) : Deleted s ((Change.deleteShare r time).onShare t s) := by
  subst same
  exact .inr ⟨time, if_pos (beq_self_eq_true _)⟩

theorem onShare_deleteShare_eq (other : s.id ≠ r.id) :
    (Change.deleteShare r time).onShare t s = s :=
  if_neg (by simpa using other)

end Deletions

end DiagramShare.Repository

namespace DiagramShare.Service

open DiagramShare.Access
open DiagramShare.Repository (Memory Tables Change)
open DiagramShare.Time (Instant)

/-- A request and its outcome. -/
structure Event where
  caller : Caller
  op : Operation
  result : Except Failure Answer

/-- The requests that lead from one state to another, in their order, each under conditions of its
own. Between requests, the writing of versions may begin to fail or work again. -/
inductive Past (start : Memory) : List Event → Memory → Prop where
  | here : Past start [] start
  | served {events : List Event} {w w' : World Memory} {c : Conditions} {caller : Caller}
      {op : Operation} {result : Except Failure Answer} (before : Past start events w.store)
      (ends : (serve caller op).Ends inMemory c w w' result) :
      Past start (events ++ [⟨caller, op, result⟩]) w'.store
  | failing {events : List Event} {m : Memory} (before : Past start events m) (fail : Bool) :
      Past start events { m with failVersions := fail }

/-- A request that has ended a share, on a document whose workspace has this number. -/
def Event.isEnd (s : Share) (home : Int) (e : Event) : Bool :=
  match e.op, e.result with
  | .revokeShare _ share, .ok _ => share == s.id
  | .deleteDocument document, .ok _ => document == s.document
  | .deleteWorkspace workspace, .ok _ => workspace == home
  | _, _ => false

/-- What a request has set of a share. -/
def Event.update? (s : Share) (e : Event) : Option ShareUpdate :=
  match e.op, e.result with
  | .updateShare _ share request, .ok _ => if share = s.id then some request else none
  | _, _ => none

def Ended (s : Share) (home : Int) (events : List Event) : Prop :=
  ∃ e ∈ events, e.isEnd s home = true

def permissionAfter (s : Share) (events : List Event) : Permission :=
  ((events.filterMap (Event.update? s)).filterMap ShareUpdate.permission).getLast?.getD
    s.permission

/-- The expiry that was set last, by a request that had one; it may have been removed. -/
def expiryAfter (s : Share) (events : List Event) : Option Instant :=
  ((events.filterMap (Event.update? s)).filterMap ShareUpdate.expiresAt).getLast?.getD s.expiresAt

section Events

variable {s : Share} {home : Int} {events : List Event} {e : Event}

theorem ended_snoc : Ended s home (events ++ [e]) ↔
    Ended s home events ∨ e.isEnd s home = true := by
  simp [Ended, or_and_right, exists_or]

theorem ended_passed (events : List Event) (going : e.isEnd s home = false) :
    Ended s home (events ++ [e]) ↔ Ended s home events := by
  rw [ended_snoc, going]
  simp

theorem settings_passed (events : List Event) (silent : e.update? s = none) :
    permissionAfter s (events ++ [e]) = permissionAfter s events ∧
      expiryAfter s (events ++ [e]) = expiryAfter s events := by
  simp [permissionAfter, expiryAfter, List.filterMap_append, silent]

theorem getLast_snoc_getD (earlier : List α) (set? : Option α) (initial : α) :
    (earlier ++ set?.toList).getLast?.getD initial =
      set?.getD (earlier.getLast?.getD initial) := by
  cases set? <;> simp

theorem filterMap_singleton_toList (f : α → Option β) (a : α) : [a].filterMap f = (f a).toList := by
  cases h : f a <;> simp [h]

theorem settings_set (events : List Event) {request : ShareUpdate}
    (given : e.update? s = some request) :
    permissionAfter s (events ++ [e]) = request.permission.getD (permissionAfter s events) ∧
      expiryAfter s (events ++ [e]) = request.expiresAt.getD (expiryAfter s events) := by
  have one : [e].filterMap (Event.update? s) = [request] := by
    rw [filterMap_singleton_toList, given]
    rfl
  constructor <;>
    simp only [permissionAfter, expiryAfter, List.filterMap_append, one,
      filterMap_singleton_toList, getLast_snoc_getD]

theorem failed_silent (s : Share) (home : Int) (caller : Caller) (op : Operation) (f : Failure) :
    Event.isEnd s home ⟨caller, op, .error f⟩ = false ∧
      Event.update? s ⟨caller, op, .error f⟩ = none := by
  cases op <;> exact ⟨rfl, rfl⟩

end Events

/-- The row of a share and that of its document, after such requests since the share was made. -/
structure Standing (s : Share) (home : Int) (events : List Event) (row : Share) (d : Document) :
    Prop where
  number : row.id = s.id
  document : row.document = s.document
  user : row.user = s.user
  token : row.token = s.token
  permission : row.permission = permissionAfter s events
  expiry : row.expiresAt = expiryAfter s events
  live : row.isLive = true ↔ ¬ Ended s home events
  on : d.id = s.document
  inside : ¬ Ended s home events → d.workspace = home ∧ d.isLive = true

namespace Standing

variable {s row row' : Share} {home : Int} {events : List Event} {d d' : Document} {e : Event}

theorem passed (h : Standing s home events row d) (going : e.isEnd s home = false)
    (silent : e.update? s = none) (on : d'.id = d.id)
    (inside : ¬ Ended s home events → d'.workspace = d.workspace ∧ d'.isLive = d.isLive) :
    Standing s home (events ++ [e]) row d' := by
  obtain ⟨permission, expiry⟩ := settings_passed events silent
  have same := ended_passed events going
  refine ⟨h.number, h.document, h.user, h.token, permission ▸ h.permission, expiry ▸ h.expiry,
    h.live.trans same.not.symm, on.trans h.on, fun lasting => ?_⟩
  obtain ⟨workspace, live⟩ := h.inside (same.not.mp lasting)
  obtain ⟨within, live'⟩ := inside (same.not.mp lasting)
  exact ⟨within.trans workspace, live'.trans live⟩

theorem ended (h : Standing s home events row d) (ending : e.isEnd s home = true)
    (silent : e.update? s = none) (on : d'.id = d.id)
    (gone : Repository.Deleted row row') :
    Standing s home (events ++ [e]) row' d' := by
  obtain ⟨permission, expiry⟩ := settings_passed events silent
  have ended : Ended s home (events ++ [e]) := ended_snoc.mpr (.inr ending)
  have dead : row'.isLive = true ↔ ¬ Ended s home (events ++ [e]) := by
    refine iff_of_false ?_ (not_not_intro ended)
    rcases gone with ⟨rfl, dead⟩ | ⟨time, rfl⟩
    · rw [dead]
      exact Bool.false_ne_true
    · exact Bool.false_ne_true
  rcases gone with ⟨rfl, _⟩ | ⟨time, rfl⟩ <;>
  exact ⟨h.number, h.document, h.user, h.token, permission ▸ h.permission, expiry ▸ h.expiry,
    dead, on.trans h.on, fun lasting => absurd ended lasting⟩

theorem set (h : Standing s home events row d) {request : ShareUpdate} {now : Instant}
    (going : e.isEnd s home = false) (given : e.update? s = some request) :
    Standing s home (events ++ [e]) (row.change ⟨request.permission, request.expiresAt⟩ now) d := by
  obtain ⟨permission, expiry⟩ := settings_set events given
  have same := ended_passed events going
  refine ⟨h.number, h.document, h.user, h.token, ?_, ?_, h.live.trans same.not.symm, h.on,
    fun lasting => h.inside (same.not.mp lasting)⟩
  · rw [permission, ← h.permission]
    rfl
  · rw [expiry, ← h.expiry]
    rfl

variable {m : Memory} {caller : Caller} {a : Answer} {r : Share} {time : Instant}

theorem deleteDocument (h : Standing s home events row d) (e : Document) :
    Standing s home (events ++ [⟨caller, .deleteDocument e.id, .ok a⟩])
      ((Change.deleteDocument e time).onShare m.tables row)
      ((Change.deleteDocument e time).onDocument d) := by
  by_cases same : e.id = s.document
  · have ending : Event.isEnd s home ⟨caller, .deleteDocument e.id, .ok a⟩ = true :=
      beq_iff_eq.mpr same
    exact h.ended ending rfl (Repository.onDocument_id _ d)
      (Repository.onShare_deleteDocument (h.document.trans same.symm))
  · have going : Event.isEnd s home ⟨caller, .deleteDocument e.id, .ok a⟩ = false :=
      beq_eq_false_iff_ne.mpr same
    have other : s.document ≠ e.id := fun h => same h.symm
    rw [Repository.onShare_deleteDocument_eq (h.document ▸ other),
      Repository.onDocument_deleteDocument_eq (h.on ▸ other)]
    exact h.passed going rfl rfl fun _ => ⟨rfl, rfl⟩

theorem deleteWorkspace (h : Standing s home events row d) (numbered : m.Numbered)
    (stored : d ∈ m.tables.documents) (v : Workspace) :
    Standing s home (events ++ [⟨caller, .deleteWorkspace v.id, .ok a⟩])
      ((Change.deleteWorkspace v time).onShare m.tables row)
      ((Change.deleteWorkspace v time).onDocument d) := by
  have on : row.document = d.id := h.document.trans h.on.symm
  have inside : row.isLive = true → d.workspace = home ∧ d.isLive = true := fun live =>
    h.inside (h.live.mp live)
  by_cases same : v.id = home
  · have ending : Event.isEnd s home ⟨caller, .deleteWorkspace v.id, .ok a⟩ = true :=
      beq_iff_eq.mpr same
    exact h.ended ending rfl (Repository.onDocument_id _ d)
      (Repository.onShare_deleteWorkspace stored on (same ▸ inside))
  · have going : Event.isEnd s home ⟨caller, .deleteWorkspace v.id, .ok a⟩ = false :=
      beq_eq_false_iff_ne.mpr same
    have elsewhere : d.workspace = home → d.workspace ≠ v.id := fun within there =>
      same (there.symm.trans within)
    rw [Repository.onShare_deleteWorkspace_eq numbered.documents stored on
      fun live => elsewhere (inside live).1]
    refine h.passed going rfl (Repository.onDocument_id _ d) fun lasting => ?_
    rw [Repository.onDocument_deleteWorkspace_eq (elsewhere (h.inside lasting).1)]
    exact ⟨rfl, rfl⟩

theorem setShare (h : Standing s home events row d) (numbered : m.Numbered)
    (stored : row ∈ m.tables.shares) (found : r ∈ m.tables.shares) (document : Int)
    (request : ShareUpdate) {now : Instant} :
    Standing s home (events ++ [⟨caller, .updateShare document r.id request, .ok a⟩])
      ((Change.setShare r ⟨request.permission, request.expiresAt⟩ now).onShare m.tables row) d := by
  by_cases same : r.id = s.id
  · have one := Repository.eq_of_key numbered.shares stored found (h.number.trans same.symm)
    rw [Repository.onShare_setShare one]
    exact h.set rfl (if_pos same)
  · have other : row.id ≠ r.id := fun number => same (number.symm.trans h.number)
    rw [Repository.onShare_setShare_eq other]
    exact h.passed rfl (if_neg same) rfl fun _ => ⟨rfl, rfl⟩

theorem deleteShare (h : Standing s home events row d) (numbered : m.Numbered)
    (stored : row ∈ m.tables.shares) (found : r ∈ m.tables.shares) (document : Int) :
    Standing s home (events ++ [⟨caller, .revokeShare document r.id, .ok a⟩])
      ((Change.deleteShare r time).onShare m.tables row) d := by
  by_cases same : r.id = s.id
  · have ending : Event.isEnd s home ⟨caller, .revokeShare document r.id, .ok a⟩ = true :=
      beq_iff_eq.mpr same
    have one := Repository.eq_of_key numbered.shares stored found (h.number.trans same.symm)
    exact h.ended ending rfl rfl (Repository.onShare_deleteShare one)
  · have going : Event.isEnd s home ⟨caller, .revokeShare document r.id, .ok a⟩ = false :=
      beq_eq_false_iff_ne.mpr same
    have other : row.id ≠ r.id := fun number => same (number.symm.trans h.number)
    rw [Repository.onShare_deleteShare_eq other]
    exact h.passed going rfl rfl fun _ => ⟨rfl, rfl⟩

end Standing

variable {c : Conditions} {w w' : World Memory} {caller : Caller} {op : Operation} {m : Memory}
  {s row : Share} {home : Int} {events : List Event} {d : Document}

theorem onlyAsks_silent (asks : op.onlyAsks = true) (result : Except Failure Answer) :
    Event.isEnd s home ⟨caller, op, result⟩ = false ∧
      Event.update? s ⟨caller, op, result⟩ = none := by
  cases op <;> first | exact ⟨rfl, rfl⟩ | cases asks

/-- What a change that an operation makes does to the row of a share is what the request says. -/
theorem Standing.step {moment : Instant → Prop} {change : Change} (h : Standing s home events row d)
    (numbered : m.Numbered) (stored : row ∈ m.tables.shares) (storedD : d ∈ m.tables.documents)
    (fits : change.Fits m) (warrant : Warrant moment caller m.tables op change) (a : Answer) :
    Standing s home (events ++ [⟨caller, op, .ok a⟩]) (change.onShare m.tables row)
      (change.onDocument d) := by
  cases warrant with
  | nothing asks =>
    obtain ⟨going, silent⟩ := onlyAsks_silent (s := s) asks (.ok a)
    exact h.passed going silent rfl fun _ => ⟨rfl, rfl⟩
  | addWorkspace => exact h.passed rfl rfl rfl fun _ => ⟨rfl, rfl⟩
  | setWorkspace => exact h.passed rfl rfl rfl fun _ => ⟨rfl, rfl⟩
  | addDocument => exact h.passed rfl rfl rfl fun _ => ⟨rfl, rfl⟩
  | addDocumentWithVersion => exact h.passed rfl rfl rfl fun _ => ⟨rfl, rfl⟩
  | addVersion => exact h.passed rfl rfl rfl fun _ => ⟨rfl, rfl⟩
  | addShare => exact h.passed rfl rfl rfl fun _ => ⟨rfl, rfl⟩
  | @setDocument request e ws changes now seen present =>
    simp only [Change.onShare, Change.onDocument]
    by_cases same : d.id = e.id
    · obtain rfl := Repository.eq_of_key numbered.documents storedD present.document same
      rw [if_pos (beq_self_eq_true _)]
      exact h.passed rfl rfl rfl fun _ => ⟨rfl, rfl⟩
    · rw [if_neg (by simpa using same)]
      exact h.passed rfl rfl rfl fun _ => ⟨rfl, rfl⟩
  | @deleteDocument e => exact h.deleteDocument e
  | @deleteWorkspace v => exact h.deleteWorkspace numbered storedD v
  | @setShare request r e => exact h.setShare numbered stored (List.mem_of_find?_eq_some fits) _ _
  | @deleteShare r e => exact h.deleteShare numbered stored (List.mem_of_find?_eq_some fits) _

def Stands (s : Share) (home : Int) (events : List Event) (m : Memory) : Prop :=
  ∃ row ∈ m.tables.shares, ∃ d ∈ m.tables.documents, Standing s home events row d

theorem Stands.serve (numbered : w.store.Numbered) (h : Stands s home events w.store)
    {result : Except Failure Answer} (ends : (serve caller op).Ends inMemory c w w' result) :
    Stands s home (events ++ [⟨caller, op, result⟩]) w'.store := by
  obtain ⟨row, stored, d, storedD, standing⟩ := h
  rcases serve_cases numbered ends with ⟨e, _, rfl, kept⟩ | ⟨a, m, change, rfl, effect⟩
  · obtain ⟨going, silent⟩ := failed_silent s home caller op e
    refine ⟨row, kept.tables ▸ stored, d, kept.tables ▸ storedD, ?_⟩
    exact standing.passed going silent rfl fun _ => ⟨rfl, rfl⟩
  · have warrant := effect.warrant
    rw [← effect.kept.tables] at stored storedD warrant
    rw [effect.result]
    refine ⟨_, Repository.onShare_mem stored, _, Repository.onDocument_mem storedD, ?_⟩
    exact standing.step (effect.kept.numbered numbered) stored storedD effect.fits warrant a

theorem Past.numbered {start : Memory} (numbered : start.Numbered) (past : Past start events m) :
    m.Numbered := by
  induction past with
  | here => exact numbered
  | served _ ends ih => exact ends_numbered ends ih
  | failing _ fail ih => exact ⟨ih.distinct, ih.inRange⟩

theorem Past.stands {start : Memory} (numbered : start.Numbered) (h : Stands s home [] start)
    (past : Past start events m) : Stands s home events m := by
  induction past with
  | here => exact h
  | served before ends ih => exact ih.serve (before.numbered numbered) ends
  | failing _ fail ih => exact ih

theorem ended_nil : ¬ Ended s home [] := by simp [Ended]

theorem shareDocument_stands (numbered : w.store.Numbered) {id : Int} {request : ShareRequest}
    (made : (shareDocument caller id request).Ends inMemory c w w' (.ok s)) :
    (s.document = id ∧ s.user = request.user ∧ s.permission = request.permission ∧
      s.expiresAt = request.expiresAt) ∧
    ∃ d ws, Present w'.store.tables d ws ∧ d.id = id ∧ Stands s ws.id [] w'.store := by
  obtain ⟨m, new, now, effect, rfl⟩ := shareDocument_made numbered made
  have same := effect.kept.tables
  have warrant := effect.warrant
  rw [← same] at warrant
  cases warrant with
  | @addShare _ d ws _ _ present own document user permission expiry =>
    rw [effect.result]
    refine ⟨⟨document, user, permission, expiry⟩, d, ws, ?_, rfl, ?_⟩
    · exact ⟨present.document, present.workspace, present.inside, present.documentLive,
        present.workspaceLive⟩
    · refine ⟨new.row m.nextId now, List.mem_append_right _ (List.mem_singleton_self _), d,
        present.document, ?_⟩
      exact ⟨rfl, rfl, rfl, rfl, rfl, rfl, iff_of_true rfl ended_nil, document.symm,
        fun _ => ⟨present.inside, present.documentLive⟩⟩

/-- From when a share is made, whatever is asked of the service by whomever: the share is in force
for a caller on its document exactly where no request has ended it, the expiry that was set last lies
ahead, and it is the caller's to use; it gives the permission that was set last. It opens nothing but
its document. -/
theorem share_lifetime (reached : Reachable w.store) {id : Int} {request : ShareRequest}
    (made : (serve caller (.shareDocument id request)).Ends inMemory c w w' (.ok (.share s)))
    (past : Past w'.store events m) :
    s.document = id ∧ s.user = request.user ∧ s.permission = request.permission ∧
      s.expiresAt = request.expiresAt ∧
    ∃ d ws, Present w'.store.tables d ws ∧ d.id = id ∧
    ∃ row, (∀ r, r ∈ m.tables.shares ∧ r.id = s.id ↔ r = row) ∧
      (∀ x now, applies row id x now = true ↔
        ¬ Ended s ws.id events ∧
        (∀ expiry, expiryAfter s events = some expiry → ¬ expiry ≤ now) ∧
        ((∃ user, s.user = some user ∧ x.user = some user) ∨
          (s.user = none ∧ x.token = some s.token))) ∧
      row.permission = permissionAfter s events ∧
      ∀ other x now, other ≠ id → applies row other x now = false := by
  have numbered' := ends_numbered made reached.numbered
  obtain ⟨_, made, shown⟩ := ends_as_ok made
  cases shown
  obtain ⟨⟨document, user, permission, expiry⟩, d, ws, present, number, stands⟩ :=
    shareDocument_stands reached.numbered made
  obtain ⟨row, stored, _, _, standing⟩ := past.stands numbered' stands
  have on : row.document = id := standing.document.trans document
  refine ⟨document, user, permission, expiry, d, ws, present, number, row, ?_, ?_,
    standing.permission, ?_⟩
  · intro r
    constructor
    · rintro ⟨hr, same⟩
      exact Repository.eq_of_key (past.numbered numbered').shares hr stored
        (same.trans standing.number.symm)
    · rintro rfl
      exact ⟨stored, standing.number⟩
  · intro x now
    rw [← standing.live, ← standing.expiry, ← standing.user, ← standing.token, applies_iff]
    constructor
    · rintro ⟨_, inForce⟩
      exact ⟨Option.isNone_iff_eq_none.mpr inForce.live, inForce.lasting, inForce.held⟩
    · rintro ⟨live, lasting, held⟩
      exact ⟨on, Option.isNone_iff_eq_none.mp live, lasting, held⟩
  · intro other x now elsewhere
    rw [← Bool.not_eq_true, applies_iff, on]
    exact fun h => elsewhere h.1.symm

def lent : World Memory := sample.after ⟨some 1, none⟩ (.shareDocument 2 ⟨some 2, .view, none⟩)

def sharedBy : Except Failure Answer → Option Share
  | .ok (.share s) => some s
  | _ => none

theorem sharedBy_some {result : Except Failure Answer} {s : Share} (h : sharedBy result = some s) :
    result = .ok (.share s) := by
  unfold sharedBy at h
  split at h <;> cases h
  rfl

/-- User 2 has the document of the sample until the share is revoked. -/
theorem lent_until_revoked :
    let revoking := (serve ⟨some 1, none⟩ (.revokeShare 2 5)).run inMemory steady lent
    ∃ s row row' : Share, (∀ r, r ∈ lent.store.tables.shares ∧ r.id = s.id ↔ r = row) ∧
      (∀ r, r ∈ revoking.1.store.tables.shares ∧ r.id = s.id ↔ r = row') ∧
      ∀ now, applies row 2 ⟨some 2, none⟩ now = true ∧ applies row' 2 ⟨some 2, none⟩ now = false := by
  intro revoking
  have lending := ends_run (s := inMemory) (c := steady)
    (serve ⟨some 1, none⟩ (.shareDocument 2 ⟨some 2, .view, none⟩)) sample
  have answered : ∃ s ∈ sharedBy ((serve ⟨some 1, none⟩ (.shareDocument 2 ⟨some 2, .view, none⟩)).run
      inMemory steady sample).2.1, s.id = 5 ∧ s.user = some 2 ∧ s.expiresAt = none := by
    decide +kernel
  have done : revoking.2.1.toOption.isSome = true := by decide +kernel
  have revoked := ends_run (s := inMemory) (c := steady)
    (serve ⟨some 1, none⟩ (.revokeShare 2 5)) lent
  obtain ⟨s, shared, number, user, expiry⟩ := answered
  rw [sharedBy_some shared] at lending
  obtain ⟨_, _, _, _, d, ws, _, _, row, only, applied, _⟩ :=
    share_lifetime sample_reachable lending .here
  obtain ⟨_, _, _, _, _, _, _, _, row', only', applied', _⟩ :=
    share_lifetime sample_reachable lending (.served .here revoked)
  refine ⟨s, row, row', only, only', fun now => ⟨?_, ?_⟩⟩
  · refine (applied _ now).mpr ⟨ended_nil, ?_, .inl ⟨2, user, rfl⟩⟩
    simp [expiryAfter, expiry]
  · rw [← Bool.not_eq_true, applied']
    rintro ⟨lasting, _⟩
    refine lasting ⟨_, List.mem_singleton_self _, ?_⟩
    change Event.isEnd s _ ⟨_, _, revoking.2.1⟩ = true
    cases result : revoking.2.1 with
    | error e => simp [result, Except.toOption] at done
    | ok a => simp [Event.isEnd, number]

end DiagramShare.Service
