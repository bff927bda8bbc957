import DiagramShare.Proofs.Filing
import DiagramShare.Proofs.Lifetime

/-! Attachments of different documents, and under different names, do not get in each other's way. What
is stored as an attachment is told by the requests for just this attachment that have succeeded; it
changes only for callers who may write the document, and is shown to callers who may read it. -/
namespace DiagramShare.Service

open DiagramShare.Access
open DiagramShare.Repository (Memory)
open DiagramShare.Storage (Backend Bytes)
open DiagramShare.Storage.Key (ofAsset segment)
open DiagramShare.Storage.Local (pathOf)
open DiagramShare.Time (Instant)

/-- The requests that lead from an empty store and an empty storage to a world, each under conditions
of its own. Between requests, the writing of versions may begin to fail or work again. -/
inductive Course (settings : Settings.Storage) (root : String) : List Event → World Memory → Prop where
  | opened : Course settings root [] (World.start .empty (Backend.opened settings root).1)
  | served {events : List Event} {w w' : World Memory} {c : Conditions} {caller : Caller}
      {op : Operation} {result : Except Failure Answer} (before : Course settings root events w)
      (ends : (serve caller op).Ends inMemory c w w' result) :
      Course settings root (events ++ [⟨caller, op, result⟩]) w'
  | failing {events : List Event} {w : World Memory} (before : Course settings root events w)
      (fail : Bool) :
      Course settings root events { w with store := { w.store with failVersions := fail } }

def Event.left? (document : Int) (name : String) (e : Event) : Option (Option Bytes) :=
  match e.op.files?, e.result with
  | some (d, n, value), .ok _ =>
    if d = document ∧ segment n = segment name then some value else none
  | _, _ => none

/-- The content of an attachment: that of the last upload, unless it has been deleted since. -/
def contentAfter (document : Int) (name : String) (events : List Event) : Option Bytes :=
  (events.filterMap (Event.left? document name)).getLast?.getD none

theorem contentAfter_snoc (document : Int) (name : String) (events : List Event) (e : Event) :
    contentAfter document name (events ++ [e]) =
      (e.left? document name).getD (contentAfter document name events) := by
  rw [contentAfter, List.filterMap_append, filterMap_singleton_toList, getLast_snoc_getD,
    contentAfter]

variable {settings : Settings.Storage} {root : String} {events : List Event}
  {w w' v : World Memory} {c : Conditions} {caller : Caller} {kind : Kind} {document : Int}
  {name : String} {op : Operation} {α : Type}

theorem Course.reachable (course : Course settings root events w) : Reachable w.store := by
  induction course with
  | opened => exact .empty
  | @served events w w' c caller op result _ ends ih =>
    rw [← ends.1]
    exact .served ih c caller op
  | failing _ fail ih => exact .failing ih fail

theorem left_of_spared (spared : op.files? = none) (result : Except Failure Answer) :
    Event.left? document name ⟨caller, op, result⟩ = none := by
  simp [Event.left?, spared]

theorem left_of_filed {d : Int} {n : String} {value : Option Bytes}
    (files : op.files? = some (d, n, value)) (result : Except Failure Answer) :
    Event.left? document name ⟨caller, op, result⟩ =
      if pathOf (ofAsset document name) = pathOf (ofAsset d n) then
        result.toOption.map fun _ => value
      else none := by
  simp only [Storage.Key.pathOf_ofAsset_inj]
  cases result <;> simp [Event.left?, files, Except.toOption, eq_comm]

theorem serve_stored (isLocal : w.backend.driver = .local) (shelved : w.backend.disk.Shelved)
    {result : Except Failure Answer} (ends : (serve caller op).Ends inMemory c w w' result) :
    w'.backend.disk.Shelved ∧ ∀ document name,
      w'.backend.disk.file? (pathOf (ofAsset document name)) =
        (Event.left? document name ⟨caller, op, result⟩).getD
          (w.backend.disk.file? (pathOf (ofAsset document name))) := by
  cases files : op.files? with
  | none =>
    rw [(serve_sparing caller files).backend ends]
    exact ⟨shelved, fun _ _ => by rw [left_of_spared files]; rfl⟩
  | some place =>
    obtain ⟨d, n, value⟩ := place
    obtain ⟨refiled, _⟩ := serve_refiled isLocal shelved files ends
    refine ⟨refiled.shelved, fun document name => ?_⟩
    rw [refiled.files, left_of_filed files]
    split <;> rfl

theorem Course.stored (isLocal : settings.driver = .local) (course : Course settings root events w) :
    w.backend.driver = .local ∧ w.backend.disk.Shelved ∧
      ∀ document name, w.backend.disk.file? (pathOf (ofAsset document name)) =
        contentAfter document name events := by
  induction course with
  | opened => exact ⟨isLocal, Storage.Disk.shelved_empty, fun _ _ => rfl⟩
  | failing _ _ ih => exact ih
  | served _ ends ih =>
    obtain ⟨driver, shelved, held⟩ := ih
    obtain ⟨after, changed⟩ := serve_stored driver shelved ends
    refine ⟨?_, after, fun document name => ?_⟩
    · rw [Backend.driver, (ends_backend ends).1]
      exact driver
    · rw [changed, contentAfter_snoc, held]

theorem allow_ok (numbered : w.store.Numbered)
    (ends : (allow caller document kind).Ends inMemory c w v (.ok ())) :
    ∃ now, Shown c w v now ∧ Allowed w.store.tables caller document kind now := by
  obtain ⟨u, ⟨d, ws⟩, found, rest⟩ := ends_bind_ok.mp ends
  obtain ⟨rfl, _⟩ := ends_done.mp rest
  obtain ⟨_, present, number, now, shown, entitled⟩ := documentFor_ok numbered found
  exact ⟨now, shown, d, ws, present, number, entitled⟩

theorem allow_passes (numbered : w.store.Numbered) (calm : c.Calm) {r : Except Failure Unit}
    (ends : (allow caller document kind).Ends inMemory c w v r)
    (allowed : Allowed w.store.tables caller document kind (c.clock (v.readings - 1))) :
    r = .ok () := by
  obtain ⟨u, _, found⟩ := documentFor_calm calm numbered caller document kind
  obtain ⟨d, ws, present, number, entitled⟩ := allowed
  have ruled : ∀ now, c.clock (v.readings - 1) = now →
      ruling w.store.tables caller document kind now = .ok (d, ws) := by
    rintro now rfl
    exact (ruling_ok_iff numbered).mpr ⟨present, number, entitled⟩
  rcases ends_bind.mp ends with ⟨e, refused, rfl⟩ | ⟨x, _, passed, rest⟩
  · obtain ⟨rfl, same⟩ := ends_unique found refused
    rw [ruled _ rfl] at same
    cases same
  · exact (ends_done.mp rest).2

/-- A request is answered with what there is to show or not at all, and it is answered where the caller
may read the document at the instant of the check. -/
def Shows (w : World Memory) (caller : Caller) (document : Int) (op : Operation)
    (shown : Option Answer) : Prop :=
  ∀ c w' r, (serve caller op).Ends inMemory c w w' r →
    (∀ a, r = .ok a → shown = some a) ∧
    (c.Calm → Allowed w.store.tables caller document .read (c.clock (w'.readings - 1)) →
      r.toOption = shown)

theorem shows_of_read {p : Program α} {wrap : α → Answer} {shown : Option Answer}
    (program : serve caller op = (allow caller document .read >>= fun _ => p).as wrap)
    (numbered : w.store.Numbered)
    (rest : ∀ c v, v.backend = w.backend → ∃ u r, u.readings = v.readings ∧
      p.Ends inMemory c v u r ∧ r.toOption.map wrap = shown) :
    Shows w caller document op shown := by
  intro c w' r ends
  rw [program] at ends
  obtain ⟨b, done, rfl⟩ := ends_as.mp ends
  rcases ends_bind.mp done with ⟨e, refused, rfl⟩ | ⟨v, _, admitted, later⟩
  · constructor
    · intro a same
      cases same
    · intro calm allowed
      cases allow_passes numbered calm refused allowed
  · obtain ⟨u, r, _, answered, rfl⟩ := rest c v ((allow_sparing _ _ _).backend admitted)
    obtain ⟨rfl, rfl⟩ := ends_unique answered later
    constructor
    · rintro a same
      cases r <;> cases same
      rfl
    · intros
      cases r <;> rfl

theorem openAsset_shows (isLocal : w.backend.driver = .local) (shelved : w.backend.disk.Shelved)
    (numbered : w.store.Numbered) (caller : Caller) (document : Int) (name : String) :
    Shows w caller document (.openAsset document name)
      ((w.backend.disk.file? (pathOf (ofAsset document name))).map fun content =>
        .content (.ok content)) := by
  apply shows_of_read rfl numbered
  intro c v same
  refine ⟨Duo.Agrees.filed v v.backend, _, rfl, ends_storing.mpr ⟨rfl, rfl⟩, ?_⟩
  have opens := @Backend.open_shelved w.backend document name isLocal shelved
  change (Except.mapError Failure.ofStorage (v.backend.open_ _)).toOption.map _ = _
  rw [same]
  cases opened : w.backend.open_ (ofAsset document name) with
  | ok r =>
    obtain ⟨content, there, rfl⟩ := opens.mp opened
    rw [there]
    rfl
  | error e =>
    cases there : w.backend.disk.file? (pathOf (ofAsset document name)) with
    | none => rfl
    | some content =>
      rw [opens.mpr ⟨content, there, rfl⟩] at opened
      cases opened

theorem assetUrl_shows (isLocal : w.backend.driver = .local) (shelved : w.backend.disk.Shelved)
    (numbered : w.store.Numbered) (caller : Caller) (document : Int) (name : String) :
    Shows w caller document (.assetUrl document name)
      ((w.backend.disk.file? (pathOf (ofAsset document name))).map fun content =>
        .asset (infoFor w.backend (ofAsset document name) content.length)) := by
  apply shows_of_read rfl numbered
  intro c v same
  have sizes := @Backend.size_shelved w.backend document name isLocal shelved
  rw [← same] at isLocal sizes ⊢
  cases there : v.backend.disk.file? (pathOf (ofAsset document name)) with
  | some content =>
    have accepted := (same ▸ shelved : v.backend.disk.Shelved).accepted there
    obtain ⟨u, _, readings, described⟩ := describe_ends (s := inMemory) (c := c) isLocal accepted
      (sizes.mpr ⟨content, there, rfl⟩)
    exact ⟨u, _, readings, described, rfl⟩
  | none =>
    cases size : v.backend.size (ofAsset document name) with
    | ok n =>
      obtain ⟨content, there', _⟩ := sizes.mp size
      rw [there] at there'
      cases there'
    | error e =>
      refine ⟨Duo.Agrees.filed v v.backend, .error (.ofStorage e), rfl, ?_, rfl⟩
      apply ends_bind.mpr
      exact .inl ⟨_, ends_storing.mpr ⟨rfl, by rw [Backend.answer, size]; rfl⟩, rfl⟩

/-- What a request changes of an attachment, it changes as a request for this attachment, by a caller
who may write the document. -/
def Guards (w : World Memory) (document : Int) (name : String) : Prop :=
  ∀ c caller op w' r, (serve caller op).Ends inMemory c w w' r →
    w'.backend.disk.file? (pathOf (ofAsset document name)) ≠
      w.backend.disk.file? (pathOf (ofAsset document name)) →
    (∃ n value, op.files? = some (document, n, value) ∧ segment n = segment name) ∧
      ∃ now, Shown c w w' now ∧ Allowed w.store.tables caller document .write now

/-- The attachments of a storage, after these requests. -/
structure Isolated (events : List Event) (w : World Memory) : Prop where
  stored : ∀ document name, w.backend.disk.file? (pathOf (ofAsset document name)) =
    contentAfter document name events
  guarded : ∀ document name, Guards w document name
  opened : ∀ caller document name, Shows w caller document (.openAsset document name)
    ((contentAfter document name events).map fun content => .content (.ok content))
  described : ∀ caller document name, Shows w caller document (.assetUrl document name)
    ((contentAfter document name events).map fun content =>
      .asset (infoFor w.backend (ofAsset document name) content.length))
  spared : ∀ c caller op w' r, (serve caller op).Ends inMemory c w w' r → op.files? = none →
    w'.backend = w.backend
  within : ∀ c caller op w' r, (serve caller op).Ends inMemory c w w' r →
    ∀ document name value, op.files? = some (document, name, value) →
      w.backend.disk.Within document w'.backend.disk
  running : ∀ document name number content, ∀ d ∈ (Storage.Local.uploadStates w.backend.root
    w.backend.disk (ofAsset document name) number content).1.states, w.backend.disk.Within document d

theorem Course.guards (isLocal : settings.driver = .local) (course : Course settings root events w)
    (document : Int) (name : String) : Guards w document name := by
  obtain ⟨driver, shelved, _⟩ := course.stored isLocal
  intro c caller op w' r ends changed
  cases files : op.files? with
  | none => exact absurd (by rw [(serve_sparing caller files).backend ends]) changed
  | some place =>
    obtain ⟨d, n, value⟩ := place
    obtain ⟨refiled, same | ⟨v, admitted, later⟩⟩ := serve_refiled driver shelved files ends
    · exact absurd (by rw [same]) changed
    · rw [refiled.files] at changed
      have here : pathOf (ofAsset document name) = pathOf (ofAsset d n) := by
        by_contra elsewhere
        exact changed (if_neg elsewhere)
      obtain ⟨rfl, same⟩ := Storage.Key.pathOf_ofAsset_inj.mp here
      obtain ⟨now, shown, allowed⟩ := allow_ok course.reachable.numbered admitted
      exact ⟨⟨n, value, rfl, same.symm⟩, now, shown.mono (Nat.le_refl _) later, allowed⟩

/-- After any requests, attachments are isolated. Their keys are apart wherever documents or sanitized
names are. -/
theorem attachments_isolated (isLocal : settings.driver = .local)
    (course : Course settings root events w) :
    Isolated events w ∧ ∀ document name document' name' key,
      Storage.Key.normalize (ofAsset document name) = .ok key →
      Storage.Key.normalize (ofAsset document' name') = .ok key →
      document = document' ∧ segment name = segment name' := by
  obtain ⟨driver, shelved, stored⟩ := course.stored isLocal
  have numbered := course.reachable.numbered
  constructor
  · constructor
    · exact stored
    · exact course.guards isLocal
    · intro caller document name
      rw [← stored]
      exact openAsset_shows driver shelved numbered caller document name
    · intro caller document name
      rw [← stored]
      exact assetUrl_shows driver shelved numbered caller document name
    · intro c caller op w' r ends other
      exact (serve_sparing caller other).backend ends
    · intro c caller op w' r ends document name value files
      exact (serve_refiled driver shelved files ends).1.within
    · intro document name number content d listed
      exact shelved.states_within listed
  · intro document name document' name' key
    exact Storage.Key.ofAsset_apart

theorem Course.after (course : Course settings root events w) (caller : Caller) (op : Operation) :
    Course settings root
      (events ++ [⟨caller, op, ((serve caller op).run inMemory steady w).2.1⟩])
      (w.after caller op) := course.served (ends_run _ _)

theorem sample_course : ∃ events, Course {} "root" events sample :=
  ⟨_, ((Course.opened.after ⟨some 1, none⟩ (.createWorkspace ⟨"Team", none, none⟩)).after
    ⟨some 1, none⟩ (.createDocument 1 ⟨"Flow", .mermaid, none, none, some "a-->b"⟩)).after
    ⟨some 1, none⟩ (.shareDocument 2 ⟨none, .edit, none⟩)⟩

def attaching : Operation := .uploadAsset 2 "../plan?.png" (.ofBytes [1, 2])

def desk : World Memory := sample.after ⟨some 1, none⟩ attaching

theorem desk_isolated : ∃ events, Course {} "root" events desk ∧
    contentAfter 2 "_plan*.png" events = some [1, 2] ∧ Isolated events desk := by
  obtain ⟨events, before⟩ := sample_course
  have course := before.after ⟨some 1, none⟩ attaching
  obtain ⟨isolated, _⟩ := attachments_isolated rfl course
  have left : Event.left? 2 "_plan*.png" ⟨⟨some 1, none⟩, attaching,
      ((serve ⟨some 1, none⟩ attaching).run inMemory steady sample).2.1⟩ = some (some [1, 2]) := by
    decide +kernel
  refine ⟨_, course, ?_, isolated⟩
  rw [contentAfter_snoc, left]
  rfl

end DiagramShare.Service
