import DiagramShare.Proofs.Duplicates

/-! Conflicts. The service looks for a row that would clash with a new one before it asks the store for
a change, and the store looks once more. Both find the same rows, so that the store refuses nothing
as a duplicate that the service has let pass, but for a token that happens to be drawn again. -/
namespace DiagramShare.Service

open DiagramShare.Access
open DiagramShare.Repository (Memory Tables)

variable {c : Conditions} {w w' : World Memory} {caller : Caller} {F : Clash → Prop}

/-- A request passes the checks of its caller and of its fields, and a live row has the name, the
slug or the user that it asks for. -/
inductive Clashing (c : Conditions) (w : World Memory) (caller : Caller) :
    Operation → Clash → Prop where
  | newWorkspace {request : WorkspaceRequest} {owner : Int} {name : String}
      {description : Option String} (own : caller.user = some owner)
      (named : requiredText "name" request.name maxNameLength = .ok name)
      (described : optionalText "description" request.description maxDescriptionLength =
        .ok description)
      (held : w.store.tables.NameHeld owner name none) :
      Clashing c w caller (.createWorkspace request) (.workspaceName name)
  | workspaceName {id : Int} {request : WorkspaceUpdate} {ws : Workspace} {name : String}
      {description : Option (Option String)} (stored : ws ∈ w.store.tables.workspaces)
      (number : ws.id = id) (live : ws.isLive = true) (own : caller.user = some ws.owner)
      (named : newName request.name = .ok (some name))
      (described : newDescription request.description = .ok description)
      (held : w.store.tables.NameHeld ws.owner name (some id)) :
      Clashing c w caller (.updateWorkspace id request) (.workspaceName name)
  | newDocument {id : Int} {request : DocumentRequest} {ws : Workspace} {title slug : String}
      (stored : ws ∈ w.store.tables.workspaces) (number : ws.id = id) (live : ws.isLive = true)
      (own : caller.user = some ws.owner)
      (titled : requiredText "title" request.title maxNameLength = .ok title)
      (slugged : slugFor request.slug title = .ok slug)
      (held : w.store.tables.SlugHeld id slug none) :
      Clashing c w caller (.createDocument id request) (.documentSlug slug)
  | documentSlug {id : Int} {request : DocumentUpdate} {d : Document} {ws : Workspace}
      {title : Option String} {slug : String} {v : World Memory}
      (admitted : (documentFor caller id
        (if request.isPublic.isSome then .manage else .write)).Ends inMemory c w v (.ok (d, ws)))
      (titled : newTitle request.title = .ok title)
      (slugged : newSlug request.slug = .ok (some slug))
      (held : w.store.tables.SlugHeld d.workspace slug (some id)) :
      Clashing c w caller (.updateDocument id request) (.documentSlug slug)
  | shareUser {id : Int} {request : ShareRequest} {d : Document} {ws : Workspace} {user : Int}
      {v : World Memory}
      (admitted : (documentFor caller id .manage).Ends inMemory c w v (.ok (d, ws)))
      (timely : futureExpiry request.expiresAt (c.clock v.readings) = .ok ())
      (named : request.user = some user) (positive : 0 < user) (other : user ≠ ws.owner)
      (held : w.store.tables.SlotHeld id user) :
      Clashing c w caller (.shareDocument id request) (.shareUser id user)

theorem createWorkspace_clashes (calm : c.Calm) (w : World Memory) (request : WorkspaceRequest) :
    (createWorkspace caller request).Clashes c w
      (Clashing c w caller (.createWorkspace request)) := by
  refine ((userOf_peaceful caller).clear calm w).then ?_ fun u owner user => ?_
  · rintro _ ⟨own, _⟩
    exact ⟨w, _, ends_userOf_ok.mpr ⟨rfl, own⟩⟩
  obtain ⟨rfl, own⟩ := ends_userOf_ok.mp user
  refine obey_goes calm ?_ fun name named => ?_
  · rintro _ ⟨_, named⟩
    exact ⟨_, named⟩
  refine obey_goes calm ?_ fun description described => ?_
  · rintro _ ⟨_, _, described⟩
    exact ⟨_, described⟩
  refine ensureUser_goes calm fun v rows => ?_
  refine query_goes (g := fun t => t.nameExists owner name none) calm rfl (fun _ => rfl) ?_
  refine (refuseIf_clashes.congr fun clash => ?_).before fun x _ passed => ?_
  · rw [rows, Tables.nameExists_iff]
    constructor
    · rintro ⟨held, rfl⟩
      exact .newWorkspace own named described held
    · rintro ⟨own', named', _, held⟩
      cases own.symm.trans own'
      cases named.symm.trans named'
      exact ⟨held, rfl⟩
  · obtain ⟨rfl, free⟩ := ends_refuseIf_ok.mp passed
    refine (query_clear calm fun now index => ?_).before fun y ws _ => note_clear calm ws y
    exact Memory.createWorkspace_duplicate free

theorem freeName_clashes (calm : c.Calm) (unique : w.store.Unique) {ws : Workspace}
    (stored : ws ∈ w.store.tables.workspaces) (live : ws.isLive = true) (name : Option String) :
    (freeName ws ws.id name).Clashes c w fun clash => ∃ n, name = some n ∧
      w.store.tables.NameHeld ws.owner n (some ws.id) ∧ clash = .workspaceName n := by
  cases name with
  | none => exact ((Program.Peaceful.done ()).clear calm w).congr fun clash => by simp
  | some n =>
    simp only [freeName]
    split
    · rename_i same
      have free := unique.own_name stored live
      refine ((Program.Peaceful.done ()).clear calm w).congr fun clash => ?_
      simp [← Tables.nameExists_iff, same, free]
    · refine query_goes (g := fun t => t.nameExists ws.owner n (some ws.id)) calm rfl
        (fun _ => rfl) (refuseIf_clashes.congr fun clash => ?_)
      simp [Tables.nameExists_iff]

theorem freeName_ok (unique : w.store.Unique) {ws : Workspace}
    (stored : ws ∈ w.store.tables.workspaces) (live : ws.isLive = true) {name : Option String}
    {u : Unit} (passed : (freeName ws ws.id name).Ends inMemory c w w' (.ok u)) :
    ∀ n, name = some n → w.store.tables.nameExists ws.owner n (some ws.id) = false := by
  rintro n rfl
  simp only [freeName] at passed
  split at passed
  · rename_i same
    exact same ▸ unique.own_name stored live
  · obtain ⟨v, taken, looked, free⟩ := ends_bind_ok.mp passed
    have asked := answers_read (f := fun t => .ok (t.nameExists ws.owner n (some ws.id)))
      (fun _ => rfl) (ends_query_ok.mp looked)
    exact (Except.ok.inj asked).trans (ends_refuseIf_ok.mp free).2

theorem workspaceFor_passed (calm : c.Calm) (numbered : w.store.Numbered) {ws : Workspace}
    (stored : ws ∈ w.store.tables.workspaces) (live : ws.isLive = true)
    (own : caller.user = some ws.owner) (kind : Kind) :
    ∃ v a, (workspaceFor caller ws.id kind).Ends inMemory c w v (.ok a) := by
  obtain ⟨v, done⟩ :=
    workspaceFor_owner calm (numbered.workspace_iff.mpr ⟨stored, rfl, live⟩) own kind
  exact ⟨v, ws, done⟩

theorem updateWorkspace_clashes (calm : c.Calm) (numbered : w.store.Numbered)
    (unique : w.store.Unique) (id : Int) (request : WorkspaceUpdate) :
    (updateWorkspace caller id request).Clashes c w
      (Clashing c w caller (.updateWorkspace id request)) := by
  refine ((workspaceFor_peaceful _ _ _).clear calm w).then ?_ fun v ws admitted => ?_
  · rintro _ (_ | ⟨stored, rfl, live, own⟩)
    exact workspaceFor_passed calm numbered stored live own .manage
  obtain ⟨same, found, own⟩ := workspaceFor_ok (by decide) admitted
  obtain ⟨stored, rfl, live⟩ := numbered.workspace_iff.mp found
  refine obey_goes calm ?_ fun name named => ?_
  · rintro _ (_ | ⟨_, _, _, _, named⟩)
    exact ⟨_, named⟩
  refine obey_goes calm ?_ fun description described => ?_
  · rintro _ (_ | ⟨_, _, _, _, _, described⟩)
    exact ⟨_, described⟩
  have stored' : ws ∈ v.store.tables.workspaces := same ▸ stored
  have unique' : v.store.Unique := same ▸ unique
  refine ((freeName_clashes calm unique' stored' live name).congr fun clash => ?_).before
    fun u _ passed => ?_
  · rw [same]
    constructor
    · rintro ⟨n, rfl, held, rfl⟩
      exact .workspaceName stored rfl live own named described held
    · rintro (_ | ⟨stored₂, number, _, _, named₂, _, held⟩)
      cases Repository.eq_of_key numbered.workspaces stored₂ stored number
      cases named.symm.trans named₂
      exact ⟨_, rfl, held, rfl⟩
  · have free := freeName_ok unique' stored' live passed
    have rows : u.store = v.store := (freeName_only _ _ _).same passed
    refine lookUp_clear calm fun now index => ?_
    exact Memory.updateWorkspace_duplicate (rows ▸ same ▸ found) (rows ▸ free)

theorem freeSlug_clashes (calm : c.Calm) (w : World Memory) (workspace : Int) (slug : String)
    (except : Option Int) : (freeSlug workspace slug except).Clashes c w fun clash =>
      w.store.tables.SlugHeld workspace slug except ∧ clash = .documentSlug slug := by
  refine query_goes (g := fun t => t.slugExists workspace slug except) calm rfl (fun _ => rfl)
    (refuseIf_clashes.congr fun clash => ?_)
  rw [Tables.slugExists_iff]

theorem freeSlug_ok {workspace : Int} {slug : String} {except : Option Int} {u : Unit}
    (passed : (freeSlug workspace slug except).Ends inMemory c w w' (.ok u)) :
    w.store.tables.slugExists workspace slug except = false := by
  obtain ⟨v, taken, looked, free⟩ := ends_bind_ok.mp passed
  have asked := answers_read (f := fun t => .ok (t.slugExists workspace slug except))
    (fun _ => rfl) (ends_query_ok.mp looked)
  exact (Except.ok.inj asked).trans (ends_refuseIf_ok.mp free).2

theorem createDocument_clashes (calm : c.Calm) (numbered : w.store.Numbered) (id : Int)
    (request : DocumentRequest) :
    (createDocument caller id request).Clashes c w
      (Clashing c w caller (.createDocument id request)) := by
  refine ((workspaceFor_peaceful _ _ _).clear calm w).then ?_ fun v ws admitted => ?_
  · rintro _ (_ | _ | ⟨stored, rfl, live, own⟩)
    exact workspaceFor_passed calm numbered stored live own .write
  obtain ⟨same, found, own⟩ := workspaceFor_ok (by decide) admitted
  obtain ⟨stored, rfl, live⟩ := numbered.workspace_iff.mp found
  refine obey_goes calm ?_ fun title titled => ?_
  · rintro _ (_ | _ | ⟨_, _, _, _, titled⟩)
    exact ⟨_, titled⟩
  refine obey_goes calm ?_ fun slug slugged => ?_
  · rintro _ (_ | _ | ⟨_, _, _, _, titled₂, slugged⟩)
    cases titled.symm.trans titled₂
    exact ⟨_, slugged⟩
  refine ((freeSlug_clashes calm v ws.id slug none).congr fun clash => ?_).before
    fun u _ passed => ?_
  · rw [same]
    constructor
    · rintro ⟨held, rfl⟩
      exact .newDocument stored rfl live own titled slugged held
    · rintro (_ | _ | ⟨_, _, _, _, titled₂, slugged₂, held⟩)
      cases titled.symm.trans titled₂
      cases slugged.symm.trans slugged₂
      exact ⟨held, rfl⟩
  · have free := freeSlug_ok passed
    have rows : u.store = v.store := (freeSlug_only _ _ _).same passed
    refine (query_clear calm fun now index => ?_).before fun x made _ => note_clear calm _ x
    exact Memory.createDocumentWithVersion_duplicate (rows ▸ free)

theorem freeNewSlug_clashes (calm : c.Calm) (unique : w.store.Unique) {d : Document}
    (stored : d ∈ w.store.tables.documents) (live : d.isLive = true) (slug : Option String) :
    (freeNewSlug d d.id slug).Clashes c w fun clash => ∃ s, slug = some s ∧
      w.store.tables.SlugHeld d.workspace s (some d.id) ∧ clash = .documentSlug s := by
  cases slug with
  | none => exact ((Program.Peaceful.done ()).clear calm w).congr fun clash => by simp
  | some s =>
    simp only [freeNewSlug]
    split
    · rename_i same
      have free := unique.own_slug stored live
      refine ((Program.Peaceful.done ()).clear calm w).congr fun clash => ?_
      simp [← Tables.slugExists_iff, same, free]
    · exact (freeSlug_clashes calm w _ _ _).congr fun clash => by simp

theorem freeNewSlug_ok (unique : w.store.Unique) {d : Document}
    (stored : d ∈ w.store.tables.documents) (live : d.isLive = true) {slug : Option String}
    {u : Unit} (passed : (freeNewSlug d d.id slug).Ends inMemory c w w' (.ok u)) :
    ∀ s, slug = some s → w.store.tables.slugExists d.workspace s (some d.id) = false := by
  rintro s rfl
  simp only [freeNewSlug] at passed
  split at passed
  · rename_i same
    exact same ▸ unique.own_slug stored live
  · exact freeSlug_ok passed

theorem updateDocument_clashes (calm : c.Calm) (numbered : w.store.Numbered)
    (unique : w.store.Unique) (id : Int) (request : DocumentUpdate) :
    (updateDocument caller id request).Clashes c w
      (Clashing c w caller (.updateDocument id request)) := by
  refine ((documentFor_peaceful _ _ _).clear calm w).then ?_ fun v ⟨d, ws⟩ admitted => ?_
  · rintro _ (_ | _ | _ | ⟨admitted⟩)
    exact ⟨_, _, admitted⟩
  obtain ⟨same, present, rfl, _⟩ := documentFor_ok numbered admitted
  refine obey_goes calm ?_ fun title titled => ?_
  · rintro _ (_ | _ | _ | ⟨_, titled⟩)
    exact ⟨_, titled⟩
  refine obey_goes calm ?_ fun slug slugged => ?_
  · rintro _ (_ | _ | _ | ⟨_, _, slugged⟩)
    exact ⟨_, slugged⟩
  have stored : d ∈ v.store.tables.documents := same ▸ present.document
  have unique' : v.store.Unique := same ▸ unique
  refine ((freeNewSlug_clashes calm unique' stored present.documentLive slug).congr
    fun clash => ?_).before fun u _ passed => ?_
  · rw [same]
    constructor
    · rintro ⟨s, rfl, held, rfl⟩
      exact .documentSlug admitted titled slugged held
    · rintro (_ | _ | _ | ⟨admitted₂, _, slugged₂, held⟩)
      obtain ⟨rfl, one⟩ := ends_unique admitted admitted₂
      cases one
      cases slugged.symm.trans slugged₂
      exact ⟨_, rfl, held, rfl⟩
  · have free := freeNewSlug_ok unique' stored present.documentLive passed
    have found : v.store.tables.document? d.id = some d := same ▸ present_found numbered present
    have rows : u.store = v.store := (freeNewSlug_only _ _ _).same passed
    refine lookUp_clear calm fun now index => ?_
    exact Memory.updateDocument_duplicate (rows ▸ found) (rows ▸ free)

theorem requireUser_clashes (calm : c.Calm) (w : World Memory) (d : Document) (ws : Workspace)
    (user : Option Int) : (requireUser d ws user).Clashes c w fun clash => ∃ u, user = some u ∧
      0 < u ∧ u ≠ ws.owner ∧ w.store.tables.SlotHeld d.id u ∧ clash = .shareUser d.id u := by
  cases user with
  | none => exact ((Program.Peaceful.done ()).clear calm w).congr fun clash => by simp
  | some u =>
    refine obey_goes calm ?_ fun _ positive => ?_
    · rintro _ ⟨_, same, positive, _⟩
      cases same
      exact ⟨u, if_pos positive⟩
    refine obey_goes calm ?_ fun _ other => ?_
    · rintro _ ⟨_, same, _, other, _⟩
      cases same
      exact ⟨(), if_neg other⟩
    refine ensureUser_goes calm fun v rows => ?_
    refine query_goes (g := fun t => t.shareForUser? d.id u) calm rfl (fun _ => rfl)
      (refuseIf_clashes.congr fun clash => ?_)
    have positive : 0 < u := by
      simp only [positiveId] at positive
      split at positive
      · assumption
      · cases positive
    have other : u ≠ ws.owner := by
      rintro same
      rw [if_pos same] at other
      cases other
    rw [rows, Tables.shareForUser_iff]
    simp [positive, other]

theorem requireUser_ok {d : Document} {ws : Workspace} {user : Option Int} {u : Unit}
    (passed : (requireUser d ws user).Ends inMemory c w w' (.ok u)) :
    ∀ i, user = some i → w'.store.tables.shareForUser? d.id i = none := by
  rintro i rfl
  obtain ⟨_, _, _, passed⟩ := ends_bind_ok.mp passed
  obtain ⟨_, _, _, passed⟩ := ends_bind_ok.mp passed
  obtain ⟨_, _, _, passed⟩ := ends_bind_ok.mp passed
  obtain ⟨v, held, looked, free⟩ := ends_bind_ok.mp passed
  obtain ⟨rfl, unheld⟩ := ends_refuseIf_ok.mp free
  have same : w'.store = _ := Program.Only.same (.query rfl) looked
  have asked := answers_read (f := fun t => .ok (t.shareForUser? d.id i))
    (fun _ => rfl) (ends_query_ok.mp looked)
  rw [same, Except.ok.inj asked]
  simpa using unheld

theorem allocate_clear (calm : c.Calm) {document : Int} {request : ShareRequest}
    (free : ∀ user, request.user = some user →
      w.store.tables.shareForUser? document user = none) (attempt left : Nat) :
    (allocate document request attempt left).Clear c w := by
  induction left generalizing w attempt with
  | zero =>
    refine Program.Peaceful.clear ?_ calm w
    exact .fail nofun
  | succ left ih =>
    have drawn : Program.freshToken.Clear c w := (Program.Peaceful.token .done).clear calm w
    refine drawn.goes (ends_freshToken.mpr ⟨rfl, rfl⟩) ?_
    set new : NewShare := ⟨document, request.user, c.token w.tokens, request.permission,
      request.expiresAt⟩
    set u : World Memory := { w with tokens := w.tokens + 1 }
    have refused : ∀ index, (u.ask inMemory c (.createShare new)).2.1 = .error (.duplicate index) →
        index = Repository.Index.shareToken.name := by
      rw [ask_answer calm]
      exact fun index => Memory.createShare_duplicate free
    refine clashes_ask refused ?_
    cases result : (u.ask inMemory c (.createShare new)).2.1 with
    | ok s => exact note_clear calm s _
    | error e =>
      have kept := ask_createShare_error result
      cases e with
      | duplicate index =>
        simp only [refused index result, if_true]
        refine ((Program.Peaceful.note _ _).clear calm _).goes (ends_note.mpr ⟨rfl, rfl⟩) (ih ?_ _)
        rw [kept]
        exact free
      | _ =>
        refine Program.Peaceful.clear ?_ calm _
        exact .fail nofun

theorem shareDocument_clashes (calm : c.Calm) (numbered : w.store.Numbered) (id : Int)
    (request : ShareRequest) :
    (shareDocument caller id request).Clashes c w
      (Clashing c w caller (.shareDocument id request)) := by
  refine ((documentFor_peaceful _ _ _).clear calm w).then ?_ fun v ⟨d, ws⟩ admitted => ?_
  · rintro _ (_ | _ | _ | _ | ⟨admitted⟩)
    exact ⟨_, _, admitted⟩
  obtain ⟨same, _, rfl, _⟩ := documentFor_ok numbered admitted
  refine (Program.Peaceful.clock.clear calm v).goes (ends_clock.mpr ⟨rfl, rfl⟩) ?_
  refine obey_goes calm ?_ fun _ timely => ?_
  · rintro _ (_ | _ | _ | _ | ⟨admitted₂, timely⟩)
    obtain ⟨rfl, _⟩ := ends_unique admitted admitted₂
    exact ⟨_, timely⟩
  refine ((requireUser_clashes calm _ d ws request.user).congr fun clash => ?_).before
    fun u _ passed => allocate_clear calm (requireUser_ok passed) _ _
  rw [same]
  constructor
  · rintro ⟨u, named, positive, other, held, rfl⟩
    exact .shareUser admitted timely named positive other held
  · rintro (_ | _ | _ | _ | ⟨admitted₂, _, named, positive, other, held⟩)
    obtain ⟨_, one⟩ := ends_unique admitted admitted₂
    cases one
    exact ⟨_, named, positive, other, held, rfl⟩

theorem as_clashes {p : Program α} (calm : c.Calm) (h : p.Clashes c w F) (wrap : α → Answer) :
    (p.as wrap).Clashes c w F :=
  h.before fun v _ _ => (Program.Peaceful.done _).clear calm v

theorem serve_clashes (calm : c.Calm) (orderly : w.store.Orderly) (caller : Caller)
    (op : Operation) : (serve caller op).Clashes c w (Clashing c w caller op) := by
  obtain ⟨numbered, _, unique, _⟩ := orderly
  cases names : op.names with
  | false =>
    refine ((serve_peaceful names caller).clear calm w).congr fun clash => ⟨False.elim, ?_⟩
    rintro (_ | _ | _ | _ | _) <;> cases names
  | true =>
    cases op with
    | createWorkspace request => exact as_clashes calm (createWorkspace_clashes calm w request) _
    | updateWorkspace id request =>
      exact as_clashes calm (updateWorkspace_clashes calm numbered unique id request) _
    | createDocument id request =>
      exact as_clashes calm (createDocument_clashes calm numbered id request) _
    | updateDocument id request =>
      exact as_clashes calm (updateDocument_clashes calm numbered unique id request) _
    | shareDocument id request =>
      exact as_clashes calm (shareDocument_clashes calm numbered id request) _
    | _ => cases names

theorem ends_orderly {α : Type} {p : Program α} {r : Except Failure α}
    (h : p.Ends inMemory c w w' r) (orderly : w.store.Orderly) : w'.store.Orderly := by
  refine ends_closed (R := fun w w' : World Memory => w.store.Orderly → w'.store.Orderly)
    (fun first rest h => rest (first h)) (fun call w h => ?_) (fun same _ h => same ▸ h) h orderly
  unfold World.ask
  split
  · exact h
  · exact (h.answer call _).1

theorem Reachable.orderly {m : Memory} (reached : Reachable m) : m.Orderly := by
  induction reached with
  | empty => exact Memory.orderly_empty
  | served _ c caller op ih => exact ends_orderly (ends_run _ _) ih
  | failing _ fail ih => exact ((Memory.Leads.here.failing fail).orderly ih).1

/-- The rows that an operation leaves. -/
def left (c : Conditions) (w : World Memory) (caller : Caller) (op : Operation) : Tables :=
  ((serve caller op).run inMemory c w).1.store.tables

theorem effect_of_reply (numbered : w.store.Numbered) {op : Operation} {a : Answer}
    (answered : reply c w caller op = .ok a) :
    ∃ m change, Effect c caller op w ((serve caller op).run inMemory c w).1 m change :=
  serve_effect numbered ⟨rfl, answered⟩

theorem deleteWorkspace_frees (orderly : w.store.Orderly) {id : Int} {a : Answer}
    (answered : reply c w caller (.deleteWorkspace id) = .ok a) :
    ∃ ws ∈ w.store.tables.workspaces, ws.id = id ∧ ws.isLive = true ∧
      ¬ (left c w caller (.deleteWorkspace id)).NameHeld ws.owner ws.name none := by
  obtain ⟨m, change, kept, fits, warrant, result⟩ := effect_of_reply orderly.numbered answered
  cases warrant with
  | nothing asks => cases asks
  | @deleteWorkspace ws time own =>
    have found : w.store.tables.workspace? ws.id = some ws := kept.tables ▸ fits
    obtain ⟨stored, _, live⟩ := orderly.numbered.workspace_iff.mp found
    refine ⟨ws, stored, rfl, live, ?_⟩
    rw [left, result]
    exact Repository.Change.deleteWorkspace_frees (orderly.unique.kept kept) fits

theorem deleteDocument_frees (orderly : w.store.Orderly) {id : Int} {a : Answer}
    (answered : reply c w caller (.deleteDocument id) = .ok a) :
    ∃ d ∈ w.store.tables.documents, d.id = id ∧ d.isLive = true ∧
      ¬ (left c w caller (.deleteDocument id)).SlugHeld d.workspace d.slug none := by
  obtain ⟨m, change, kept, fits, warrant, result⟩ := effect_of_reply orderly.numbered answered
  cases warrant with
  | nothing asks => cases asks
  | @deleteDocument d ws time seen present shown entitled =>
    refine ⟨d, present.document, rfl, present.documentLive, ?_⟩
    rw [left, result]
    exact Repository.Change.deleteDocument_frees (orderly.unique.kept kept) fits

theorem revokeShare_frees (orderly : w.store.Orderly) {document share : Int} {a : Answer}
    (answered : reply c w caller (.revokeShare document share) = .ok a) :
    ∃ s ∈ w.store.tables.shares, s.id = share ∧ s.document = document ∧ s.isLive = true ∧
      ∀ user, s.user = some user →
        ¬ (left c w caller (.revokeShare document share)).SlotHeld document user := by
  obtain ⟨m, change, kept, fits, warrant, result⟩ := effect_of_reply orderly.numbered answered
  cases warrant with
  | nothing asks => cases asks
  | @deleteShare s d ws time present own on =>
    have found : w.store.tables.share? s.id = some s := kept.tables ▸ fits
    have bound : m.Bound := ⟨kept.tables ▸ orderly.bound.users, kept.tables ▸ orderly.bound.tokens⟩
    refine ⟨s, List.mem_of_find?_eq_some found, rfl, on, Repository.also_of_find found, ?_⟩
    intro user named
    rw [left, result, ← on]
    exact Repository.Change.deleteShare_frees bound fits named

/-- In every state that requests lead to, the service and the store agree on what clashes. No
operation has a change refused as a duplicate, but for a token, and those that name, place or bind
a row end with a conflict exactly where another live row is in the way. A deletion frees what its
row had, and no row is in the way of its own name or slug. -/
theorem Reachable.checks_agree (reached : Reachable w.store) (calm : c.Calm) (caller : Caller) :
    let t := w.store.tables
    let reply := reply c w caller
    let left := left c w caller
    (∀ op index, .duplicate index ∈ (serve caller op).failures inMemory c w →
      index = Repository.Index.shareToken.name) ∧
    (∀ op clash, reply op = .error (.conflict clash) ↔ Clashing c w caller op clash) ∧
    (∀ id a, reply (.deleteWorkspace id) = .ok a → ∃ ws ∈ t.workspaces, ws.id = id ∧
      ws.isLive = true ∧ ¬ (left (.deleteWorkspace id)).NameHeld ws.owner ws.name none) ∧
    (∀ id a, reply (.deleteDocument id) = .ok a → ∃ d ∈ t.documents, d.id = id ∧
      d.isLive = true ∧ ¬ (left (.deleteDocument id)).SlugHeld d.workspace d.slug none) ∧
    (∀ document share a, reply (.revokeShare document share) = .ok a →
      ∃ s ∈ t.shares, s.id = share ∧ s.document = document ∧ s.isLive = true ∧
        ∀ user, s.user = some user → ¬ (left (.revokeShare document share)).SlotHeld document user) ∧
    (∀ ws ∈ t.workspaces, ws.isLive = true → ∀ request, newName request.name = .ok (some ws.name) →
      ∀ clash, reply (.updateWorkspace ws.id request) ≠ .error (.conflict clash)) ∧
    ∀ d ∈ t.documents, d.isLive = true → ∀ request, newSlug request.slug = .ok (some d.slug) →
      ∀ clash, reply (.updateDocument d.id request) ≠ .error (.conflict clash) := by
  intro t reply left
  have orderly := reached.orderly
  have clashes := fun op => serve_clashes calm orderly caller op
  refine ⟨fun op => (clashes op).duplicates, fun op => (clashes op).conflicts,
    fun id a => deleteWorkspace_frees orderly, fun id a => deleteDocument_frees orderly,
    fun document share a => revokeShare_frees orderly, ?_, ?_⟩
  · intro ws stored live request named clash refused
    rcases ((clashes _).conflicts clash).mp refused with
      _ | ⟨stored₂, number, _, _, named₂, _, held⟩
    cases Repository.eq_of_key orderly.numbered.workspaces stored₂ stored number
    cases named.symm.trans named₂
    rw [← Tables.nameExists_iff, orderly.unique.own_name stored live] at held
    cases held
  · intro d stored live request slugged clash refused
    rcases ((clashes _).conflicts clash).mp refused with
      _ | _ | _ | ⟨admitted, _, slugged₂, held⟩
    obtain ⟨_, present, number, _⟩ := documentFor_ok orderly.numbered admitted
    cases Repository.eq_of_key orderly.numbered.documents present.document stored number
    cases slugged.symm.trans slugged₂
    rw [← Tables.slugExists_iff, orderly.unique.own_slug stored live] at held
    cases held

/-- The name of the sample's workspace is not given again, with blanks around it or without. -/
theorem sample_conflicts :
    Reachable sample.store ∧ steady.Calm ∧
    reply steady sample ⟨some 1, none⟩ (.createWorkspace ⟨" Team ", none, none⟩) =
      .error (.conflict (.workspaceName "Team")) := by
  have calm : steady.Calm := fun _ => rfl
  obtain ⟨_, conflicts, _⟩ := sample_reachable.checks_agree calm ⟨some 1, none⟩
  have held : sample.store.tables.NameHeld 1 "Team" none :=
    Tables.nameExists_iff.mp (by decide +kernel)
  exact ⟨sample_reachable, calm,
    (conflicts _ _).mpr (.newWorkspace rfl (by decide +kernel) rfl held)⟩

end DiagramShare.Service
