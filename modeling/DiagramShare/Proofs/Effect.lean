import DiagramShare.Proofs.Atomicity

/-! What an operation that succeeds has done. It has made one change to the store, and before that it
has found all that its caller needs for this change. -/
namespace DiagramShare.Service

open DiagramShare.Access
open DiagramShare.Repository (Memory Tables Call Change)
open DiagramShare.Time (Instant)

/-- What an operation has found in a store before it makes a change. A document may be written by
others than its owner, as it was seen at a moment of the operation. -/
inductive Warrant (moment : Instant → Prop) (caller : Caller) (t : Tables) :
    Operation → Change → Prop where
  | nothing {op : Operation} (asks : op.onlyAsks = true) : Warrant moment caller t op .nothing
  | addWorkspace {request : WorkspaceRequest} {new : NewWorkspace} {now : Instant}
      (own : caller.user = some new.owner)
      (name : requiredText "name" request.name maxNameLength = .ok new.name)
      (description : optionalText "description" request.description maxDescriptionLength =
        .ok new.description)
      (isPublic : new.isPublic = request.isPublic.getD false) :
      Warrant moment caller t (.createWorkspace request) (.addWorkspace new now)
  | setWorkspace {request : WorkspaceUpdate} {w : Workspace} {changes : WorkspaceChanges}
      {now : Instant} (own : caller.user = some w.owner)
      (name : newName request.name = .ok changes.name)
      (description : newDescription request.description = .ok changes.description)
      (isPublic : changes.isPublic = request.isPublic) :
      Warrant moment caller t (.updateWorkspace w.id request) (.setWorkspace w changes now)
  | deleteWorkspace {w : Workspace} {time : Instant} (own : caller.user = some w.owner) :
      Warrant moment caller t (.deleteWorkspace w.id) (.deleteWorkspace w time)
  | addDocument {request : DocumentRequest} {w : Workspace} {new : NewDocument} {now : Instant}
      (stored : w ∈ t.workspaces) (live : w.isLive = true)
      (own : caller.user = some w.owner) (inside : new.workspace = w.id)
      (title : requiredText "title" request.title maxNameLength = .ok new.title)
      (slug : slugFor request.slug new.title = .ok new.slug) (empty : request.content = none) :
      Warrant moment caller t (.createDocument w.id request) (.addDocument new now)
  | addDocumentWithVersion {request : DocumentRequest} {w : Workspace} {new : NewDocument}
      {first : FirstVersion} {now : Instant}
      (stored : w ∈ t.workspaces) (live : w.isLive = true)
      (own : caller.user = some w.owner) (inside : new.workspace = w.id)
      (title : requiredText "title" request.title maxNameLength = .ok new.title)
      (slug : slugFor request.slug new.title = .ok new.slug)
      (content : request.content = some first.content) (author : first.author = caller.user) :
      Warrant moment caller t (.createDocument w.id request)
        (.addDocumentWithVersion new first now)
  | setDocument {request : DocumentUpdate} {d : Document} {ws : Workspace}
      {changes : DocumentChanges} {now seen : Instant} (present : Present t d ws)
      (shown : moment seen)
      (entitled : Entitled t.shares caller
        (if request.isPublic.isSome then .manage else .write) seen d ws)
      (title : newTitle request.title = .ok changes.title)
      (slug : newSlug request.slug = .ok changes.slug)
      (isPublic : changes.isPublic = request.isPublic) :
      Warrant moment caller t (.updateDocument d.id request) (.setDocument d changes now)
  | deleteDocument {d : Document} {ws : Workspace} {time seen : Instant}
      (present : Present t d ws) (shown : moment seen)
      (entitled : Entitled t.shares caller .write seen d ws) :
      Warrant moment caller t (.deleteDocument d.id) (.deleteDocument d time)
  | addVersion {request : VersionRequest} {d : Document} {ws : Workspace} {new : NewVersion}
      {now seen : Instant} (present : Present t d ws) (shown : moment seen)
      (entitled : Entitled t.shares caller .write seen d ws)
      (document : new.document = d.id) (content : new.content = request.content)
      (author : new.author = caller.user)
      (note : optionalText "change_description" request.note maxNoteLength = .ok new.note) :
      Warrant moment caller t (.createVersion d.id request) (.addVersion new now)
  | addShare {request : ShareRequest} {d : Document} {ws : Workspace} {new : NewShare}
      {now : Instant} (present : Present t d ws) (own : caller.user = some ws.owner)
      (document : new.document = d.id) (user : new.user = request.user)
      (permission : new.permission = request.permission)
      (expiry : new.expiresAt = request.expiresAt) :
      Warrant moment caller t (.shareDocument d.id request) (.addShare new now)
  | setShare {request : ShareUpdate} {s : Share} {d : Document} {ws : Workspace} {now : Instant}
      (present : Present t d ws) (own : caller.user = some ws.owner)
      (document : s.document = d.id) :
      Warrant moment caller t (.updateShare d.id s.id request)
        (.setShare s ⟨request.permission, request.expiresAt⟩ now)
  | deleteShare {s : Share} {d : Document} {ws : Workspace} {time : Instant}
      (present : Present t d ws) (own : caller.user = some ws.owner)
      (document : s.document = d.id) :
      Warrant moment caller t (.revokeShare d.id s.id) (.deleteShare s time)

/-- An operation has led from one world to another by a change to the store. The change is made once
the caller may have become known. -/
structure Effect (c : Conditions) (caller : Caller) (op : Operation) (w w' : World Memory)
    (m : Memory) (change : Change) : Prop where
  kept : w.store.Kept 0 m
  fits : change.Fits m
  warrant : Warrant (Shown c w w') caller w.store.tables op change
  result : w'.store = change.on m

variable {c : Conditions} {w w' : World Memory} {caller : Caller} {id : Int}

theorem entitled_manage {shares : List Share} {now : Instant} {d : Document} {ws : Workspace}
    (entitled : Entitled shares caller .manage now d ws) : caller.user = some ws.owner := by
  rcases entitled with own | ⟨reading, _⟩ | ⟨s, _, _, _, enough⟩
  · exact own
  · cases reading
  · exact enough.elim

theorem documentFor_manage {d : Document} {ws : Workspace} (numbered : w.store.Numbered)
    (h : (documentFor caller id .manage).Ends inMemory c w w' (.ok (d, ws))) :
    w'.store = w.store ∧ Present w.store.tables d ws ∧ d.id = id ∧
      caller.user = some ws.owner := by
  obtain ⟨same, present, number, _, _, entitled⟩ := documentFor_ok numbered h
  exact ⟨same, present, number, entitled_manage entitled⟩

theorem ends_userOf_ok {user : Int} : (userOf caller).Ends inMemory c w w' (.ok user) ↔
    w' = w ∧ caller.user = some user := by
  unfold userOf
  cases caller.user <;> simp [eq_comm]

theorem query_done {call : Call β} {b : β}
    (h : (Program.query call).Ends inMemory c w w' (.ok b)) :
    Memory.answer (c.clock w.readings) call w.store = (w'.store, .ok b) :=
  (answers_ok (ends_query_ok.mp h)).1

theorem lookUp_done {what : String} {call : Call β} {b : β}
    (h : (Program.lookUp what call).Ends inMemory c w w' (.ok b)) :
    Memory.answer (c.clock w.readings) call w.store = (w'.store, .ok b) :=
  (answers_ok (ends_lookUp_ok.mp h)).1

theorem not_done {x : Memory × Except Repository.Failure β} {m m' : Memory}
    {e : Repository.Failure} {b : β} (failed : x = (m, .error e)) (done : x = (m', .ok b)) :
    False := by
  rw [failed] at done
  cases done

theorem of_done {x : Memory × Except Repository.Failure β} {m m' : Memory} {b : β} {P : Prop}
    (done : x = (m', .ok b)) (cases : (∃ e, x = (m, .error e)) ∨ P) : P := by
  rcases cases with ⟨e, he⟩ | p
  · exact (not_done he done).elim
  · exact p

theorem done_eq {x : Memory × Except Repository.Failure β} {m m' : Memory} {a b : β}
    (ok : x = (m, .ok a)) (done : x = (m', .ok b)) : m' = m := by
  rw [ok] at done
  cases done
  rfl

theorem done_answer {x : Memory × Except Repository.Failure β} {m m' : Memory} {a b : β}
    (ok : x = (m, .ok a)) (done : x = (m', .ok b)) : b = a := by
  rw [ok] at done
  cases done
  rfl

theorem createWorkspace_effect {request : WorkspaceRequest} {ws : Workspace}
    (h : (createWorkspace caller request).Ends inMemory c w w' (.ok ws)) :
    ∃ m change, Effect c caller (.createWorkspace request) w w' m change := by
  obtain ⟨_, owner, user, h⟩ := ends_bind_ok.mp h
  obtain ⟨_, name, named, h⟩ := ends_bind_ok.mp h
  obtain ⟨_, description, described, h⟩ := ends_bind_ok.mp h
  obtain ⟨v, _, known, h⟩ := ends_bind_ok.mp h
  obtain ⟨_, taken, looked, h⟩ := ends_bind_ok.mp h
  obtain ⟨_, _, free, h⟩ := ends_bind_ok.mp h
  obtain ⟨_, row, stored, h⟩ := ends_bind_ok.mp h
  simp only [ends_bind_ok, ends_note, ends_pure] at h
  -- Worlds are identified only once the run is apart; earlier, facts on its start would come back.
  obtain ⟨_, _, ⟨rfl, _⟩, rfl, _⟩ := h
  obtain ⟨rfl, own⟩ := ends_userOf_ok.mp user
  obtain ⟨rfl, hname⟩ := ends_obey_ok.mp named
  obtain ⟨rfl, hdescription⟩ := ends_obey_ok.mp described
  obtain ⟨rfl, _⟩ := ends_refuseIf_ok.mp free
  have kept : Memory.Kept 0 _ v.store := Program.Only.kept (.query rfl) known
  have same : _ = v.store := Program.Only.same (.query rfl) looked
  obtain ⟨fits, hok⟩ := of_done (query_done stored) (Memory.createWorkspace_cases _ _ _)
  refine ⟨_, _, same ▸ kept, fits, ?_, done_eq hok (query_done stored)⟩
  exact .addWorkspace own hname hdescription rfl

theorem updateWorkspace_effect {request : WorkspaceUpdate} {ws : Workspace}
    (h : (updateWorkspace caller id request).Ends inMemory c w w' (.ok ws)) :
    ∃ m change, Effect c caller (.updateWorkspace id request) w w' m change := by
  obtain ⟨v, row, admitted, h⟩ := ends_bind_ok.mp h
  obtain ⟨_, name, named, h⟩ := ends_bind_ok.mp h
  obtain ⟨_, description, described, h⟩ := ends_bind_ok.mp h
  obtain ⟨u, _, free, stored⟩ := ends_bind_ok.mp h
  obtain ⟨rfl, hname⟩ := ends_obey_ok.mp named
  obtain ⟨rfl, hdescription⟩ := ends_obey_ok.mp described
  obtain ⟨same, found, own⟩ := workspaceFor_ok (by decide) admitted
  have same' : u.store = w.store := ((freeName_only _ _ _).same free).trans same
  obtain ⟨x, rfl, fits, hok⟩ :=
    of_done (lookUp_done stored) (Memory.updateWorkspace_cases _ _ _ _)
  obtain rfl : row = x := Option.some.inj (found.symm.trans (same' ▸ fits.1))
  refine ⟨_, _, same' ▸ .refl _, fits, ?_, done_eq hok (lookUp_done stored)⟩
  exact .setWorkspace own hname hdescription rfl

theorem deleteWorkspace_effect {summary : CascadeSummary}
    (h : (deleteWorkspace caller id).Ends inMemory c w w' (.ok summary)) :
    ∃ m change, Effect c caller (.deleteWorkspace id) w w' m change := by
  obtain ⟨v, row, admitted, h⟩ := ends_bind_ok.mp h
  obtain ⟨u, now, read, h⟩ := ends_bind_ok.mp h
  obtain ⟨_, _, stored, h⟩ := ends_bind_ok.mp h
  simp only [ends_bind_ok, ends_note, ends_pure] at h
  obtain ⟨_, _, ⟨rfl, _⟩, rfl, _⟩ := h
  obtain ⟨same, found, own⟩ := workspaceFor_ok (by decide) admitted
  have same' : u.store = w.store := by
    rw [← same, (ends_clock.mp read).1]
  obtain ⟨x, _, rfl, fits, hok⟩ :=
    of_done (lookUp_done stored) (Memory.deleteWorkspace_cases _ _ _)
  obtain rfl : row = x := Option.some.inj (found.symm.trans (same' ▸ fits))
  exact ⟨_, _, same' ▸ .refl _, fits, .deleteWorkspace own, done_eq hok (lookUp_done stored)⟩

theorem createDocument_made (numbered : w.store.Numbered) {request : DocumentRequest}
    {detail : DocumentDetail}
    (h : (createDocument caller id request).Ends inMemory c w w' (.ok detail)) :
    ∃ m new now,
      (Effect c caller (.createDocument id request) w w' m (.addDocument new now) ∧
        request.content = none ∧ detail = ⟨new.row m.nextId now, none⟩) ∨
      ∃ first,
        Effect c caller (.createDocument id request) w w' m
          (.addDocumentWithVersion new first now) ∧
        request.content = some first.content ∧ first.author = caller.user ∧
        detail = ⟨new.row m.nextId now, some (m.firstVersion (new.row m.nextId now) first now)⟩ := by
  obtain ⟨v, row, admitted, h⟩ := ends_bind_ok.mp h
  obtain ⟨_, title, titled, h⟩ := ends_bind_ok.mp h
  obtain ⟨_, slug, slugged, h⟩ := ends_bind_ok.mp h
  obtain ⟨u, _, free, h⟩ := ends_bind_ok.mp h
  obtain ⟨_, ⟨document, version⟩, stored, h⟩ := ends_bind_ok.mp h
  simp only [ends_bind_ok, ends_note, ends_pure] at h
  obtain ⟨_, _, ⟨rfl, _⟩, rfl, shown⟩ := h
  cases shown
  obtain ⟨rfl, htitle⟩ := ends_obey_ok.mp titled
  obtain ⟨rfl, hslug⟩ := ends_obey_ok.mp slugged
  obtain ⟨same, found, own⟩ := workspaceFor_ok (by decide) admitted
  have same' : u.store = w.store := ((freeSlug_only _ _ _).same free).trans same
  obtain ⟨there, rfl, live⟩ := numbered.workspace_iff.mp found
  have numbered' : u.store.Numbered := same' ▸ numbered
  have done := query_done stored
  rcases Memory.createDocumentWithVersion_cases numbered' _ _ _ with
    ⟨_, e, _, he⟩ | ⟨empty, fits, hok⟩ | ⟨first, given, fits, hok⟩
  · exact (not_done he done).elim
  · have empty := Option.map_eq_none_iff.mp empty
    cases done_answer hok done
    refine ⟨_, _, _, .inl ⟨⟨same' ▸ .refl _, fits, ?_, done_eq hok done⟩, empty, rfl⟩⟩
    exact .addDocument there live own rfl htitle hslug empty
  · obtain ⟨content, hcontent, rfl⟩ := Option.map_eq_some_iff.mp given
    cases done_answer hok done
    refine ⟨_, _, _, .inr ⟨_, ⟨same' ▸ .refl _, fits, ?_, done_eq hok done⟩, hcontent, rfl, rfl⟩⟩
    exact .addDocumentWithVersion there live own rfl htitle hslug hcontent rfl

theorem createDocument_effect (numbered : w.store.Numbered) {request : DocumentRequest}
    {detail : DocumentDetail}
    (h : (createDocument caller id request).Ends inMemory c w w' (.ok detail)) :
    ∃ m change, Effect c caller (.createDocument id request) w w' m change := by
  obtain ⟨m, new, now, ⟨effect, _⟩ | ⟨first, effect, _⟩⟩ := createDocument_made numbered h
  · exact ⟨_, _, effect⟩
  · exact ⟨_, _, effect⟩

theorem present_found {m : Memory} {d : Document} {ws : Workspace} (numbered : m.Numbered)
    (present : Present m.tables d ws) : m.tables.document? d.id = some d :=
  numbered.document_iff.mpr ⟨present.document, rfl, present.documentLive⟩

theorem updateDocument_effect (numbered : w.store.Numbered) {request : DocumentUpdate}
    {row : Document} (h : (updateDocument caller id request).Ends inMemory c w w' (.ok row)) :
    ∃ m change, Effect c caller (.updateDocument id request) w w' m change := by
  obtain ⟨v, ⟨d, ws⟩, admitted, h⟩ := ends_bind_ok.mp h
  have later := readings_le h
  obtain ⟨_, title, titled, h⟩ := ends_bind_ok.mp h
  obtain ⟨_, slug, slugged, h⟩ := ends_bind_ok.mp h
  obtain ⟨u, _, free, stored⟩ := ends_bind_ok.mp h
  obtain ⟨rfl, htitle⟩ := ends_obey_ok.mp titled
  obtain ⟨rfl, hslug⟩ := ends_obey_ok.mp slugged
  obtain ⟨same, present, rfl, seen, shown, entitled⟩ := documentFor_ok numbered admitted
  have same' : u.store = w.store := ((freeNewSlug_only _ _ _).same free).trans same
  obtain ⟨x, number, fits, hok⟩ :=
    of_done (lookUp_done stored) (Memory.updateDocument_cases _ _ _ _)
  have found := present_found numbered present
  obtain rfl : d = x := Option.some.inj (found.symm.trans (number ▸ same' ▸ fits.1))
  refine ⟨_, _, same' ▸ .refl _, fits, ?_, done_eq hok (lookUp_done stored)⟩
  exact .setDocument present (shown.mono (Nat.le_refl _) later) entitled htitle hslug rfl

theorem deleteDocument_effect (numbered : w.store.Numbered) {summary : CascadeSummary}
    (h : (deleteDocument caller id).Ends inMemory c w w' (.ok summary)) :
    ∃ m change, Effect c caller (.deleteDocument id) w w' m change := by
  obtain ⟨v, ⟨d, ws⟩, admitted, h⟩ := ends_bind_ok.mp h
  have later := readings_le h
  obtain ⟨u, now, read, h⟩ := ends_bind_ok.mp h
  obtain ⟨_, _, stored, h⟩ := ends_bind_ok.mp h
  simp only [ends_bind_ok, ends_note, ends_pure] at h
  obtain ⟨_, _, ⟨rfl, _⟩, rfl, _⟩ := h
  obtain ⟨same, present, rfl, seen, shown, entitled⟩ := documentFor_ok numbered admitted
  have same' : u.store = w.store := by
    rw [← same, (ends_clock.mp read).1]
  obtain ⟨x, _, number, fits, hok⟩ :=
    of_done (lookUp_done stored) (Memory.deleteDocument_cases _ _ _)
  have found := present_found numbered present
  obtain rfl : d = x := Option.some.inj (found.symm.trans (number ▸ same' ▸ fits))
  refine ⟨_, _, same' ▸ .refl _, fits, ?_, done_eq hok (lookUp_done stored)⟩
  exact .deleteDocument present (shown.mono (Nat.le_refl _) later) entitled

theorem createVersion_made (numbered : w.store.Numbered) {request : VersionRequest}
    {row : Version} (h : (createVersion caller id request).Ends inMemory c w w' (.ok row)) :
    ∃ m new now, Effect c caller (.createVersion id request) w w' m (.addVersion new now) ∧
      new.document = id ∧ new.content = request.content ∧ new.author = caller.user ∧
      row = m.nextVersion new now := by
  obtain ⟨v, ⟨d, ws⟩, admitted, h⟩ := ends_bind_ok.mp h
  have later := readings_le h
  obtain ⟨_, note, noted, h⟩ := ends_bind_ok.mp h
  obtain ⟨u, _, known, stored⟩ := ends_bind_ok.mp h
  obtain ⟨rfl, hnote⟩ := ends_obey_ok.mp noted
  obtain ⟨same, present, rfl, seen, shown, entitled⟩ := documentFor_ok numbered admitted
  have kept : Memory.Kept 0 _ u.store := (ensureAuthor_only caller).kept known
  obtain ⟨fits, hok⟩ := of_done (lookUp_done stored) (Memory.createNextVersion_cases _ _ _)
  refine ⟨_, _, _, ⟨same ▸ kept, fits, ?_, done_eq hok (lookUp_done stored)⟩, rfl, rfl, rfl,
    done_answer hok (lookUp_done stored)⟩
  exact .addVersion present (shown.mono (Nat.le_refl _) later) entitled rfl rfl rfl hnote

theorem allocate_done {document : Int} {request : ShareRequest} {attempt left : Nat} {s : Share}
    (h : (allocate document request attempt left).Ends inMemory c w w' (.ok s)) :
    ∃ (new : NewShare) (now : Instant), new.document = document ∧ new.user = request.user ∧
      new.permission = request.permission ∧ new.expiresAt = request.expiresAt ∧
      (Change.addShare new now).Fits w.store ∧ w'.store = (Change.addShare new now).on w.store ∧
      s = new.row w.store.nextId now := by
  induction left generalizing w attempt with
  | zero => cases (ends_fail.mp h).2
  | succ left ih =>
    obtain ⟨v, token, drawn, h⟩ := ends_bind_ok.mp h
    obtain ⟨rfl, _⟩ := ends_freshToken.mp drawn
    obtain ⟨u, result, asked, h⟩ := ends_ask.mp h
    cases result with
    | ok row =>
      simp only [ends_bind_ok, ends_note, ends_pure] at h
      obtain ⟨_, _, ⟨rfl, _⟩, rfl, shown⟩ := h
      cases shown
      have done := (answers_ok asked).1
      obtain ⟨fits, hok⟩ := of_done done (Memory.createShare_cases _ _ _)
      exact ⟨_, _, rfl, rfl, rfl, rfl, fits, done_eq hok done, done_answer hok done⟩
    | error e =>
      obtain ⟨rfl, failed⟩ := asked
      cases e with
      | duplicate index =>
        simp only at h
        split at h
        · obtain ⟨_, _, noted, h⟩ := ends_bind_ok.mp h
          obtain ⟨rfl, _⟩ := ends_note.mp noted
          have rest := ih h
          rw [ask_createShare_error failed] at rest
          exact rest
        · cases (ends_fail.mp h).2
      | _ => cases (ends_fail.mp h).2

theorem shareDocument_made (numbered : w.store.Numbered) {request : ShareRequest} {s : Share}
    (h : (shareDocument caller id request).Ends inMemory c w w' (.ok s)) :
    ∃ m new now, Effect c caller (.shareDocument id request) w w' m (.addShare new now) ∧
      s = new.row m.nextId now := by
  obtain ⟨v, ⟨d, ws⟩, admitted, h⟩ := ends_bind_ok.mp h
  obtain ⟨_, now, read, h⟩ := ends_bind_ok.mp h
  obtain ⟨_, _, future, h⟩ := ends_bind_ok.mp h
  obtain ⟨u, _, known, allocated⟩ := ends_bind_ok.mp h
  obtain ⟨rfl, _⟩ := ends_clock.mp read
  obtain ⟨rfl, _⟩ := ends_obey_ok.mp future
  obtain ⟨same, present, rfl, own⟩ := documentFor_manage numbered admitted
  have kept : Memory.Kept 0 _ u.store := (requireUser_only _ _ _).kept known
  obtain ⟨new, now, document, user, permission, expiry, fits, stored, shown⟩ :=
    allocate_done allocated
  refine ⟨_, _, _, ⟨same ▸ kept, fits, ?_, stored⟩, shown⟩
  exact .addShare present own document user permission expiry

theorem shareOf_ok {document share : Int} {s : Share}
    (h : (shareOf document share).Ends inMemory c w w' (.ok s)) :
    w'.store = w.store ∧ w.store.tables.share? share = some s ∧ s.document = document := by
  refine ⟨(shareOf_only _ _).same h, ?_⟩
  obtain ⟨v, row, looked, h⟩ := ends_bind_ok.mp h
  split at h
  · rename_i on
    cases (ends_done.mp h).2
    have found := answers_read (f := fun t => Repository.orNotFound (t.share? share))
      (fun _ => rfl) (ends_lookUp_ok.mp looked)
    exact ⟨orNotFound_ok.mp found, on⟩
  · cases (ends_fail.mp h).2

theorem updateShare_effect (numbered : w.store.Numbered) {share : Int} {request : ShareUpdate}
    {row : Share} (h : (updateShare caller id share request).Ends inMemory c w w' (.ok row)) :
    ∃ m change, Effect c caller (.updateShare id share request) w w' m change := by
  obtain ⟨v, ⟨d, ws⟩, admitted, h⟩ := ends_bind_ok.mp h
  obtain ⟨u, s, picked, h⟩ := ends_bind_ok.mp h
  obtain ⟨_, now, read, h⟩ := ends_bind_ok.mp h
  obtain ⟨t, _, future, stored⟩ := ends_bind_ok.mp h
  obtain ⟨rfl, _⟩ := ends_obey_ok.mp future
  obtain ⟨same, present, rfl, own⟩ := documentFor_manage numbered admitted
  obtain ⟨same', found, on⟩ := shareOf_ok picked
  have same'' : t.store = w.store := by
    rw [← same, ← same', (ends_clock.mp read).1]
  obtain rfl := Repository.key_of_find found
  obtain ⟨x, number, fits, hok⟩ :=
    of_done (lookUp_done stored) (Memory.updateShare_cases _ _ _ _)
  obtain rfl : s = x := Option.some.inj (found.symm.trans (same ▸ number ▸ same'' ▸ fits))
  refine ⟨_, _, same'' ▸ .refl _, fits, ?_, done_eq hok (lookUp_done stored)⟩
  exact .setShare present own on

theorem revokeShare_effect (numbered : w.store.Numbered) {share : Int} {u : Unit}
    (h : (revokeShare caller id share).Ends inMemory c w w' (.ok u)) :
    ∃ m change, Effect c caller (.revokeShare id share) w w' m change := by
  obtain ⟨v, ⟨d, ws⟩, admitted, h⟩ := ends_bind_ok.mp h
  obtain ⟨u, s, picked, h⟩ := ends_bind_ok.mp h
  obtain ⟨t, now, read, h⟩ := ends_bind_ok.mp h
  obtain ⟨_, _, stored, h⟩ := ends_bind_ok.mp h
  obtain ⟨rfl, _⟩ := ends_note.mp h
  obtain ⟨same, present, rfl, own⟩ := documentFor_manage numbered admitted
  obtain ⟨same', found, on⟩ := shareOf_ok picked
  have same'' : t.store = w.store := by
    rw [← same, ← same', (ends_clock.mp read).1]
  obtain rfl := Repository.key_of_find found
  obtain ⟨x, number, fits, hok⟩ :=
    of_done (lookUp_done stored) (Memory.deleteShare_cases _ _ _)
  obtain rfl : s = x := Option.some.inj (found.symm.trans (same ▸ number ▸ same'' ▸ fits))
  refine ⟨_, _, same'' ▸ .refl _, fits, ?_, done_eq hok (lookUp_done stored)⟩
  exact .deleteShare present own on

theorem ends_as {σ : Type} {s : Store σ} {w w' : World σ} {p : Program α} {wrap : α → Answer}
    {r : Except Failure Answer} :
    (p.as wrap).Ends s c w w' r ↔ ∃ b, p.Ends s c w w' b ∧ r = b.map wrap := by
  simp only [Program.as, ends_bind, ends_pure]
  constructor
  · rintro (⟨e, failed, rfl⟩ | ⟨v, b, done, rfl, rfl⟩)
    · exact ⟨.error e, failed, rfl⟩
    · exact ⟨.ok b, done, rfl⟩
  · rintro ⟨e | b, h, rfl⟩
    · exact .inl ⟨e, h, rfl⟩
    · exact .inr ⟨w', b, h, rfl, rfl⟩

theorem ends_as_ok {p : Program α} {wrap : α → Answer} {a : Answer}
    (h : (p.as wrap).Ends inMemory c w w' (.ok a)) :
    ∃ b, p.Ends inMemory c w w' (.ok b) ∧ a = wrap b := by
  obtain ⟨e | b, done, shown⟩ := ends_as.mp h
  · cases shown
  · exact ⟨b, done, Except.ok.inj shown⟩

theorem serve_effect (numbered : w.store.Numbered) {op : Operation} {a : Answer}
    (h : (serve caller op).Ends inMemory c w w' (.ok a)) :
    ∃ m change, Effect c caller op w w' m change := by
  by_cases asks : op.onlyAsks = true
  · have same := (serve_only asks caller).same h
    exact ⟨w.store, .nothing, .refl _, trivial, .nothing asks, same⟩
  · cases op with
    | createWorkspace request =>
      obtain ⟨_, h, _⟩ := ends_as_ok h
      exact createWorkspace_effect h
    | updateWorkspace id request =>
      obtain ⟨_, h, _⟩ := ends_as_ok h
      exact updateWorkspace_effect h
    | deleteWorkspace id =>
      obtain ⟨_, h, _⟩ := ends_as_ok h
      exact deleteWorkspace_effect h
    | createDocument workspace request =>
      obtain ⟨_, h, _⟩ := ends_as_ok h
      exact createDocument_effect numbered h
    | updateDocument id request =>
      obtain ⟨_, h, _⟩ := ends_as_ok h
      exact updateDocument_effect numbered h
    | deleteDocument id =>
      obtain ⟨_, h, _⟩ := ends_as_ok h
      exact deleteDocument_effect numbered h
    | createVersion document request =>
      obtain ⟨_, h, _⟩ := ends_as_ok h
      obtain ⟨_, _, _, effect, _⟩ := createVersion_made numbered h
      exact ⟨_, _, effect⟩
    | shareDocument document request =>
      obtain ⟨_, h, _⟩ := ends_as_ok h
      obtain ⟨_, _, _, effect, _⟩ := shareDocument_made numbered h
      exact ⟨_, _, effect⟩
    | updateShare document share request =>
      obtain ⟨_, h, _⟩ := ends_as_ok h
      exact updateShare_effect numbered h
    | revokeShare document share =>
      obtain ⟨_, h, _⟩ := ends_as_ok h
      exact revokeShare_effect numbered h
    | _ => exact absurd rfl asks

/-- An operation fails and keeps the rows, or it succeeds and has made one change. -/
theorem serve_cases (numbered : w.store.Numbered) {op : Operation} {r : Except Failure Answer}
    (h : (serve caller op).Ends inMemory c w w' r) :
    (∃ e used, r = .error e ∧ w.store.Kept used w'.store) ∨
    ∃ a m change, r = .ok a ∧ Effect c caller op w w' m change := by
  cases r with
  | error e =>
    obtain ⟨used, _, kept⟩ := (serve_whole caller op).kept numbered h
    exact .inl ⟨e, used, rfl, kept⟩
  | ok a =>
    obtain ⟨m, change, effect⟩ := serve_effect numbered h
    exact .inr ⟨a, m, change, rfl, effect⟩

end DiagramShare.Service
