import DiagramShare.Proofs.Admission

/-! The shape of operations. An operation that changes rows does so by its last call, and nothing
after that call can fail. Where the backend fails a call, the operation ends at once. -/
namespace DiagramShare.Service

open DiagramShare.Access
open DiagramShare.Repository (Memory Call)
open DiagramShare.Time (Instant)

variable {α β : Type}

inductive Program.Settled : Program α → Prop where
  | done (a : α) : Settled (.done a)
  | log {record : LogRecord} {next : Program α} (rest : Settled next) : Settled (.log record next)

/-- A program that changes rows at most by its last call, and gives up where the backend fails. A
share that could not be stored may be tried again. -/
inductive Program.Whole : Program α → Prop where
  | done (a : α) : Whole (.done a)
  | fail (e : Failure) : Whole (.fail e)
  | ask {β : Type} {call : Call β} {next : Except Repository.Failure β → Program α}
      (keeps : call.keepsRows = true) (givesUp : GivesUp next) (rest : ∀ r, Whole (next r)) :
      Whole (.ask call next)
  | last {β : Type} {call : Call β} {next : Except Repository.Failure β → Program α}
      (settled : ∀ a, (next (.ok a)).Settled) (givesUp : GivesUp next)
      (fails : ∀ e, ∃ f, next (.error e) = .fail f) : Whole (.ask call next)
  | retry {new : NewShare} {next : Except Repository.Failure Share → Program α}
      (settled : ∀ a, (next (.ok a)).Settled) (givesUp : GivesUp next)
      (rest : ∀ e, Whole (next (.error e))) : Whole (.ask (.createShare new) next)
  | store {β : Type} {call : Storage.Call β} {next : Except Storage.Failure β → Program α}
      (rest : ∀ r, Whole (next r)) : Whole (.store call next)
  | now {next : Instant → Program α} (rest : ∀ t, Whole (next t)) : Whole (.now next)
  | token {next : String → Program α} (rest : ∀ t, Whole (next t)) : Whole (.token next)
  | log {record : LogRecord} {next : Program α} (rest : Whole next) : Whole (.log record next)

theorem Program.Settled.note (level : Level) (text : String) :
    (Program.note level text).Settled := .log (.done ())

theorem Program.Settled.bind {p : Program α} {f : α → Program β} (hp : p.Settled)
    (hf : ∀ a, (f a).Settled) : (p >>= f).Settled := by
  change (p.andThen f).Settled
  induction hp with
  | done a => exact hf a
  | log _ ih => exact .log ih

theorem Program.Settled.whole {p : Program α} (settled : p.Settled) : p.Whole := by
  induction settled with
  | done a => exact .done a
  | log _ ih => exact .log ih

theorem Program.Only.whole {p : Program α} (only : p.Only rowKeeping) : p.Whole := by
  induction only with
  | done a => exact .done a
  | fail e => exact .fail e
  | ask ofKind givesUp _ ih => exact .ask ofKind givesUp ih
  | store _ ih => exact .store ih
  | now _ ih => exact .now ih
  | token _ ih => exact .token ih
  | log _ ih => exact .log ih

theorem Program.Whole.after {p : Program α} {f : α → Program β} (first : p.Only rowKeeping)
    (rest : ∀ a, (f a).Whole) : (p >>= f).Whole := by
  change (p.andThen f).Whole
  induction first with
  | done a => exact rest a
  | fail e => exact .fail e
  | ask ofKind givesUp _ ih => exact .ask ofKind (givesUp.bind f) ih
  | store _ ih => exact .store ih
  | now _ ih => exact .now ih
  | token _ ih => exact .token ih
  | log _ ih => exact .log ih

theorem Program.Whole.before {p : Program α} {f : α → Program β} (first : p.Whole)
    (rest : ∀ a, (f a).Settled) : (p >>= f).Whole := by
  change (p.andThen f).Whole
  induction first with
  | done a => exact (rest a).whole
  | fail e => exact .fail e
  | ask keeps givesUp _ ih => exact .ask keeps (givesUp.bind f) ih
  | last done givesUp fails =>
    refine .last (fun a => (done a).bind rest) (givesUp.bind f) fun e => ?_
    obtain ⟨failure, he⟩ := fails e
    exact ⟨failure, by rw [he]; rfl⟩
  | retry done givesUp _ ih => exact .retry (fun a => (done a).bind rest) (givesUp.bind f) ih
  | store _ ih => exact .store ih
  | now _ ih => exact .now ih
  | token _ ih => exact .token ih
  | log _ ih => exact .log ih

theorem Program.Whole.query (call : Call α) : (Program.query call).Whole := by
  refine .last (fun a => .done a) (fun e text reported => ?_) fun e => ⟨_, rfl⟩
  simp only [givesUp_ofRepository reported]

theorem Program.Whole.lookUp (what : String) (call : Call α) :
    (Program.lookUp what call).Whole := by
  refine .last (fun a => .done a) (fun e text reported => ?_) fun e => ⟨_, rfl⟩
  simp only [givesUp_ofLookup reported]

theorem userOf_only (kind : CallKind) (caller : Caller) : (userOf caller).Only kind := by
  unfold userOf
  cases caller.user with
  | none => exact .fail _
  | some user => exact .done user

theorem getDocument_only (caller : Caller) (id : Int) : (getDocument caller id).Only reading := by
  refine (documentFor_only _ _ _).bind fun target => ?_
  exact Program.Only.bind (.query rfl) fun version => .done _

theorem listWorkspaces_only (caller : Caller) (query : PageQuery) :
    (listWorkspaces caller query).Only reading := by
  refine (userOf_only _ _).bind fun owner => ?_
  refine Program.Only.bind (.query rfl) fun data => ?_
  exact Program.Only.bind (.query rfl) fun total => .done _

theorem listDocuments_only (caller : Caller) (workspace : Int) (query : PageQuery) :
    (listDocuments caller workspace query).Only reading := by
  refine (workspaceFor_only _ _ _).bind fun w => ?_
  refine Program.Only.bind (.query rfl) fun data => ?_
  exact Program.Only.bind (.query rfl) fun total => .done _

theorem listVersions_only (caller : Caller) (document : Int) (query : PageQuery) :
    (listVersions caller document query).Only reading := by
  refine (documentFor_only _ _ _).bind fun target => ?_
  refine Program.Only.bind (.query rfl) fun data => ?_
  exact Program.Only.bind (.query rfl) fun total => .done _

theorem getVersion_only (caller : Caller) (document number : Int) :
    (getVersion caller document number).Only reading := by
  refine (documentFor_only _ _ _).bind fun target => ?_
  exact .lookUp rfl

theorem listShares_only (caller : Caller) (document : Int) (query : PageQuery) :
    (listShares caller document query).Only reading := by
  refine (documentFor_only _ _ _).bind fun target => ?_
  refine Program.Only.bind (.query rfl) fun data => ?_
  exact Program.Only.bind (.query rfl) fun total => .done _

theorem allow_only (caller : Caller) (document : Int) (kind : Kind) :
    (allow caller document kind).Only reading :=
  (documentFor_only _ _ _).bind fun _ => .done ()

theorem describe_only (key : String) : (describe key).Only reading := by
  refine (Program.Only.storing _).bind fun size => ?_
  exact (Program.Only.storing _).bind fun url => .done _

theorem uploadAsset_only (caller : Caller) (document : Int) (name : String)
    (content : Storage.Content) : (uploadAsset caller document name content).Only reading := by
  refine (allow_only _ _ _).bind fun _ => ?_
  refine (Program.Only.storing _).bind fun key => ?_
  refine (describe_only _).bind fun info => ?_
  refine (Program.Only.storing _).bind fun driver => ?_
  exact (Program.Only.note _ _).bind fun _ => .done info

theorem deleteAsset_only (caller : Caller) (document : Int) (name : String) :
    (deleteAsset caller document name).Only reading := by
  refine (allow_only _ _ _).bind fun _ => .store fun r => ?_
  split
  · exact .done ()
  · exact .note _ _
  · exact .fail _

def Operation.onlyAsks : Operation → Bool
  | .createWorkspace _ | .updateWorkspace _ _ | .deleteWorkspace _ | .createDocument _ _
  | .updateDocument _ _ | .deleteDocument _ | .createVersion _ _ | .shareDocument _ _
  | .updateShare _ _ _ | .revokeShare _ _ => false
  | _ => true

theorem as_only {kind : CallKind} {p : Program α} (only : p.Only kind) (wrap : α → Answer) :
    (p.as wrap).Only kind := only.bind fun _ => .done _

theorem serve_only {op : Operation} (asks : op.onlyAsks = true) (caller : Caller) :
    (serve caller op).Only reading := by
  cases op with
  | ping => exact as_only (.query rfl) _
  | getWorkspace id => exact as_only (workspaceFor_only _ _ _) _
  | listWorkspaces query => exact as_only (listWorkspaces_only _ _) _
  | getDocument id => exact as_only (getDocument_only _ _) _
  | listDocuments workspace query => exact as_only (listDocuments_only _ _ _) _
  | listVersions document query => exact as_only (listVersions_only _ _ _) _
  | getVersion document number => exact as_only (getVersion_only _ _ _) _
  | listShares document query => exact as_only (listShares_only _ _ _) _
  | uploadAsset document name content => exact as_only (uploadAsset_only _ _ _ _) _
  | openAsset document name =>
    exact as_only ((allow_only _ _ _).bind fun _ => .storing _) _
  | assetUrl document name =>
    exact as_only ((allow_only _ _ _).bind fun _ => describe_only _) _
  | deleteAsset document name => exact as_only (deleteAsset_only _ _ _) _
  | _ => contradiction

theorem workspaceFor_keeps (caller : Caller) (id : Int) (kind : Kind) :
    (workspaceFor caller id kind).Only rowKeeping := (workspaceFor_only _ _ _).keepsRows

theorem documentFor_keeps (caller : Caller) (id : Int) (kind : Kind) :
    (documentFor caller id kind).Only rowKeeping := (documentFor_only _ _ _).keepsRows

theorem createWorkspace_whole (caller : Caller) (request : WorkspaceRequest) :
    (createWorkspace caller request).Whole := by
  refine .after (userOf_only _ _) fun owner => ?_
  refine .after (.obey _) fun name => ?_
  refine .after (.obey _) fun description => ?_
  refine .after (.query rfl) fun _ => ?_
  refine .after (.query rfl) fun taken => ?_
  refine .after (.refuseIf _ _) fun _ => ?_
  refine .before (.query _) fun w => ?_
  exact (Program.Settled.note _ _).bind fun _ => .done w

theorem freeName_only (w : Workspace) (id : Int) (name : Option String) :
    (freeName w id name).Only reading := by
  cases name with
  | none => exact .done ()
  | some name =>
    simp only [freeName]
    split
    · exact .done ()
    · exact Program.Only.bind (.query rfl) fun taken => .refuseIf _ _

theorem updateWorkspace_whole (caller : Caller) (id : Int) (request : WorkspaceUpdate) :
    (updateWorkspace caller id request).Whole := by
  refine .after (workspaceFor_keeps _ _ _) fun w => ?_
  refine .after (.obey _) fun name => ?_
  refine .after (.obey _) fun description => ?_
  refine .after (freeName_only _ _ _).keepsRows fun _ => ?_
  exact .lookUp _ _

theorem deleteWorkspace_whole (caller : Caller) (id : Int) :
    (deleteWorkspace caller id).Whole := by
  refine .after (workspaceFor_keeps _ _ _) fun w => ?_
  refine .after .clock fun now => ?_
  refine .before (.lookUp _ _) fun summary => ?_
  exact (Program.Settled.note _ _).bind fun _ => .done summary

theorem freeSlug_only (workspace : Int) (slug : String) (except : Option Int) :
    (freeSlug workspace slug except).Only reading :=
  Program.Only.bind (.query rfl) fun _ => .refuseIf _ _

theorem createDocument_whole (caller : Caller) (workspace : Int) (request : DocumentRequest) :
    (createDocument caller workspace request).Whole := by
  refine .after (workspaceFor_keeps _ _ _) fun w => ?_
  refine .after (.obey _) fun title => ?_
  refine .after (.obey _) fun slug => ?_
  refine .after (freeSlug_only _ _ _).keepsRows fun _ => ?_
  refine .before (.query _) fun stored => ?_
  exact (Program.Settled.note _ _).bind fun _ => .done _

theorem freeNewSlug_only (d : Document) (id : Int) (slug : Option String) :
    (freeNewSlug d id slug).Only reading := by
  cases slug with
  | none => exact .done ()
  | some slug =>
    simp only [freeNewSlug]
    split
    · exact .done ()
    · exact freeSlug_only _ _ _

theorem updateDocument_whole (caller : Caller) (id : Int) (request : DocumentUpdate) :
    (updateDocument caller id request).Whole := by
  refine .after (documentFor_keeps _ _ _) fun target => ?_
  refine .after (.obey _) fun title => ?_
  refine .after (.obey _) fun slug => ?_
  refine .after (freeNewSlug_only _ _ _).keepsRows fun _ => ?_
  exact .lookUp _ _

theorem deleteDocument_whole (caller : Caller) (id : Int) : (deleteDocument caller id).Whole := by
  refine .after (documentFor_keeps _ _ _) fun target => ?_
  refine .after .clock fun now => ?_
  refine .before (.lookUp _ _) fun summary => ?_
  exact (Program.Settled.note _ _).bind fun _ => .done summary

theorem ensureAuthor_only (caller : Caller) : (ensureAuthor caller).Only rowKeeping := by
  unfold ensureAuthor
  split
  · exact .query rfl
  · exact .done ()

theorem createVersion_whole (caller : Caller) (document : Int) (request : VersionRequest) :
    (createVersion caller document request).Whole := by
  refine .after (documentFor_keeps _ _ _) fun target => ?_
  refine .after (.obey _) fun note => ?_
  refine .after (ensureAuthor_only _) fun _ => ?_
  exact .lookUp _ _

theorem requireUser_only (d : Document) (w : Workspace) (user : Option Int) :
    (requireUser d w user).Only rowKeeping := by
  cases user with
  | none => exact .done ()
  | some user =>
    refine (Program.Only.obey _).bind fun _ => ?_
    refine (Program.Only.obey _).bind fun _ => ?_
    refine Program.Only.bind (.query rfl) fun _ => ?_
    exact Program.Only.bind (.query rfl) fun _ => .refuseIf _ _

theorem allocate_whole (document : Int) (request : ShareRequest) (attempt left : Nat) :
    (allocate document request attempt left).Whole := by
  induction left generalizing attempt with
  | zero => exact .fail _
  | succ left ih =>
    refine .after (.token .done) fun token => ?_
    refine .retry (fun s => ?_) (fun e text reported => ?_) fun e => ?_
    · exact (Program.Settled.note _ _).bind fun _ => .done s
    · cases e <;> simp_all [backendText?, Failure.ofRepository]
    · cases e with
      | duplicate index =>
        simp only
        split
        · exact .after (.note _ _) fun _ => ih _
        · exact .fail _
      | _ => exact .fail _

theorem shareDocument_whole (caller : Caller) (document : Int) (request : ShareRequest) :
    (shareDocument caller document request).Whole := by
  refine .after (documentFor_keeps _ _ _) fun target => ?_
  refine .after .clock fun now => ?_
  refine .after (.obey _) fun _ => ?_
  refine .after (requireUser_only _ _ _) fun _ => ?_
  exact allocate_whole _ _ _ _

theorem shareOf_only (document share : Int) : (shareOf document share).Only reading := by
  refine Program.Only.bind (.lookUp rfl) fun s => ?_
  split
  · exact .done s
  · exact .fail _

theorem updateShare_whole (caller : Caller) (document share : Int) (request : ShareUpdate) :
    (updateShare caller document share request).Whole := by
  refine .after (documentFor_keeps _ _ _) fun target => ?_
  refine .after (shareOf_only _ _).keepsRows fun s => ?_
  refine .after .clock fun now => ?_
  refine .after (.obey _) fun _ => ?_
  exact .lookUp _ _

theorem revokeShare_whole (caller : Caller) (document share : Int) :
    (revokeShare caller document share).Whole := by
  refine .after (documentFor_keeps _ _ _) fun target => ?_
  refine .after (shareOf_only _ _).keepsRows fun s => ?_
  refine .after .clock fun now => ?_
  exact .before (.lookUp _ _) fun _ => .note _ _

theorem as_whole {p : Program α} (whole : p.Whole) (wrap : α → Answer) : (p.as wrap).Whole :=
  whole.before fun _ => .done _

theorem serve_whole (caller : Caller) (op : Operation) : (serve caller op).Whole := by
  by_cases asks : op.onlyAsks = true
  · exact (serve_only asks caller).keepsRows.whole
  · cases op with
    | createWorkspace request => exact as_whole (createWorkspace_whole _ _) _
    | updateWorkspace id request => exact as_whole (updateWorkspace_whole _ _ _) _
    | deleteWorkspace id => exact as_whole (deleteWorkspace_whole _ _) _
    | createDocument workspace request => exact as_whole (createDocument_whole _ _ _) _
    | updateDocument id request => exact as_whole (updateDocument_whole _ _ _) _
    | deleteDocument id => exact as_whole (deleteDocument_whole _ _) _
    | createVersion document request => exact as_whole (createVersion_whole _ _ _) _
    | shareDocument document request => exact as_whole (shareDocument_whole _ _ _) _
    | updateShare document share request => exact as_whole (updateShare_whole _ _ _ _) _
    | revokeShare document share => exact as_whole (revokeShare_whole _ _ _) _
    | _ => exact absurd rfl asks

end DiagramShare.Service
