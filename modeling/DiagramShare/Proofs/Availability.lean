import DiagramShare.Proofs.Served
import DiagramShare.Proofs.Texts

/-! The database is never at fault. So long as no text has a NUL character, an operation on rows is
never refused by the relational store: every text that the rules let through fits its column, every
instant is in range and every row that is referred to is there. -/
namespace DiagramShare.Service

open DiagramShare.Access
open DiagramShare.Repository (Relational Call Tables orNotFound)
open DiagramShare.Repository.Relational (isSendable InRange)
open DiagramShare.Time (Instant)

variable {c : Conditions} {w : World Relational} {α : Type}
variable {storage : Prop} {P : Assertion} {Q : α → Assertion}

/-- The texts of an operation that the store may be given as they are. -/
def Operation.texts : Operation → List String
  | .createWorkspace request => request.name :: request.description.toList
  | .updateWorkspace _ request => request.name.toList ++ request.description.toList
  | .createDocument _ request => request.title :: request.content.toList
  | .updateDocument _ request => request.title.toList
  | .createVersion _ request => request.content :: request.note.toList
  | _ => []

def Operation.usesStorage : Operation → Bool
  | .uploadAsset _ _ _ | .openAsset _ _ | .assetUrl _ _ | .deleteAsset _ _ => true
  | _ => false

/-- A clock that has never shown a time before 1970. -/
def Conditions.Recent (c : Conditions) : Prop := ∀ n, Instant.epoch ≤ c.clock n

theorem inRange_of_recent {t : Instant} (recent : Instant.epoch ≤ t) : InRange t := by
  simp only [Instant.le_iff, Instant.epoch] at recent
  refine Int.le_tdiv_of_mul_le (by decide) ?_
  simp only [Relational.firstMicros, Relational.epoch2000, Instant.totalNanos]
  omega

theorem future_le {expiry : Option Instant} {now : Instant} {u : Unit}
    (future : futureExpiry expiry now = .ok u) : ∀ t ∈ expiry, now ≤ t := by
  intro t given
  cases given
  rw [futureExpiry] at future
  split at future
  · cases future
  · rename_i ahead
    exact (Instant.le_total now t).resolve_right ahead

theorem inRange_of_future {expiry : Option Instant} {now : Instant} {u : Unit}
    (recent : Instant.epoch ≤ now) (future : futureExpiry expiry now = .ok u) :
    ∀ t ∈ expiry, InRange t :=
  fun t given => inRange_of_recent (Instant.le_trans recent (future_le future t given))

section Texts

variable {given text : Option String}

theorem optionalText_sendable {field : String} {max : Nat}
    (h : optionalText field given max = .ok text) (plain : ∀ t ∈ given, isSendable t = true) :
    ∀ t ∈ text, isSendable t = true ∧ t.length ≤ max := by
  rintro t rfl
  obtain ⟨value, given, inside, short⟩ := optionalText_ok h
  exact ⟨Relational.isSendable_of_subset inside (plain value given), short⟩

theorem newName_sendable (h : newName given = .ok text) (plain : ∀ t ∈ given, isSendable t = true) :
    ∀ t ∈ text, isSendable t = true ∧ t.length ≤ 255 := by
  rintro t rfl
  obtain ⟨value, given, inside, short⟩ := newName_ok h
  exact ⟨Relational.isSendable_of_subset inside (plain value given), short⟩

theorem newTitle_sendable (h : newTitle given = .ok text)
    (plain : ∀ t ∈ given, isSendable t = true) :
    ∀ t ∈ text, isSendable t = true ∧ t.length ≤ 255 := by
  rintro t rfl
  obtain ⟨value, given, inside, short⟩ := newTitle_ok h
  exact ⟨Relational.isSendable_of_subset inside (plain value given), short⟩

theorem newSlug_sendable (h : newSlug given = .ok text) :
    ∀ t ∈ text, isSendable t = true ∧ t.length ≤ 255 := by
  rintro t rfl
  obtain ⟨plain, short⟩ := newSlug_ok h
  exact ⟨Relational.isSendable_of_plain plain, short⟩

theorem newDescription_sendable {description : Option (Option String)}
    (h : newDescription given = .ok description) (plain : ∀ t ∈ given, isSendable t = true) :
    ∀ t, description = some (some t) → isSendable t = true := by
  rintro t rfl
  obtain ⟨value, given, inside⟩ := newDescription_ok h
  exact Relational.isSendable_of_subset inside (plain value given)

end Texts

section Operations

variable {caller : Caller} {id : Int}

def Ready (c : Conditions) : Assertion := fun r k =>
  r.Sound ∧ r.tables.tokenExists (c.token k) = false

theorem ensureUser_answered {user : Int} (positive : 0 < user) (T : Tables → Prop) :
    Answered c (fun r k => Ready c r k ∧ T r.tables) (.ensureUser user)
      fun _ r k => (Ready c r k ∧ T r.tables) ∧ user ∈ r.users := by
  rintro r n k ⟨⟨sound, free⟩, holds⟩
  have sound' : (Relational.ensureUser user r).1.Sound := Relational.ensureUser_sound sound user
  have kept := Relational.ensureUser_tables (r := r) user
  have known : user ∈ (Relational.ensureUser user r).1.users := by
    simp only [Relational.ensureUser, if_neg (Int.not_le.mpr positive)]
    split
    · rename_i there
      exact List.contains_iff_mem.mp there
    · exact List.mem_append_right _ (List.mem_singleton_self user)
  refine ⟨fun _ _ => ⟨⟨⟨sound', ?_⟩, ?_⟩, known⟩, ?_⟩
  · change (Relational.ensureUser user r).1.tables.tokenExists (c.token k) = false
    rw [kept]
    exact free
  · change T (Relational.ensureUser user r).1.tables
    rw [kept]
    exact holds
  · intro e failed
    simp [Relational.answer, Relational.ensureUser, Int.not_le.mpr positive] at failed

theorem ensureUser_served (calm : c.Calm) {user : Int} (positive : 0 < user) :
    (Program.query (.ensureUser user)).Served c storage (Ready c)
      fun _ r k => Ready c r k ∧ user ∈ r.users :=
  (Program.Served.query calm (ensureUser_answered positive fun _ => True)).weaken
    (fun _ _ h => ⟨h, trivial⟩) fun _ _ _ h => ⟨h.1.1, h.2⟩

theorem answered_of_fine {call : Call α}
    (fine : ∀ r n k, P r k → ∀ e, (Relational.answer (c.clock n) call r).2 = .error e →
      backendText? e = none) : Answered c P call fun _ _ _ => True :=
  fun r n k holds => ⟨fun _ _ => trivial, fine r n k holds⟩

theorem createWorkspace_answered (new : NewWorkspace) (name : isSendable new.name = true)
    (description : ∀ text ∈ new.description, isSendable text = true)
    (short : new.name.length ≤ 255) :
    Answered c (fun r _ => new.owner ∈ r.users) (.createWorkspace new) fun _ _ _ => True := by
  refine answered_of_fine fun r n k known e failed => ?_
  simp only [Relational.answer, Relational.createWorkspace_eq name description short known]
    at failed
  split at failed <;> cases failed
  rfl

theorem userOf_served : (userOf caller).Served c storage P fun owner r k =>
    P r k ∧ caller.user = some owner := by
  unfold userOf
  cases caller.user with
  | none => exact .fail _ (by intro cause same; cases same)
  | some owner => exact .done owner fun _ _ h => ⟨h, rfl⟩

theorem createWorkspace_served (calm : c.Calm) (known : ∀ user ∈ caller.user, 0 < user)
    {request : WorkspaceRequest} (name : isSendable request.name = true)
    (description : ∀ text ∈ request.description, isSendable text = true) :
    (createWorkspace caller request).Served c storage (Ready c) fun _ _ _ => True := by
  refine userOf_served.bind fun owner => .given fun signed => ?_
  refine (Program.Served.obey _).bind fun title => .given fun named => ?_
  refine (Program.Served.obey _).bind fun text => .given fun described => ?_
  obtain ⟨inside, short⟩ := requiredText_ok named
  have plain := Relational.isSendable_of_subset inside name
  have plainText : ∀ t ∈ text, isSendable t = true := fun t ht =>
    (optionalText_sendable described description t ht).1
  refine (ensureUser_served calm (known owner signed)).bind fun _ => ?_
  refine (Program.Served.query_read (g := fun t => t.nameExists owner title none) calm
    (fun _ => rfl) (by simpa using plain)).bind fun taken => ?_
  refine (Program.Served.refuseIf _ _).bind fun _ => ?_
  refine Program.Served.bind (Q := fun _ _ _ => True) ?_ fun ws => ?_
  · have answered := createWorkspace_answered (c := c)
      ⟨title, text, owner, request.isPublic.getD false⟩ plain plainText short
    exact (Program.Served.query calm answered).weaken (fun r k h => h.1.1.2) fun _ _ _ h => h
  · exact (Program.Served.note _ _).bind fun _ => .done ws fun _ _ _ => trivial

theorem freeName_served (calm : c.Calm) {w : Workspace} {name : Option String}
    (plain : ∀ text ∈ name, isSendable text = true) :
    (freeName w id name).Served c storage P fun _ => P := by
  cases name with
  | none => exact .done () fun _ _ h => h
  | some name =>
    simp only [freeName]
    split
    · exact .done () fun _ _ h => h
    · refine (Program.Served.query_read (g := fun t => t.nameExists w.owner name (some id)) calm
        (fun _ => rfl) (by simpa using plain name rfl)).bind fun taken => ?_
      exact (Program.Served.refuseIf _ _).weaken (fun _ _ h => h) fun _ _ _ h => h.1.1

theorem updateWorkspace_answered (id : Int) (changes : WorkspaceChanges)
    (name : ∀ text ∈ changes.name, isSendable text = true ∧ text.length ≤ 255)
    (description : ∀ text, changes.description = some (some text) → isSendable text = true) :
    Answered c P (.updateWorkspace id changes) fun _ _ _ => True := by
  refine answered_of_fine fun r n k _ e failed => ?_
  simp only [Relational.answer, Relational.updateWorkspace_eq name description] at failed
  split at failed
  · cases failed
    rfl
  · split at failed <;> cases failed
    rfl

theorem updateWorkspace_served (calm : c.Calm) {request : WorkspaceUpdate}
    (name : ∀ text ∈ request.name, isSendable text = true)
    (description : ∀ text ∈ request.description, isSendable text = true) :
    (updateWorkspace caller id request).Served c storage P fun _ _ _ => True := by
  refine (workspaceFor_served calm).bind fun ws => ?_
  refine (Program.Served.obey _).bind fun title => .given fun named => ?_
  refine (Program.Served.obey _).bind fun text => .given fun described => ?_
  have plain := newName_sendable named name
  have plainText := newDescription_sendable described description
  refine (freeName_served calm fun t ht => (plain t ht).1).bind fun _ => ?_
  exact Program.Served.lookUp calm
    (updateWorkspace_answered id ⟨title, text, request.isPublic⟩ plain plainText)

theorem deleteWorkspace_served (calm : c.Calm) (recent : c.Recent) :
    (deleteWorkspace caller id).Served c storage P fun _ _ _ => True := by
  refine (workspaceFor_served calm).bind fun ws => ?_
  refine Program.Served.clock.bind fun now => .given fun shown => ?_
  obtain ⟨n, rfl⟩ := shown
  refine Program.Served.bind (Q := fun _ _ _ => True) (.lookUp calm ?_) fun summary => ?_
  · refine answered_of_fine fun r m k _ e failed => ?_
    simp only [Relational.answer, Relational.deleteWorkspace_eq (inRange_of_recent (recent n))]
      at failed
    split at failed <;> cases failed
    rfl
  · exact (Program.Served.note _ _).bind fun _ => .done summary fun _ _ _ => trivial

theorem freeSlug_served (calm : c.Calm) {workspace : Int} {slug : String} {except : Option Int}
    (plain : isSendable slug = true) :
    (freeSlug workspace slug except).Served c storage P fun _ => P := by
  refine (Program.Served.query_read (g := fun t => t.slugExists workspace slug except) calm
    (fun _ => rfl) (by simpa using plain)).bind fun taken => ?_
  exact (Program.Served.refuseIf _ _).weaken (fun _ _ h => h) fun _ _ _ h => h.1.1

theorem createDocument_answered (new : NewDocument) (first : Option FirstVersion)
    (title : isSendable new.title = true) (slug : isSendable new.slug = true)
    (shortTitle : new.title.length ≤ 255) (shortSlug : new.slug.length ≤ 255)
    (content : ∀ f ∈ first, isSendable f.content = true)
    (note : ∀ f ∈ first, ∀ text ∈ f.note, isSendable text = true ∧ text.length ≤ 500) :
    Answered c (fun r _ => (r.tables.anyWorkspace? new.workspace).isSome = true ∧
      ∀ f ∈ first, ∀ author ∈ f.author, author ∈ r.users)
      (.createDocumentWithVersion new first) fun _ _ _ => True := by
  refine answered_of_fine fun r n k holds e failed => ?_
  simp only [Relational.answer, Relational.createDocumentWithVersion_eq title slug shortTitle
    shortSlug holds.1 content note holds.2] at failed
  split at failed
  · cases failed
    rfl
  · cases first <;> cases failed

theorem createDocument_served (calm : c.Calm) {request : DocumentRequest}
    (title : isSendable request.title = true)
    (content : ∀ text ∈ request.content, isSendable text = true) :
    (createDocument caller id request).Served c storage (Ready c) fun _ _ _ => True := by
  refine (workspaceFor_served calm).bind fun ws => ?_
  refine (Program.Served.obey _).bind fun name => .given fun titled => ?_
  refine (Program.Served.obey _).bind fun short => .given fun slugged => ?_
  obtain ⟨inside, nameShort⟩ := requiredText_ok titled
  obtain ⟨plain, slugShort⟩ := slugFor_ok slugged nameShort
  have plainSlug := Relational.isSendable_of_plain plain
  refine (freeSlug_served calm plainSlug).bind fun _ => ?_
  refine Program.Served.bind (Q := fun _ _ _ => True) ?_ fun stored => ?_
  · refine (Program.Served.query calm (createDocument_answered (c := c)
      ⟨ws.id, name, request.kind, short, request.isPublic.getD false⟩
      (request.content.map fun content => ⟨content, caller.user, some firstNote⟩)
      (Relational.isSendable_of_subset inside title) plainSlug nameShort slugShort ?_ ?_)).weaken
      ?_ fun _ _ _ h => h
    · intro f hf
      obtain ⟨text, given, rfl⟩ := Option.map_eq_some_iff.mp hf
      exact content text given
    · intro f hf text noted
      obtain ⟨_, _, rfl⟩ := Option.map_eq_some_iff.mp hf
      cases noted
      exact ⟨by decide, by decide⟩
    · rintro r k ⟨ready, found, own⟩
      have there := List.mem_of_find?_eq_some found
      refine ⟨List.find?_isSome.mpr ⟨ws, there, beq_self_eq_true _⟩, ?_⟩
      intro f hf author wrote
      obtain ⟨_, _, rfl⟩ := Option.map_eq_some_iff.mp hf
      cases (own (by decide)).symm.trans wrote
      exact ready.1.owners ws there
  · exact (Program.Served.note _ _).bind fun _ => .done _ fun _ _ _ => trivial

theorem freeNewSlug_served (calm : c.Calm) {d : Document} {slug : Option String}
    (plain : ∀ text ∈ slug, isSendable text = true) :
    (freeNewSlug d id slug).Served c storage P fun _ => P := by
  cases slug with
  | none => exact .done () fun _ _ h => h
  | some slug =>
    simp only [freeNewSlug]
    split
    · exact .done () fun _ _ h => h
    · exact freeSlug_served calm (plain slug rfl)

theorem updateDocument_answered (id : Int) (changes : DocumentChanges)
    (title : ∀ text ∈ changes.title, isSendable text = true ∧ text.length ≤ 255)
    (slug : ∀ text ∈ changes.slug, isSendable text = true ∧ text.length ≤ 255) :
    Answered c P (.updateDocument id changes) fun _ _ _ => True := by
  refine answered_of_fine fun r n k _ e failed => ?_
  simp only [Relational.answer, Relational.updateDocument_eq title slug] at failed
  split at failed
  · cases failed
    rfl
  · split at failed <;> cases failed
    rfl

theorem updateDocument_served (calm : c.Calm) (token : ∀ s ∈ caller.token, isSendable s = true)
    {request : DocumentUpdate} (title : ∀ text ∈ request.title, isSendable text = true) :
    (updateDocument caller id request).Served c storage P fun _ _ _ => True := by
  refine (documentFor_served calm token).bind fun target => ?_
  refine (Program.Served.obey _).bind fun name => .given fun titled => ?_
  refine (Program.Served.obey _).bind fun short => .given fun slugged => ?_
  have plain := newTitle_sendable titled title
  have plainSlug := newSlug_sendable slugged
  refine (freeNewSlug_served calm fun t ht => (plainSlug t ht).1).bind fun _ => ?_
  exact Program.Served.lookUp calm
    (updateDocument_answered id ⟨name, request.kind, short, request.isPublic⟩ plain plainSlug)

theorem deleteDocument_served (calm : c.Calm) (recent : c.Recent)
    (token : ∀ s ∈ caller.token, isSendable s = true) :
    (deleteDocument caller id).Served c storage P fun _ _ _ => True := by
  refine (documentFor_served calm token).bind fun target => ?_
  refine Program.Served.clock.bind fun now => .given fun shown => ?_
  obtain ⟨n, rfl⟩ := shown
  refine Program.Served.bind (Q := fun _ _ _ => True) (.lookUp calm ?_) fun summary => ?_
  · refine answered_of_fine fun r m k _ e failed => ?_
    simp only [Relational.answer, Relational.deleteDocument_eq (inRange_of_recent (recent n))]
      at failed
    split at failed <;> cases failed
    rfl
  · exact (Program.Served.note _ _).bind fun _ => .done summary fun _ _ _ => trivial

theorem createNextVersion_answered (new : NewVersion) (content : isSendable new.content = true)
    (note : ∀ text ∈ new.note, isSendable text = true ∧ text.length ≤ 500) :
    Answered c (fun r _ => ∀ author ∈ new.author, author ∈ r.users) (.createNextVersion new)
      fun _ _ _ => True := by
  refine answered_of_fine fun r n k known e failed => ?_
  simp only [Relational.answer, Relational.createNextVersion_eq content note known] at failed
  split at failed <;> cases failed
  rfl

theorem createVersion_served (calm : c.Calm) (token : ∀ s ∈ caller.token, isSendable s = true)
    (known : ∀ user ∈ caller.user, 0 < user) {request : VersionRequest}
    (content : isSendable request.content = true)
    (note : ∀ text ∈ request.note, isSendable text = true) :
    (createVersion caller id request).Served c storage (Ready c) fun _ _ _ => True := by
  refine (documentFor_served calm token).bind fun target => ?_
  refine (Program.Served.obey _).bind fun text => .given fun noted => ?_
  have plain := optionalText_sendable noted note
  refine Program.Served.bind (Q := fun _ r _ => ∀ author ∈ caller.user, author ∈ r.users) ?_
    fun _ => ?_
  · unfold ensureAuthor
    cases signed : caller.user with
    | none => exact .done () fun _ _ _ _ none => nomatch none
    | some user =>
      refine (ensureUser_served calm (known user signed)).weaken (fun _ _ h => h.1) ?_
      rintro _ r k ⟨_, there⟩ author same
      cases same
      exact there
  · exact Program.Served.lookUp calm
      (createNextVersion_answered ⟨target.1.id, request.content, caller.user, text⟩ content plain)

theorem page_served {call : Call (List α)} {count : Call Nat} {g : Tables → List α}
    {f : Tables → Nat} (calm : c.Calm)
    (reads : ∀ now, Relational.answer now call = Relational.read [] fun t => .ok (g t))
    (counts : ∀ now, Relational.answer now count = Relational.read [] fun t => .ok (f t))
    (page : Page) :
    (do
      let data ← Program.query call
      let total ← Program.query count
      return (⟨data, total, page⟩ : Listing α)).Served c storage P fun _ _ _ => True := by
  refine (Program.Served.query_read calm reads (List.forall_mem_nil _)).bind fun data => ?_
  refine (Program.Served.query_read calm counts (List.forall_mem_nil _)).bind fun total => ?_
  exact .done _ fun _ _ _ => trivial

theorem listWorkspaces_served (calm : c.Calm) (query : PageQuery) :
    (listWorkspaces caller query).Served c storage P fun _ _ _ => True :=
  userOf_served.bind fun owner => page_served (g := fun t => t.ownedPage owner _ _)
    (f := fun t => (t.owned owner).length) calm
    (fun _ => rfl) (fun _ => rfl) _

theorem getDocument_served (calm : c.Calm) (token : ∀ s ∈ caller.token, isSendable s = true) :
    (getDocument caller id).Served c storage P fun _ _ _ => True := by
  refine (documentFor_served calm token).bind fun target => ?_
  refine (Program.Served.query_read (g := fun t => t.latestVersion? target.1.id) calm
    (fun _ => rfl) (List.forall_mem_nil _)).bind fun version => ?_
  exact .done _ fun _ _ _ => trivial

theorem listDocuments_served (calm : c.Calm) (query : PageQuery) :
    (listDocuments caller id query).Served c storage P fun _ _ _ => True :=
  (workspaceFor_served calm).bind fun ws => page_served (g := fun t => t.documentPage ws.id _ _)
    (f := fun t => (t.documentsOf ws.id).length)
    calm (fun _ => rfl) (fun _ => rfl) _

theorem listVersions_served (calm : c.Calm) (token : ∀ s ∈ caller.token, isSendable s = true)
    (query : PageQuery) : (listVersions caller id query).Served c storage P fun _ _ _ => True :=
  (documentFor_served calm token).bind fun target => page_served
    (g := fun t => t.versionPage target.1.id _ _)
    (f := fun t => (t.versionsOf target.1.id).length) calm (fun _ => rfl) (fun _ => rfl) _

theorem listShares_served (calm : c.Calm) (token : ∀ s ∈ caller.token, isSendable s = true)
    (query : PageQuery) : (listShares caller id query).Served c storage P fun _ _ _ => True :=
  (documentFor_served calm token).bind fun target => page_served
    (g := fun t => t.sharePage target.1.id _ _)
    (f := fun t => (t.sharesOf target.1.id).length) calm (fun _ => rfl) (fun _ => rfl) _

theorem lookUp_row_served {what : String} {call : Call α} {g : Tables → Option α} (calm : c.Calm)
    (reads : ∀ now, Relational.answer now call = Relational.read [] fun t => orNotFound (g t)) :
    (Program.lookUp what call).Served c storage P fun _ => P :=
  (Program.Served.lookUp calm (answered_read reads (List.forall_mem_nil _) fine_orNotFound)).weaken
    (fun _ _ h => h) fun _ _ _ h => h.1

theorem getVersion_served (calm : c.Calm) (token : ∀ s ∈ caller.token, isSendable s = true)
    (number : Int) : (getVersion caller id number).Served c storage P fun _ _ _ => True :=
  (documentFor_served calm token).bind fun target => (lookUp_row_served
    (g := fun t => t.version? target.1.id number) calm fun _ => rfl).weaken (fun _ _ h => h)
    fun _ _ _ _ => trivial

def Shareable (c : Conditions) (document : Int) (user : Option Int) : Assertion := fun r k =>
  Ready c r k ∧ (r.tables.anyDocument? document).isSome = true ∧
    ∀ u ∈ user, u ∈ r.users ∧ r.tables.shareForUser? document u = none

theorem requireUser_served (calm : c.Calm) (d : Document) (ws : Workspace) (user : Option Int) :
    (requireUser d ws user).Served c storage
      (fun r k => Ready c r k ∧ (r.tables.anyDocument? d.id).isSome = true)
      fun _ => Shareable c d.id user := by
  cases user with
  | none => exact .done () fun _ _ h => ⟨h.1, h.2, nofun⟩
  | some user =>
    refine (Program.Served.obey _).bind fun checked => .given fun ok => ?_
    have positive : 0 < user := by
      rw [positiveId] at ok
      split at ok
      · assumption
      · cases ok
    refine (Program.Served.obey _).bind fun _ => .given fun _ => ?_
    refine (Program.Served.query calm (ensureUser_answered positive fun t =>
      (t.anyDocument? d.id).isSome = true)).bind fun _ => ?_
    refine (Program.Served.query_read (g := fun t => t.shareForUser? d.id user) calm
      (fun _ => rfl) (List.forall_mem_nil _)).bind fun held => ?_
    refine (Program.Served.refuseIf _ _).weaken (fun _ _ h => h) ?_
    rintro _ r k ⟨⟨⟨⟨ready, there⟩, known⟩, rfl⟩, unheld⟩
    refine ⟨ready, there, fun u same => ?_⟩
    cases same
    exact ⟨known, Option.isSome_eq_false_iff.mp unheld |> Option.isNone_iff_eq_none.mp⟩

/-- A drawn token is one that the database can keep. -/
structure Conditions.Keepable (c : Conditions) : Prop where
  sendable : ∀ n, isSendable (c.token n) = true
  short : ∀ n, (c.token n).length ≤ 64

theorem allocate_served (calm : c.Calm) (keepable : c.Keepable) {document : Int}
    {request : ShareRequest} (expiry : ∀ t ∈ request.expiresAt, InRange t) (attempt left : Nat) :
    (allocate document request attempt (left + 1)).Served c storage
      (Shareable c document request.user) fun _ _ _ => True := by
  refine Program.Served.freshToken.bind fun token => ?_
  refine Program.Served.ask_ok (R := fun _ _ _ => True) calm ?_ fun s => ?_
  · rintro r n _ ⟨drawn, rfl, ⟨sound, free⟩, there, user⟩
    have made : Relational.createShare ⟨document, request.user, c.token drawn,
        request.permission, request.expiresAt⟩ (c.clock n) r = _ :=
      Relational.createShare_eq (keepable.sendable drawn) (keepable.short drawn) expiry
        (fun u hu => (user u hu).2) there fun u hu => (user u hu).1
    simp only [Relational.answer, made, free, Bool.false_eq_true, if_false]
    exact ⟨_, rfl, trivial⟩
  · exact (Program.Served.note _ _).bind fun _ => .done s fun _ _ _ => trivial

theorem shareDocument_served (calm : c.Calm) (recent : c.Recent) (keepable : c.Keepable)
    (token : ∀ s ∈ caller.token, isSendable s = true) {request : ShareRequest} :
    (shareDocument caller id request).Served c storage (Ready c) fun _ _ _ => True := by
  refine (documentFor_served calm token).bind fun target => ?_
  refine Program.Served.clock.bind fun now => .given fun shown => ?_
  obtain ⟨n, rfl⟩ := shown
  refine (Program.Served.obey _).bind fun _ => .given fun future => ?_
  refine Program.Served.bind (Q := fun _ => Shareable c target.1.id request.user) ?_ fun _ =>
    allocate_served calm keepable (inRange_of_future (recent n) future) 1 2
  refine (requireUser_served calm target.1 target.2 request.user).weaken ?_ fun _ _ _ h => h
  rintro r k ⟨ready, found, _⟩
  refine ⟨ready, List.find?_isSome.mpr ⟨target.1, List.mem_of_find?_eq_some found, ?_⟩⟩
  exact beq_self_eq_true _

theorem shareOf_served (calm : c.Calm) (document share : Int) :
    (shareOf document share).Served c storage P fun _ _ _ => True := by
  refine Program.Served.bind (Q := fun _ r k => P r k) ?_ fun s => ?_
  · exact lookUp_row_served (g := fun t => t.share? share) calm fun _ => rfl
  · split
    · exact .done s fun _ _ _ => trivial
    · exact .fail _ (by intro cause same; cases same)

theorem updateShare_served (calm : c.Calm) (recent : c.Recent)
    (token : ∀ s ∈ caller.token, isSendable s = true) {share : Int} {request : ShareUpdate} :
    (updateShare caller id share request).Served c storage P fun _ _ _ => True := by
  refine (documentFor_served calm token).bind fun _ => ?_
  refine (shareOf_served calm id share).bind fun s => ?_
  refine Program.Served.clock.bind fun now => .given fun shown => ?_
  obtain ⟨n, rfl⟩ := shown
  refine (Program.Served.obey _).bind fun _ => .given fun future => ?_
  refine Program.Served.lookUp calm (answered_of_fine fun r m k _ e failed => ?_)
  have expiry : ∀ t ∈ request.expiresAt, ∀ at_ ∈ t, InRange at_ := by
    rintro t given at_ rfl
    exact inRange_of_future (recent n) future at_ (by simp [Option.mem_def.mp given])
  have changed : Relational.updateShare s.id ⟨request.permission, request.expiresAt⟩
      (c.clock m) r = _ := Relational.updateShare_eq expiry
  simp only [Relational.answer, changed] at failed
  split at failed <;> cases failed
  rfl

theorem revokeShare_served (calm : c.Calm) (recent : c.Recent)
    (token : ∀ s ∈ caller.token, isSendable s = true) {share : Int} :
    (revokeShare caller id share).Served c storage P fun _ _ _ => True := by
  refine (documentFor_served calm token).bind fun _ => ?_
  refine (shareOf_served calm id share).bind fun s => ?_
  refine Program.Served.clock.bind fun now => .given fun shown => ?_
  obtain ⟨n, rfl⟩ := shown
  refine Program.Served.bind (Q := fun _ _ _ => True) (.lookUp calm ?_) fun _ => ?_
  · refine answered_of_fine fun r m k _ e failed => ?_
    simp only [Relational.answer, Relational.deleteShare_eq (inRange_of_recent (recent n))]
      at failed
    split at failed <;> cases failed
    rfl
  · exact (Program.Served.note _ _).weaken (fun _ _ h => h) fun _ _ _ _ => trivial

theorem Program.Served.storing (uses : storage) (call : Storage.Call α) :
    (Program.storing call).Served c storage P fun _ => P := by
  refine .store fun r => ?_
  cases r with
  | ok a => exact .done a fun _ _ h => h
  | error e =>
    refine .fail _ fun cause same => ⟨uses, ?_⟩
    cases e <;> cases same <;> exact ⟨_, rfl⟩

theorem allow_served (calm : c.Calm) (token : ∀ s ∈ caller.token, isSendable s = true)
    (kind : Kind) : (allow caller id kind).Served c storage P fun _ => P :=
  (documentFor_served calm token).bind fun _ => .done () fun _ _ h => h.1

theorem describe_served (uses : storage) (key : String) :
    (describe key).Served c storage P fun _ => P :=
  (Program.Served.storing uses _).bind fun _ => (Program.Served.storing uses _).bind fun _ =>
    .done _ fun _ _ h => h

theorem uploadAsset_served (calm : c.Calm) (token : ∀ s ∈ caller.token, isSendable s = true)
    (uses : storage) (name : String) (content : Storage.Content) :
    (uploadAsset caller id name content).Served c storage P fun _ => P := by
  refine (allow_served calm token .write).bind fun _ => ?_
  refine (Program.Served.storing uses _).bind fun key => ?_
  refine (describe_served uses key).bind fun info => ?_
  refine (Program.Served.storing uses _).bind fun driver => ?_
  exact (Program.Served.note _ _).bind fun _ => .done info fun _ _ h => h

theorem deleteAsset_served (calm : c.Calm) (token : ∀ s ∈ caller.token, isSendable s = true)
    (uses : storage) (name : String) :
    (deleteAsset caller id name).Served c storage P fun _ => P := by
  refine (allow_served calm token .write).bind fun _ => .store fun r => ?_
  rcases r with e | u
  · cases e with
    | missing key => exact Program.Served.note _ _
    | _ =>
      refine .fail _ fun cause same => ⟨uses, ?_⟩
      cases same <;> exact ⟨_, rfl⟩
  · exact .done () fun _ _ h => h

end Operations

theorem Program.Served.as {p : Program α} (served : p.Served c storage P Q) (wrap : α → Answer) :
    (p.as wrap).Served c storage P fun _ _ _ => True :=
  served.bind fun a => .done (wrap a) fun _ _ _ => trivial

/-- What the database can be sent of a request: the texts that the store may be given and the token
that the caller shows. -/
def Operation.Plain (caller : Caller) (op : Operation) : Prop :=
  (∀ text ∈ op.texts, isSendable text = true) ∧ ∀ token ∈ caller.token, isSendable token = true

theorem serve_served (calm : c.Calm) (recent : c.Recent) (keepable : c.Keepable)
    {caller : Caller} (known : ∀ user ∈ caller.user, 0 < user) {op : Operation}
    (plain : op.Plain caller) :
    (serve caller op).Served c (op.usesStorage = true) (Ready c) fun _ _ _ => True := by
  obtain ⟨texts, token⟩ := plain
  cases op with
  | ping =>
    exact (Program.Served.query_read (g := fun _ => ()) calm (fun _ => rfl)
      (List.forall_mem_nil _)).as _
  | createWorkspace request =>
    exact (createWorkspace_served calm known (texts _ (List.mem_cons_self ..))
      fun text given => texts text (List.mem_cons_of_mem _ (Option.mem_toList.mpr given))).as _
  | getWorkspace id => exact (workspaceFor_served calm).as _
  | listWorkspaces query => exact (listWorkspaces_served calm query).as _
  | updateWorkspace id request =>
    exact (updateWorkspace_served calm
      (fun text given => texts text (List.mem_append_left _ (Option.mem_toList.mpr given)))
      fun text given => texts text (List.mem_append_right _ (Option.mem_toList.mpr given))).as _
  | deleteWorkspace id => exact (deleteWorkspace_served calm recent).as _
  | createDocument workspace request =>
    exact (createDocument_served calm (texts _ (List.mem_cons_self ..))
      fun text given => texts text (List.mem_cons_of_mem _ (Option.mem_toList.mpr given))).as _
  | getDocument id => exact (getDocument_served calm token).as _
  | listDocuments workspace query => exact (listDocuments_served calm query).as _
  | updateDocument id request =>
    exact (updateDocument_served calm token
      fun text given => texts text (Option.mem_toList.mpr given)).as _
  | deleteDocument id => exact (deleteDocument_served calm recent token).as _
  | createVersion document request =>
    exact (createVersion_served calm token known (texts _ (List.mem_cons_self ..))
      fun text given => texts text (List.mem_cons_of_mem _ (Option.mem_toList.mpr given))).as _
  | listVersions document query => exact (listVersions_served calm token query).as _
  | getVersion document number => exact (getVersion_served calm token number).as _
  | shareDocument document request =>
    exact (shareDocument_served calm recent keepable token).as _
  | listShares document query => exact (listShares_served calm token query).as _
  | updateShare document share request => exact (updateShare_served calm recent token).as _
  | revokeShare document share => exact (revokeShare_served calm recent token).as _
  | uploadAsset document name content =>
    exact (uploadAsset_served calm token rfl name content).as _
  | openAsset document name =>
    exact ((allow_served calm token .read).bind fun _ => Program.Served.storing rfl _).as _
  | assetUrl document name =>
    exact ((allow_served calm token .read).bind fun _ => describe_served rfl _).as _
  | deleteAsset document name => exact (deleteAsset_served calm token rfl name).as _

/-- What kept a request from being served, if something did. -/
def outage? : Except Failure α → Option Outage
  | .error (.unavailable cause) => some cause
  | _ => none

theorem outage?_some {r : Except Failure α} {cause : Outage} (h : outage? r = some cause) :
    r = .error (.unavailable cause) := by
  unfold outage? at h
  split at h <;> cases h
  rfl

/-- In every state of the database and whoever asks for whatever, nothing keeps an operation from
being served but a storage that it uses, so long as no text has a NUL character. -/
theorem serve_available {caller : Caller} {op : Operation} (stored : Stored w.store)
    (calm : c.Calm) (recent : c.Recent) (keepable : c.Keepable)
    (fresh : w.store.tables.tokenExists (c.token w.tokens) = false)
    (known : ∀ user ∈ caller.user, 0 < user) (plain : op.Plain caller) :
    let result := ((serve caller op).run inDatabase c w).2.1
    outage? result = none ∨
      op.usesStorage = true ∧ ∃ failure, outage? result = some (.storage failure) := by
  intro result
  have served := serve_served calm recent keepable known plain w _ _ ⟨stored.sound, fresh⟩
    (ends_run _ _)
  cases refused : outage? result with
  | none => exact .inl rfl
  | some cause =>
    obtain ⟨uses, failure, rfl⟩ := served.2 _ (outage?_some refused) cause rfl
    exact .inr ⟨uses, failure, rfl⟩

def brief : Conditions where
  clock := fun n => .ofSeconds n
  token := fun n => String.ofList (List.replicate (n % 60 + 1) 'a')
  staging := fun n => n
  outage := fun _ => none

theorem brief_keepable : brief.Keepable where
  sendable := fun n => by simp [brief, isSendable, List.mem_replicate]
  short := fun n => by
    simp only [brief, String.length_ofList, List.length_replicate]
    omega

theorem brief_recent : brief.Recent := fun n => by
  simp only [brief, Instant.le_iff, Instant.epoch, Instant.ofSeconds]
  omega

def shelf : World Relational :=
  let caller : Caller := ⟨some 1, none⟩
  let start : World Relational := World.start .empty (Storage.Backend.opened {} "root").1
  let first := ((serve caller (.createWorkspace ⟨"Team", none, none⟩)).run inDatabase brief start).1
  let second := ((serve caller (.createDocument 1 ⟨"Flow", .mermaid, none, none, some "a-->b"⟩)).run
    inDatabase brief first).1
  ((serve caller (.shareDocument 1 ⟨none, .edit, none⟩)).run inDatabase brief second).1

theorem shelf_stored : Stored shelf.store := .served (.served (.served .empty _ _ _) _ _ _) _ _ _

/-- On the shelf user 2, who shows the token, writes a version with a note. -/
theorem shelf_available :
    let caller : Caller := ⟨some 2, some "a"⟩
    let op : Operation := .createVersion 1 ⟨"a-->c", some "Rename b"⟩
    op.texts = ["a-->c", "Rename b"] ∧ op.Plain caller ∧
      (shelf.store.tables.shares.map (·.token) = ["a"]) ∧
      outage? ((serve caller op).run inDatabase brief shelf).2.1 = none := by
  intro caller op
  have fresh : shelf.store.tables.tokenExists (brief.token shelf.tokens) = false := by
    decide +kernel
  have plain : op.Plain caller := ⟨by decide +kernel, by decide +kernel⟩
  have available := serve_available shelf_stored (fun _ => rfl) brief_recent brief_keepable fresh
    (by simp [caller]) plain
  exact ⟨rfl, plain, by decide +kernel, available.resolve_right fun h => nomatch h.1⟩

/-- Where a name has a NUL character, the rules let it through and the database refuses it. -/
theorem nul_unavailable :
    Stored (Relational.empty) ∧
    outage? ((serve ⟨some 1, none⟩ (.createWorkspace ⟨"a\x00b", none, none⟩)).run inDatabase brief
      (World.start .empty (Storage.Backend.opened {} "root").1)).2.1 =
        some (.backend "invalid byte sequence for encoding \"UTF8\": 0x00") :=
  ⟨.empty, by decide +kernel⟩

end DiagramShare.Service
