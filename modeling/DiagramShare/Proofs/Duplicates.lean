import DiagramShare.Proofs.Pages

/-! Duplicates. A live row may have the name, the slug or the user that another asks for; then the store
refuses the other one. What a run of a program meets of this is put together from its parts: a part
that asks for no such row meets none, and what follows it may meet one. -/
namespace DiagramShare.Repository

open DiagramShare.Time (Instant)

namespace Tables

variable {t : Tables}

/-- A live workspace of an owner has a name; one workspace may be left aside. -/
def NameHeld (t : Tables) (owner : Int) (name : String) (except : Option Int) : Prop :=
  ∃ v ∈ t.workspaces, v.isLive = true ∧ v.owner = owner ∧ v.name = name ∧ some v.id ≠ except

def SlugHeld (t : Tables) (workspace : Int) (slug : String) (except : Option Int) : Prop :=
  ∃ d ∈ t.documents, d.isLive = true ∧ d.workspace = workspace ∧ d.slug = slug ∧ some d.id ≠ except

/-- A live share binds a document and a user. -/
def SlotHeld (t : Tables) (document user : Int) : Prop :=
  ∃ s ∈ t.shares, s.isLive = true ∧ s.document = document ∧ s.user = some user

theorem nameExists_iff {owner : Int} {name : String} {except : Option Int} :
    t.nameExists owner name except = true ↔ t.NameHeld owner name except := by
  simp only [nameExists, NameHeld, List.any_eq_true, Bool.and_eq_true, beq_iff_eq, bne_iff_ne,
    ne_eq, and_assoc]

theorem slugExists_iff {workspace : Int} {slug : String} {except : Option Int} :
    t.slugExists workspace slug except = true ↔ t.SlugHeld workspace slug except := by
  simp only [slugExists, SlugHeld, List.any_eq_true, Bool.and_eq_true, beq_iff_eq, bne_iff_ne,
    ne_eq, and_assoc]

theorem shareForUser_iff {document user : Int} :
    (t.shareForUser? document user).isSome = true ↔ t.SlotHeld document user := by
  simp only [shareForUser?, SlotHeld, List.find?_isSome, Bool.and_eq_true, beq_iff_eq, and_assoc]

end Tables

def Call.mayClash : Call β → Bool
  | .createWorkspace _ | .updateWorkspace _ _ | .createDocument _ | .createDocumentWithVersion _ _
  | .updateDocument _ _ | .createShare _ => true
  | _ => false

namespace Memory

variable {m : Memory} {now : Instant} {index : String}

theorem orNotFound_duplicate (row : Option α) : orNotFound row ≠ .error (.duplicate index) := by
  cases row <;> simp [orNotFound]

theorem createNextVersion_duplicate (new : NewVersion) :
    (createNextVersion new now m).2 ≠ .error (.duplicate index) := by
  unfold createNextVersion
  split
  · simp [connectionLost]
  · split
    · simp
    · split <;> simp [unknownUser]

theorem answer_duplicate {call : Call β} (safe : call.mayClash = false) :
    (answer now call m).2 ≠ .error (.duplicate index) := by
  cases call with
  | createWorkspace | updateWorkspace | createDocument | createDocumentWithVersion
  | updateDocument | createShare => cases safe
  | findWorkspace | findWorkspaceWithDeleted | findDocument | findDocumentWithDeleted
  | findVersion | findShare | findShareWithDeleted => exact orNotFound_duplicate _
  | createNextVersion new => exact createNextVersion_duplicate new
  | deleteWorkspace id time =>
    simp only [answer, deleteWorkspace]
    split <;> simp
  | deleteDocument id time =>
    simp only [answer, deleteDocument]
    split <;> simp
  | updateShare id changes =>
    simp only [answer, updateShare]
    split <;> simp
  | deleteShare id time =>
    simp only [answer, deleteShare]
    split <;> simp
  | _ => simp [answer, read, ensureUser]

theorem createWorkspace_duplicate {new : NewWorkspace}
    (free : m.tables.nameExists new.owner new.name none = false) :
    (createWorkspace new now m).2 ≠ .error (.duplicate index) := by
  simp only [createWorkspace, free]
  split <;> simp [unknownUser]

theorem updateWorkspace_duplicate {changes : WorkspaceChanges} {w : Workspace}
    (found : m.tables.workspace? w.id = some w)
    (free : ∀ name, changes.name = some name →
      m.tables.nameExists w.owner name (some w.id) = false) :
    (updateWorkspace w.id changes now m).2 ≠ .error (.duplicate index) := by
  have passed : (changes.name.any fun name => m.tables.nameExists w.owner name (some w.id)) =
      false := by
    cases given : changes.name with
    | none => rfl
    | some name => exact free name given
  simp [updateWorkspace, found, passed]

theorem createDocument_duplicate {new : NewDocument}
    (free : m.tables.slugExists new.workspace new.slug none = false) :
    (createDocument new now m).2 ≠ .error (.duplicate index) := by
  simp only [createDocument, free]
  split <;> simp [unknownWorkspace]

theorem createDocumentWithVersion_duplicate {new : NewDocument} {first : Option FirstVersion}
    (free : m.tables.slugExists new.workspace new.slug none = false) :
    (createDocumentWithVersion new first now m).2 ≠ .error (.duplicate index) := by
  have alone : (createDocument new now m).2 ≠ .error (.duplicate index) :=
    createDocument_duplicate free
  unfold createDocumentWithVersion
  rcases made : createDocument new now m with ⟨m', e | d⟩
  · rw [made] at alone
    simpa using alone
  · cases first with
    | none => simp
    | some first =>
      have version : (createNextVersion (first.of d.id) now m').2 ≠ .error (.duplicate index) :=
        createNextVersion_duplicate _
      dsimp only
      split
      · simp
      · rename_i failed
        rw [failed] at version
        simpa using version

theorem updateDocument_duplicate {changes : DocumentChanges} {d : Document}
    (found : m.tables.document? d.id = some d)
    (free : ∀ slug, changes.slug = some slug →
      m.tables.slugExists d.workspace slug (some d.id) = false) :
    (updateDocument d.id changes now m).2 ≠ .error (.duplicate index) := by
  have passed : (changes.slug.any fun slug => m.tables.slugExists d.workspace slug (some d.id)) =
      false := by
    cases given : changes.slug with
    | none => rfl
    | some slug => exact free slug given
  simp [updateDocument, found, passed]

theorem createShare_duplicate {new : NewShare}
    (free : ∀ user, new.user = some user → m.tables.shareForUser? new.document user = none)
    (refused : (createShare new now m).2 = .error (.duplicate index)) :
    index = Index.shareToken.name := by
  unfold createShare at refused
  split at refused
  · rename_i e accepted
    cases refused
    simp only [shareRefusal?, Option.orElse_eq_or, Option.or_eq_some_iff] at accepted
    rcases accepted with user | ⟨_, token⟩
    · obtain ⟨id, given, user⟩ := Option.bind_eq_some_iff.mp user
      simp [free id given, unknownUser] at user
    · split at token
      · cases token
        rfl
      · cases token
  · cases refused

end Memory

theorem Apart.freed {live : α → Bool} {label : α → κ} {number : α → Int} {rows : List α}
    (h : Apart live label number rows) {r : α} (dead : α) (stored : r ∈ rows) (lives : live r = true)
    (same : number dead = number r) (gone : live dead = false) :
    ∀ x ∈ updateWhere (fun x => number x == number dead) (fun _ => dead) rows,
      live x = true → label x ≠ label r := by
  refine forall_updateWhere (fun x _ _ living => ?_) fun x hx other living alike => ?_
  · rw [gone] at living
    cases living
  · have one := h x hx r stored living lives alike
    simp [one, same] at other

namespace Change

variable {m : Memory} {time : Instant}

theorem deleteWorkspace_frees (unique : m.Unique) {w : Workspace}
    (fits : (deleteWorkspace w time).Fits m) :
    ¬ ((deleteWorkspace w time).on m).tables.NameHeld w.owner w.name none := by
  rintro ⟨v, stored, live, owner, name, _⟩
  exact unique.names.freed (w.tombstone time) (List.mem_of_find?_eq_some fits)
    (also_of_find fits) rfl rfl v stored live (Prod.ext owner name)

theorem deleteDocument_frees (unique : m.Unique) {d : Document}
    (fits : (deleteDocument d time).Fits m) :
    ¬ ((deleteDocument d time).on m).tables.SlugHeld d.workspace d.slug none := by
  rintro ⟨e, stored, live, workspace, slug, _⟩
  exact unique.slugs.freed (d.tombstone time) (List.mem_of_find?_eq_some fits)
    (also_of_find fits) rfl rfl e stored live (Prod.ext workspace slug)

theorem deleteShare_frees (bound : m.Bound) {s : Share} (fits : (deleteShare s time).Fits m)
    {user : Int} (named : s.user = some user) :
    ¬ ((deleteShare s time).on m).tables.SlotHeld s.document user := by
  rintro ⟨r, stored, live, document, same⟩
  have living : s.isLive = true := also_of_find fits
  exact bound.users.freed (s.tombstone time) (List.mem_of_find?_eq_some fits)
    (by simp [living, named]) rfl rfl r stored (by simp [live, same])
    (Prod.ext document (same.trans named.symm))

end Change

end DiagramShare.Repository

namespace DiagramShare.Service

open DiagramShare.Access
open DiagramShare.Repository (Memory Tables Call)
open DiagramShare.Time (Instant)

variable {c : Conditions} {w w' : World Memory} {caller : Caller} {α β : Type}

/-- A program that makes no call which may be refused as a duplicate, and that does not end with a
conflict, whatever else the store answers. -/
inductive Program.Peaceful : Program α → Prop where
  | done (a : α) : Peaceful (.done a)
  | fail {e : Failure} (other : ∀ clash, e ≠ .conflict clash) : Peaceful (.fail e)
  | ask {β : Type} {call : Call β} {next : Except Repository.Failure β → Program α}
      (safe : call.mayClash = false)
      (rest : ∀ r, (∀ index, r ≠ .error (.duplicate index)) → Peaceful (next r)) :
      Peaceful (.ask call next)
  | store {β : Type} {call : Storage.Call β} {next : Except Storage.Failure β → Program α}
      (rest : ∀ r, Peaceful (next r)) : Peaceful (.store call next)
  | now {next : Instant → Program α} (rest : ∀ t, Peaceful (next t)) : Peaceful (.now next)
  | token {next : String → Program α} (rest : ∀ t, Peaceful (next t)) : Peaceful (.token next)
  | log {record : LogRecord} {next : Program α} (rest : Peaceful next) :
      Peaceful (.log record next)

theorem ofRepository_peaceful {e : Repository.Failure} (other : ∀ index, e ≠ .duplicate index)
    (clash : Clash) : Failure.ofRepository e ≠ .conflict clash := by
  cases e with
  | duplicate index => exact absurd rfl (other index)
  | _ => exact nofun

theorem ofLookup_peaceful {what : String} {e : Repository.Failure}
    (other : ∀ index, e ≠ .duplicate index) (clash : Clash) :
    Failure.ofLookup what e ≠ .conflict clash := by
  cases e with
  | notFound => exact nofun
  | _ => exact ofRepository_peaceful other clash

theorem ofStorage_peaceful (e : Storage.Failure) (clash : Clash) :
    Failure.ofStorage e ≠ .conflict clash := by
  cases e <;> exact nofun

namespace Program.Peaceful

theorem bind {p : Program α} {f : α → Program β} (first : p.Peaceful)
    (rest : ∀ a, (f a).Peaceful) : (p >>= f).Peaceful := by
  change (p.andThen f).Peaceful
  induction first with
  | done a => exact rest a
  | fail other => exact .fail other
  | ask safe _ ih => exact .ask safe ih
  | store _ ih => exact .store ih
  | now _ ih => exact .now ih
  | token _ ih => exact .token ih
  | log _ ih => exact .log ih

theorem query {call : Call α} (safe : call.mayClash = false) : (Program.query call).Peaceful := by
  refine .ask safe fun r other => ?_
  cases r with
  | ok a => exact .done a
  | error e => exact .fail (ofRepository_peaceful fun index same => other index (same ▸ rfl))

theorem lookUp {what : String} {call : Call α} (safe : call.mayClash = false) :
    (Program.lookUp what call).Peaceful := by
  refine .ask safe fun r other => ?_
  cases r with
  | ok a => exact .done a
  | error e => exact .fail (ofLookup_peaceful fun index same => other index (same ▸ rfl))

theorem find? {call : Call α} (safe : call.mayClash = false) :
    (Program.find? call).Peaceful := by
  refine .ask safe fun r other => ?_
  rcases r with e | a
  · cases e with
    | notFound => exact .done none
    | duplicate index => exact absurd rfl (other index)
    | _ => exact .fail nofun
  · exact .done _

theorem storing (call : Storage.Call α) : (Program.storing call).Peaceful := by
  refine .store fun r => ?_
  cases r with
  | ok a => exact .done a
  | error e => exact .fail (ofStorage_peaceful e)

theorem clock : Program.clock.Peaceful := .now .done

theorem note (level : Level) (text : String) : (Program.note level text).Peaceful :=
  .log (.done ())

theorem obey (checked : Except Invalid α) : (Program.obey checked).Peaceful := by
  cases checked with
  | ok a => exact .done a
  | error e => exact .fail nofun

end Program.Peaceful

theorem userOf_peaceful (caller : Caller) : (userOf caller).Peaceful := by
  unfold userOf
  cases caller.user with
  | none => exact .fail nofun
  | some user => exact .done user

theorem refusal_peaceful {decision : Decision} {what : String} {e : Failure}
    (refused : decision.refusal? caller what = some e) (clash : Clash) : e ≠ .conflict clash := by
  cases decision with
  | allowed => cases refused
  | notFound => cases refused; exact nofun
  | forbidden =>
    cases refused
    split <;> exact nofun

theorem letThrough_peaceful (caller : Caller) (kind : Kind) (what : String) (id : Int)
    (found : Option α) (resource : α → Resource) (grants : List Share) :
    (letThrough caller kind what id found resource grants).Peaceful := by
  refine Program.Peaceful.clock.bind fun now => ?_
  refine Program.Peaceful.bind ?_ fun _ => Program.Peaceful.bind ?_ fun _ => ?_
  · unfold noteDenial
    split
    · exact .done ()
    · exact .note _ _
  · unfold heed
    split
    · exact .done ()
    · rename_i refused
      exact .fail (refusal_peaceful refused)
  · cases found with
    | none => exact .fail nofun
    | some a => exact .done a

theorem workspaceFor_peaceful (caller : Caller) (id : Int) (kind : Kind) :
    (workspaceFor caller id kind).Peaceful := by
  refine Program.Peaceful.bind (.find? rfl) fun row => ?_
  exact letThrough_peaceful _ _ _ _ _ _ _

theorem documentFor_peaceful (caller : Caller) (id : Int) (kind : Kind) :
    (documentFor caller id kind).Peaceful := by
  refine Program.Peaceful.bind (.find? rfl) fun d => Program.Peaceful.bind ?_ fun w => ?_
  · cases d with
    | none => exact .done none
    | some d => exact .find? rfl
  refine Program.Peaceful.bind ?_ fun grants => letThrough_peaceful _ _ _ _ _ _ _
  rcases both d w with _ | ⟨d, w⟩
  · exact .done []
  · simp only [grantsFor]
    split
    · exact .done []
    · exact .query rfl

theorem allow_peaceful (caller : Caller) (document : Int) (kind : Kind) :
    (allow caller document kind).Peaceful :=
  (documentFor_peaceful _ _ _).bind fun _ => .done ()

theorem describe_peaceful (key : String) : (describe key).Peaceful := by
  refine (Program.Peaceful.storing _).bind fun size => ?_
  exact (Program.Peaceful.storing _).bind fun url => .done _

theorem uploadAsset_peaceful (caller : Caller) (document : Int) (name : String)
    (content : Storage.Content) : (uploadAsset caller document name content).Peaceful := by
  refine (allow_peaceful _ _ _).bind fun _ => ?_
  refine (Program.Peaceful.storing _).bind fun key => ?_
  refine (describe_peaceful _).bind fun info => ?_
  refine (Program.Peaceful.storing _).bind fun driver => ?_
  exact (Program.Peaceful.note _ _).bind fun _ => .done info

theorem deleteAsset_peaceful (caller : Caller) (document : Int) (name : String) :
    (deleteAsset caller document name).Peaceful := by
  refine (allow_peaceful _ _ _).bind fun _ => .store fun r => ?_
  split
  · exact .done ()
  · exact .note _ _
  · exact .fail (ofStorage_peaceful _)

theorem shareOf_peaceful (document share : Int) : (shareOf document share).Peaceful := by
  refine Program.Peaceful.bind (.lookUp rfl) fun s => ?_
  split
  · exact .done s
  · exact .fail nofun

theorem createVersion_peaceful (caller : Caller) (document : Int) (request : VersionRequest) :
    (createVersion caller document request).Peaceful := by
  refine (documentFor_peaceful _ _ _).bind fun target => ?_
  refine (Program.Peaceful.obey _).bind fun note => ?_
  refine Program.Peaceful.bind ?_ fun _ => .lookUp rfl
  unfold ensureAuthor
  split
  · exact .query rfl
  · exact .done ()

theorem deleteWorkspace_peaceful (caller : Caller) (id : Int) :
    (deleteWorkspace caller id).Peaceful := by
  refine (workspaceFor_peaceful _ _ _).bind fun _ => ?_
  refine Program.Peaceful.clock.bind fun now => ?_
  refine Program.Peaceful.bind (.lookUp rfl) fun summary => ?_
  exact (Program.Peaceful.note _ _).bind fun _ => .done summary

theorem deleteDocument_peaceful (caller : Caller) (id : Int) :
    (deleteDocument caller id).Peaceful := by
  refine (documentFor_peaceful _ _ _).bind fun _ => ?_
  refine Program.Peaceful.clock.bind fun now => ?_
  refine Program.Peaceful.bind (.lookUp rfl) fun summary => ?_
  exact (Program.Peaceful.note _ _).bind fun _ => .done summary

theorem updateShare_peaceful (caller : Caller) (document share : Int) (request : ShareUpdate) :
    (updateShare caller document share request).Peaceful := by
  refine (documentFor_peaceful _ _ _).bind fun _ => ?_
  refine (shareOf_peaceful _ _).bind fun s => ?_
  refine Program.Peaceful.clock.bind fun now => ?_
  exact (Program.Peaceful.obey _).bind fun _ => .lookUp rfl

theorem revokeShare_peaceful (caller : Caller) (document share : Int) :
    (revokeShare caller document share).Peaceful := by
  refine (documentFor_peaceful _ _ _).bind fun _ => ?_
  refine (shareOf_peaceful _ _).bind fun s => ?_
  refine Program.Peaceful.clock.bind fun now => ?_
  exact Program.Peaceful.bind (.lookUp rfl) fun _ => .note _ _

theorem page_peaceful {data : Call α} {total : Call β} {f : α → β → γ}
    (safe : data.mayClash = false) (safeTotal : total.mayClash = false) :
    (do
      let a ← Program.query data
      let b ← Program.query total
      return f a b : Program γ).Peaceful :=
  Program.Peaceful.bind (.query safe) fun _ => Program.Peaceful.bind (.query safeTotal) fun _ => .done _

def Operation.names : Operation → Bool
  | .createWorkspace _ | .updateWorkspace _ _ | .createDocument _ _ | .updateDocument _ _
  | .shareDocument _ _ => true
  | _ => false

theorem as_peaceful {p : Program α} (peaceful : p.Peaceful) (wrap : α → Answer) :
    (p.as wrap).Peaceful := peaceful.bind fun _ => .done _

theorem serve_peaceful {op : Operation} (silent : op.names = false) (caller : Caller) :
    (serve caller op).Peaceful := by
  cases op with
  | createWorkspace | updateWorkspace | createDocument | updateDocument | shareDocument =>
    cases silent
  | ping => exact as_peaceful (.query rfl) _
  | getWorkspace id => exact as_peaceful (workspaceFor_peaceful _ _ _) _
  | listWorkspaces query =>
    exact as_peaceful ((userOf_peaceful _).bind fun _ => page_peaceful rfl rfl) _
  | deleteWorkspace id => exact as_peaceful (deleteWorkspace_peaceful _ _) _
  | getDocument id =>
    refine as_peaceful ((documentFor_peaceful _ _ _).bind fun _ => ?_) _
    exact Program.Peaceful.bind (.query rfl) fun _ => .done _
  | listDocuments workspace query =>
    exact as_peaceful ((workspaceFor_peaceful _ _ _).bind fun _ => page_peaceful rfl rfl) _
  | deleteDocument id => exact as_peaceful (deleteDocument_peaceful _ _) _
  | createVersion document request => exact as_peaceful (createVersion_peaceful _ _ _) _
  | listVersions document query =>
    exact as_peaceful ((documentFor_peaceful _ _ _).bind fun _ => page_peaceful rfl rfl) _
  | getVersion document number =>
    exact as_peaceful ((documentFor_peaceful _ _ _).bind fun _ => .lookUp rfl) _
  | listShares document query =>
    exact as_peaceful ((documentFor_peaceful _ _ _).bind fun _ => page_peaceful rfl rfl) _
  | updateShare document share request => exact as_peaceful (updateShare_peaceful _ _ _ _) _
  | revokeShare document share => exact as_peaceful (revokeShare_peaceful _ _ _) _
  | uploadAsset document name content => exact as_peaceful (uploadAsset_peaceful _ _ _ _) _
  | openAsset document name =>
    exact as_peaceful ((allow_peaceful _ _ _).bind fun _ => .storing _) _
  | assetUrl document name =>
    exact as_peaceful ((allow_peaceful _ _ _).bind fun _ => describe_peaceful _) _
  | deleteAsset document name => exact as_peaceful (deleteAsset_peaceful _ _ _) _

theorem mem_failures_andThen {σ : Type} {s : Store σ} (p : Program α) (f : α → Program β)
    {w : World σ} {e : Repository.Failure} (met : e ∈ (p.andThen f).failures s c w) :
    e ∈ p.failures s c w ∨
      ∃ v a, p.Ends s c w v (.ok a) ∧ e ∈ (f a).failures s c v := by
  induction p generalizing w with
  | done a => exact .inr ⟨w, a, ⟨rfl, rfl⟩, met⟩
  | fail e => cases met
  | ask call next ih =>
    rcases mem_failures_ask.mp met with here | later
    · exact .inl (mem_failures_ask.mpr (.inl here))
    · rcases ih _ later with first | ⟨v, a, ends, rest⟩
      · exact .inl (mem_failures_ask.mpr (.inr first))
      · exact .inr ⟨v, a, ends, rest⟩
  | store call next ih => exact ih _ met
  | now next ih => exact ih _ met
  | token next ih => exact ih _ met
  | log record next ih => exact ih met

/-- In a run, the store refuses nothing as a duplicate but tokens, and the run ends with these
conflicts and no others. -/
structure Program.Clashes (c : Conditions) (p : Program α) (w : World Memory)
    (clashes : Clash → Prop) : Prop where
  duplicates : ∀ index, .duplicate index ∈ p.failures inMemory c w →
    index = Repository.Index.shareToken.name
  conflicts : ∀ clash, (p.run inMemory c w).2.1 = .error (.conflict clash) ↔ clashes clash

abbrev Program.Clear (c : Conditions) (p : Program α) (w : World Memory) : Prop :=
  p.Clashes c w fun _ => False

theorem ask_answer (calm : c.Calm) (call : Call β) (w : World Memory) :
    (w.ask inMemory c call).2.1 = (Memory.answer (c.clock w.readings) call w.store).2 := by
  rw [ask_calm calm]
  rfl

variable {F : Clash → Prop}

theorem clashes_ask {call : Call β} {next : Except Repository.Failure β → Program α}
    (refused : ∀ index, (w.ask inMemory c call).2.1 = .error (.duplicate index) →
      index = Repository.Index.shareToken.name)
    (rest : (next (w.ask inMemory c call).2.1).Clashes c (w.ask inMemory c call).1 F) :
    (Program.ask call next).Clashes c w F := by
  refine ⟨fun index met => ?_, rest.conflicts⟩
  rcases mem_failures_ask.mp met with here | later
  · exact refused index here
  · exact rest.duplicates index later

theorem Program.Peaceful.clear {p : Program α} (peaceful : p.Peaceful) (calm : c.Calm)
    (w : World Memory) : p.Clear c w := by
  induction peaceful generalizing w with
  | done a => exact ⟨nofun, fun clash => ⟨nofun, False.elim⟩⟩
  | fail other =>
    refine ⟨nofun, fun clash => ⟨fun same => ?_, False.elim⟩⟩
    exact other clash (Except.error.inj same)
  | @ask β call next safe _ ih =>
    have other : ∀ index, (w.ask inMemory c call).2.1 ≠ .error (.duplicate index) := by
      rw [ask_answer calm]
      exact fun index => Memory.answer_duplicate safe
    exact clashes_ask (fun index same => absurd same (other index)) (ih _ other _)
  | store _ ih => exact ⟨(ih _ _).duplicates, (ih _ _).conflicts⟩
  | now _ ih => exact ⟨(ih _ _).duplicates, (ih _ _).conflicts⟩
  | token _ ih => exact ⟨(ih _ _).duplicates, (ih _ _).conflicts⟩
  | log _ ih => exact ⟨(ih _).duplicates, (ih _).conflicts⟩

theorem Program.Clashes.bind {G : Clash → Prop} {p : Program α} {f : α → Program β}
    (first : p.Clashes c w G)
    (rest : ∀ v a, p.Ends inMemory c w v (.ok a) → (f a).Clashes c v F) :
    (p >>= f).Clashes c w fun clash => G clash ∨
      ∃ v a, p.Ends inMemory c w v (.ok a) ∧ F clash := by
  refine ⟨fun index met => ?_, fun clash => ⟨fun same => ?_, ?_⟩⟩
  · rcases mem_failures_andThen p f met with here | ⟨v, a, done, later⟩
    · exact first.duplicates index here
    · exact (rest v a done).duplicates index later
  · have ends : (p >>= f).Ends inMemory c w _ (.error (.conflict clash)) := ⟨rfl, same⟩
    rcases ends_bind.mp ends with ⟨e, failed, shown⟩ | ⟨v, a, done, later⟩
    · cases shown
      exact .inl ((first.conflicts clash).mp failed.2)
    · exact .inr ⟨v, a, done, ((rest v a done).conflicts clash).mp later.2⟩
  · rintro (held | ⟨v, a, done, held⟩)
    · have failed : p.Ends inMemory c w _ (.error (.conflict clash)) :=
        ⟨rfl, (first.conflicts clash).mpr held⟩
      exact (ends_bind.mpr (.inl ⟨_, failed, rfl⟩)).2
    · exact (ends_then done ⟨rfl, ((rest v a done).conflicts clash).mpr held⟩).2

theorem Program.Clashes.congr {G : Clash → Prop} {p : Program α} (h : p.Clashes c w F)
    (same : ∀ clash, F clash ↔ G clash) : p.Clashes c w G :=
  ⟨h.duplicates, fun clash => (h.conflicts clash).trans (same clash)⟩

theorem Program.Clear.then {p : Program α} {f : α → Program β} (first : p.Clear c w)
    (passed : ∀ clash, F clash → ∃ v a, p.Ends inMemory c w v (.ok a))
    (rest : ∀ v a, p.Ends inMemory c w v (.ok a) → (f a).Clashes c v F) :
    (p >>= f).Clashes c w F := by
  refine (Program.Clashes.bind first rest).congr fun clash => ⟨?_, fun held => .inr ?_⟩
  · rintro (none | ⟨_, _, _, held⟩)
    · exact none.elim
    · exact held
  · obtain ⟨v, a, done⟩ := passed clash held
    exact ⟨v, a, done, held⟩

theorem Program.Clashes.before {p : Program α} {f : α → Program β} (first : p.Clashes c w F)
    (rest : ∀ v a, p.Ends inMemory c w v (.ok a) → (f a).Clear c v) :
    (p >>= f).Clashes c w F := by
  refine (first.bind rest).congr fun clash => ⟨?_, .inl⟩
  rintro (held | ⟨_, _, _, none⟩)
  · exact held
  · exact none.elim

theorem Program.Clear.goes {p : Program α} {f : α → Program β} {a : α} {v : World Memory}
    (first : p.Clear c w) (done : p.Ends inMemory c w v (.ok a))
    (rest : (f a).Clashes c v F) : (p >>= f).Clashes c w F := by
  refine first.then (fun _ _ => ⟨v, a, done⟩) fun v' b done' => ?_
  obtain ⟨rfl, same⟩ := done
  obtain ⟨rfl, same'⟩ := done'
  cases same.symm.trans same'
  exact rest

theorem query_goes (calm : c.Calm) {call : Call β} {f : β → Program α} {g : Tables → β}
    (safe : call.mayClash = false)
    (reads : ∀ now, Memory.answer now call = Memory.read fun t => .ok (g t))
    (rest : (f (g w.store.tables)).Clashes c w.tick F) :
    (Program.query call >>= f).Clashes c w F :=
  ((Program.Peaceful.query safe).clear calm w).goes (query_calm calm reads w) rest

theorem query_clear (calm : c.Calm) {call : Call α}
    (safe : ∀ now index, (Memory.answer now call w.store).2 ≠ .error (.duplicate index)) :
    (Program.query call).Clear c w := by
  have other : ∀ index, (w.ask inMemory c call).2.1 ≠ .error (.duplicate index) := by
    rw [ask_answer calm]
    exact safe _
  refine clashes_ask (fun index same => absurd same (other index)) ?_
  cases result : (w.ask inMemory c call).2.1 with
  | ok a => exact (Program.Peaceful.done a).clear calm _
  | error e =>
    refine (Program.Peaceful.fail (ofRepository_peaceful fun index same => ?_)).clear calm _
    exact other index (same ▸ result)

theorem lookUp_clear (calm : c.Calm) {what : String} {call : Call α}
    (safe : ∀ now index, (Memory.answer now call w.store).2 ≠ .error (.duplicate index)) :
    (Program.lookUp what call).Clear c w := by
  have other : ∀ index, (w.ask inMemory c call).2.1 ≠ .error (.duplicate index) := by
    rw [ask_answer calm]
    exact safe _
  refine clashes_ask (fun index same => absurd same (other index)) ?_
  cases result : (w.ask inMemory c call).2.1 with
  | ok a => exact (Program.Peaceful.done a).clear calm _
  | error e =>
    refine (Program.Peaceful.fail (ofLookup_peaceful fun index same => ?_)).clear calm _
    exact other index (same ▸ result)

theorem refuseIf_clashes {found : Bool} {clash : Clash} :
    (Program.refuseIf found clash).Clashes c w fun k => found = true ∧ k = clash := by
  cases found with
  | true =>
    constructor
    · exact fun index met => by cases met
    · exact fun k => by simp [Program.refuseIf, Program.run, eq_comm]
  | false =>
    constructor
    · exact fun index met => by cases met
    · exact fun k => by simp [Program.refuseIf, Program.run]

theorem ensureUser_goes (calm : c.Calm) {user : Int} {f : Unit → Program α}
    (rest : ∀ v, v.store.tables = w.store.tables → (f ()).Clashes c v F) :
    (Program.query (.ensureUser user) >>= f).Clashes c w F := by
  have answered : (w.ask inMemory c (.ensureUser user)).2.1 = .ok () := by
    rw [ask_answer calm]
    rfl
  have done := ends_query_ok.mpr (⟨rfl, answered⟩ : w.Answers inMemory c (.ensureUser user) _ _)
  have kept : w.store.Kept 0 _ := Program.Only.kept (.query rfl) done
  exact ((Program.Peaceful.query rfl).clear calm w).goes done (rest _ kept.tables)

theorem obey_goes (calm : c.Calm) {checked : Except Invalid α} {f : α → Program β}
    (passed : ∀ clash, F clash → ∃ a, checked = .ok a)
    (rest : ∀ a, checked = .ok a → (f a).Clashes c w F) :
    (Program.obey checked >>= f).Clashes c w F := by
  refine ((Program.Peaceful.obey _).clear calm w).then (fun clash held => ?_) fun v a done => ?_
  · obtain ⟨a, accepted⟩ := passed clash held
    exact ⟨w, a, ends_obey_ok.mpr ⟨rfl, accepted⟩⟩
  · obtain ⟨rfl, accepted⟩ := ends_obey_ok.mp done
    exact rest a accepted

theorem note_clear (calm : c.Calm) {level : Level} {text : String} (a : α) (w : World Memory) :
    (do
      Program.note level text
      return a : Program α).Clear c w :=
  ((Program.Peaceful.note level text).bind fun _ => .done a).clear calm w

theorem ends_unique {σ : Type} {s : Store σ} {p : Program α} {w v v' : World σ}
    {r r' : Except Failure α} (h : p.Ends s c w v r) (h' : p.Ends s c w v' r') :
    v = v' ∧ r = r' :=
  ⟨h.1.symm.trans h'.1, h.2.symm.trans h'.2⟩

end DiagramShare.Service
