import DiagramShare.Proofs.Numbering
import DiagramShare.Repository.Relational
import Mathlib.Data.List.Basic

/-! What the relational store does with values that it can keep. Where texts have no NUL character
and fit their columns, instants are in range and the rows referred to are there, a call takes its
number, asks one unique index and makes its change; no call is then refused by the database. -/
namespace DiagramShare.Repository.Relational

open DiagramShare.Time (Instant)

variable {r : Relational} {now : Instant}

theorem isSendable_of_subset {s t : String} (inside : t.toList ⊆ s.toList)
    (sendable : isSendable s = true) : isSendable t = true := by
  simp only [isSendable, Bool.not_eq_true', List.contains_eq_mem, decide_eq_false_iff_not] at *
  exact fun nul => sendable (inside nul)

theorem isSendable_of_plain {s : String} (plain : '\x00' ∉ s.toList) : isSendable s = true := by
  simpa [isSendable] using plain

theorem send_ok {texts : List String} (sendable : ∀ s ∈ texts, isSendable s = true) :
    send texts = .ok () := by
  rw [send, if_pos (List.all_eq_true.mpr sendable)]

theorem fit_ok {max : Nat} {s : String} (short : s.length ≤ max) : fit max s = .ok s := by
  rw [fit, if_pos short]

theorem fit?_ok {max : Nat} {s : Option String} (short : ∀ text ∈ s, text.length ≤ max) :
    fit? max s = .ok s := by
  cases s with
  | none => rfl
  | some text => rw [fit?, fit_ok (short text rfl)]; rfl

/-- An instant that the database can keep. -/
def InRange (t : Instant) : Prop := firstMicros ≤ micros t

theorem sendInstant_ok {t : Instant} (inRange : InRange t) : sendInstant t = .ok (keep t) := by
  rw [sendInstant, if_neg (Int.not_lt.mpr inRange)]

theorem sendInstant?_ok {t : Option Instant} (inRange : ∀ at_ ∈ t, InRange at_) :
    sendInstant? t = .ok (t.map keep) := by
  cases t with
  | none => rfl
  | some at_ => rw [sendInstant?, sendInstant_ok (inRange at_ rfl)]; rfl

def workspaceNumber (r : Relational) : Int := (r.sequences.workspaces + 1 : Nat)

def numberWorkspace (r : Relational) : Relational :=
  { r with sequences := { r.sequences with workspaces := r.sequences.workspaces + 1 } }

theorem createWorkspace_eq {new : NewWorkspace} (name : isSendable new.name = true)
    (description : ∀ text ∈ new.description, isSendable text = true)
    (short : new.name.length ≤ 255) (known : new.owner ∈ r.users) :
    createWorkspace new now r =
      if r.tables.nameExists new.owner new.name none then
        (r.numberWorkspace, .error (.duplicate Index.workspaceName.name))
      else
        let row := new.row r.workspaceNumber (keep now)
        ({ r.numberWorkspace with tables := r.tables.addWorkspace row }, .ok row) := by
  have sent : send (new.name :: new.description.toList) = .ok () :=
    send_ok (by simpa using ⟨name, description⟩)
  cases taken : r.tables.nameExists new.owner new.name none <;>
  simp [createWorkspace, sent, fit_ok short, bind, Except.bind, pure, Except.pure, require, taken,
    known, numberWorkspace, workspaceNumber]

theorem updateWorkspace_eq {id : Int} {changes : WorkspaceChanges}
    (name : ∀ text ∈ changes.name, isSendable text = true ∧ text.length ≤ 255)
    (description : ∀ text, changes.description = some (some text) → isSendable text = true) :
    updateWorkspace id changes now r =
      match r.tables.workspace? id with
      | none => (r, .error .notFound)
      | some w =>
        if r.tables.nameExists w.owner (changes.name.getD w.name) (some id) then
          (r, .error (.duplicate Index.workspaceName.name))
        else
          let row := w.change changes (keep now)
          ({ r with tables := r.tables.setWorkspace row }, .ok row) := by
  have sent : send (changes.name.toList ++ (changes.description.bind fun d => d).toList) =
      .ok () := by
    refine send_ok fun text listed => ?_
    rcases List.mem_append.mp listed with listed | listed
    · exact (name text (Option.mem_toList.mp listed)).1
    · cases given : changes.description with
      | none => simp [given] at listed
      | some d =>
        refine description text ?_
        simp only [given, Option.bind_some, Option.mem_toList] at listed
        rw [given, listed]
  have fits : fit? 255 changes.name = .ok changes.name := fit?_ok fun text h => (name text h).2
  cases found : r.tables.workspace? id with
  | none =>
    simp [updateWorkspace, sent, fits, bind, Except.bind, orNotFound, found]
  | some w =>
    cases taken : r.tables.nameExists w.owner (changes.name.getD w.name) (some id) <;>
    simp [updateWorkspace, sent, fits, bind, Except.bind, pure, Except.pure, orNotFound, found,
      require, Workspace.change, taken]

theorem deleteWorkspace_eq {id : Int} {time : Instant} (inRange : InRange time) :
    deleteWorkspace id time r =
      match eraseWorkspace r.tables id (keep time) with
      | none => (r, .error .notFound)
      | some (tables, summary) => ({ r with tables := tables }, .ok summary) := by
  cases found : eraseWorkspace r.tables id (keep time) <;>
  simp [deleteWorkspace, sendInstant_ok inRange, found]

/-- Where no two documents have one number, it is the same to find them again by their numbers. -/
theorem eraseWorkspace_eq {t : Tables} (distinct : (t.documents.map Document.id).Nodup) (id : Int)
    (time : Instant) : eraseWorkspace t id time = t.deleteWorkspace id time := by
  unfold eraseWorkspace Tables.deleteWorkspace
  cases t.workspace? id with
  | none => rfl
  | some w =>
    have picked : ∀ d ∈ t.documents,
        (((t.documentsOf id).map Document.id).contains d.id && d.isLive) =
          (d.workspace == id && d.isLive) := fun d stored =>
      contains_picked (fun d : Document => d.workspace == id) Document.isLive distinct stored
    have documents := updateWhere_congr (f := fun d : Document => d.tombstone time) picked
      fun _ _ _ => rfl
    have counted : t.documents.countP (fun d => ((t.documentsOf id).map Document.id).contains d.id &&
        d.isLive) = (t.documentsOf id).length := by
      rw [List.countP_congr fun d stored => by rw [picked d stored], List.countP_eq_length_filter]
      rfl
    exact congrArg₂ (fun ds n => some (Tables.mk _ ds t.versions _, CascadeSummary.mk n _))
      documents counted

def documentNumber (r : Relational) : Int := (r.sequences.documents + 1 : Nat)

def numberDocument (r : Relational) : Relational :=
  { r with sequences := { r.sequences with documents := r.sequences.documents + 1 } }

theorem createDocument_eq {new : NewDocument} (title : isSendable new.title = true)
    (slug : isSendable new.slug = true) (shortTitle : new.title.length ≤ 255)
    (shortSlug : new.slug.length ≤ 255)
    (inside : (r.tables.anyWorkspace? new.workspace).isSome = true) :
    createDocument new now r =
      if r.tables.slugExists new.workspace new.slug none then
        (r.numberDocument, .error (.duplicate Index.documentSlug.name))
      else
        let row := new.row r.documentNumber (keep now)
        ({ r.numberDocument with tables := r.tables.addDocument row }, .ok row) := by
  have sent : send [new.title, new.slug] = .ok () := send_ok (by simp [title, slug])
  cases taken : r.tables.slugExists new.workspace new.slug none <;>
  simp [createDocument, sent, fit_ok shortTitle, fit_ok shortSlug, bind, Except.bind, pure,
    Except.pure, require, taken, inside, numberDocument, documentNumber]

def versionNumber (r : Relational) : Int := (r.sequences.versions + 1 : Nat)

def numberVersion (r : Relational) : Relational :=
  { r with sequences := { r.sequences with versions := r.sequences.versions + 1 } }

def nextVersion (r : Relational) (new : NewVersion) (now : Instant) : Version :=
  new.row r.versionNumber (r.tables.lastNumber new.document + 1) (keep now)

theorem createNextVersion_eq {new : NewVersion} (content : isSendable new.content = true)
    (note : ∀ text ∈ new.note, isSendable text = true ∧ text.length ≤ 500)
    (known : ∀ author ∈ new.author, author ∈ r.users) :
    createNextVersion new now r =
      if (r.tables.document? new.document).isSome then
        ({ r.numberVersion with tables := r.tables.addVersion (r.nextVersion new now) },
          .ok (r.nextVersion new now))
      else (r, .error .notFound) := by
  have sent : send (new.content :: new.note.toList) = .ok () := by
    refine send_ok fun text listed => ?_
    rcases List.mem_cons.mp listed with rfl | listed
    · exact content
    · exact (note text (Option.mem_toList.mp listed)).1
  have fits : fit? 500 new.note = .ok new.note := fit?_ok fun text h => (note text h).2
  have known : new.author.all r.users.contains = true := by
    cases given : new.author with
    | none => rfl
    | some author => simpa using known author given
  cases found : r.tables.document? new.document <;>
  simp [createNextVersion, sent, fits, bind, Except.bind, pure, Except.pure, orNotFound, found,
    require, known, numberVersion, nextVersion, versionNumber]

def documentRow (r : Relational) (new : NewDocument) (now : Instant) : Document :=
  new.row r.documentNumber (keep now)

def withDocument (r : Relational) (new : NewDocument) (now : Instant) : Relational :=
  { r.numberDocument with tables := r.tables.addDocument (r.documentRow new now) }

theorem addDocument_found (t : Tables) {d : Document} (live : d.isLive = true) :
    ((t.addDocument d).document? d.id).isSome = true := by
  refine List.find?_isSome.mpr ⟨d, List.mem_append_right _ (List.mem_singleton_self d), ?_⟩
  simp [live]

theorem createDocumentWithVersion_eq {new : NewDocument} {first : Option FirstVersion}
    (title : isSendable new.title = true) (slug : isSendable new.slug = true)
    (shortTitle : new.title.length ≤ 255) (shortSlug : new.slug.length ≤ 255)
    (inside : (r.tables.anyWorkspace? new.workspace).isSome = true)
    (content : ∀ f ∈ first, isSendable f.content = true)
    (note : ∀ f ∈ first, ∀ text ∈ f.note, isSendable text = true ∧ text.length ≤ 500)
    (known : ∀ f ∈ first, ∀ author ∈ f.author, author ∈ r.users) :
    createDocumentWithVersion new first now r =
      if r.tables.slugExists new.workspace new.slug none then
        (r.numberDocument, .error (.duplicate Index.documentSlug.name))
      else
        let d := r.documentRow new now
        let stored := r.withDocument new now
        match first with
        | none => (stored, .ok (d, none))
        | some f =>
          let v := stored.nextVersion (f.of d.id) now
          ({ stored.numberVersion with tables := stored.tables.addVersion v },
            .ok (d, some v)) := by
  have made : createDocument new now r = _ :=
    createDocument_eq title slug shortTitle shortSlug inside
  rw [createDocumentWithVersion, made]
  cases taken : r.tables.slugExists new.workspace new.slug none with
  | true => rfl
  | false =>
    cases first with
    | none => rfl
    | some f =>
      have found := addDocument_found r.tables (d := r.documentRow new now) rfl
      have added : createNextVersion (f.of (r.documentRow new now).id) now
          (r.withDocument new now) = _ :=
        createNextVersion_eq (content f rfl) (note f rfl) (known f rfl)
      have found' : ((r.withDocument new now).tables.document?
          (f.of (r.documentRow new now).id).document).isSome = true := found
      rw [if_pos found'] at added
      simp only [withDocument, documentRow] at added
      simp only [Bool.false_eq_true, if_false, added]
      rfl

theorem updateDocument_eq {id : Int} {changes : DocumentChanges}
    (title : ∀ text ∈ changes.title, isSendable text = true ∧ text.length ≤ 255)
    (slug : ∀ text ∈ changes.slug, isSendable text = true ∧ text.length ≤ 255) :
    updateDocument id changes now r =
      match r.tables.document? id with
      | none => (r, .error .notFound)
      | some d =>
        if r.tables.slugExists d.workspace (changes.slug.getD d.slug) (some id) then
          (r, .error (.duplicate Index.documentSlug.name))
        else
          let row := d.change changes (keep now)
          ({ r with tables := r.tables.setDocument row }, .ok row) := by
  have sent : send (changes.title.toList ++ changes.slug.toList) = .ok () := by
    refine send_ok fun text listed => ?_
    rcases List.mem_append.mp listed with listed | listed
    · exact (title text (Option.mem_toList.mp listed)).1
    · exact (slug text (Option.mem_toList.mp listed)).1
  have fitsTitle : fit? 255 changes.title = .ok changes.title :=
    fit?_ok fun text h => (title text h).2
  have fitsSlug : fit? 255 changes.slug = .ok changes.slug := fit?_ok fun text h => (slug text h).2
  cases found : r.tables.document? id with
  | none =>
    simp [updateDocument, sent, fitsTitle, fitsSlug, bind, Except.bind, orNotFound, found]
  | some d =>
    cases taken : r.tables.slugExists d.workspace (changes.slug.getD d.slug) (some id) <;>
    simp [updateDocument, sent, fitsTitle, fitsSlug, bind, Except.bind, pure, Except.pure,
      orNotFound, found, require, Document.change, taken]

theorem deleteDocument_eq {id : Int} {time : Instant} (inRange : InRange time) :
    deleteDocument id time r =
      match r.tables.deleteDocument id (keep time) with
      | none => (r, .error .notFound)
      | some (tables, summary) => ({ r with tables := tables }, .ok summary) := by
  cases found : r.tables.deleteDocument id (keep time) <;>
  simp [deleteDocument, sendInstant_ok inRange, found]

def shareNumber (r : Relational) : Int := (r.sequences.shares + 1 : Nat)

def numberShare (r : Relational) : Relational :=
  { r with sequences := { r.sequences with shares := r.sequences.shares + 1 } }

def keptShare (new : NewShare) : NewShare := { new with expiresAt := new.expiresAt.map keep }

theorem createShare_eq {new : NewShare} (sendable : isSendable new.token = true)
    (short : new.token.length ≤ 64) (inRange : ∀ at_ ∈ new.expiresAt, InRange at_)
    (unheld : ∀ user ∈ new.user, r.tables.shareForUser? new.document user = none)
    (on : (r.tables.anyDocument? new.document).isSome = true)
    (known : ∀ user ∈ new.user, user ∈ r.users) :
    createShare new now r =
      if r.tables.tokenExists new.token then
        (r.numberShare, .error (.duplicate Index.shareToken.name))
      else
        let row := (keptShare new).row r.shareNumber (keep now)
        ({ r.numberShare with tables := r.tables.addShare row }, .ok row) := by
  have sent : send [new.token] = .ok () := send_ok (by simpa using sendable)
  have free : (new.user.all fun user =>
      (r.tables.shareForUser? new.document user).isNone) = true := by
    cases given : new.user with
    | none => rfl
    | some user => simpa using unheld user given
  have known : new.user.all r.users.contains = true := by
    cases given : new.user with
    | none => rfl
    | some user => simpa using known user given
  cases taken : r.tables.tokenExists new.token <;>
  simp [createShare, sent, sendInstant?_ok inRange, fit_ok short, bind, Except.bind, pure,
    Except.pure, require, taken, free, on, known, numberShare, shareNumber, keptShare]

theorem sendExpiry?_ok {expiry : Option (Option Instant)}
    (inRange : ∀ t ∈ expiry, ∀ at_ ∈ t, InRange at_) :
    sendExpiry? expiry = .ok (expiry.map fun t => t.map keep) := by
  cases expiry with
  | none => rfl
  | some t => rw [sendExpiry?, sendInstant?_ok (inRange t rfl)]; rfl

theorem updateShare_eq {id : Int} {changes : ShareChanges}
    (inRange : ∀ t ∈ changes.expiresAt, ∀ at_ ∈ t, InRange at_) :
    updateShare id changes now r =
      match r.tables.share? id with
      | none => (r, .error .notFound)
      | some s =>
        let row := s.change
          { changes with expiresAt := changes.expiresAt.map fun t => t.map keep } (keep now)
        ({ r with tables := r.tables.setShare row }, .ok row) := by
  cases found : r.tables.share? id <;>
  simp [updateShare, sendExpiry?_ok inRange, bind, Except.bind, pure, Except.pure, orNotFound,
    found]

theorem deleteShare_eq {id : Int} {time : Instant} (inRange : InRange time) :
    deleteShare id time r =
      match r.tables.deleteShare id (keep time) with
      | none => (r, .error .notFound)
      | some tables => ({ r with tables := tables }, .ok ()) := by
  cases found : r.tables.deleteShare id (keep time) <;>
  simp [deleteShare, sendInstant_ok inRange, found]

theorem read_eq {texts : List String} {f : Tables → Except Failure α}
    (sendable : ∀ s ∈ texts, isSendable s = true) : read texts f r = (r, f r.tables) := by
  rw [read, send_ok sendable]
  rfl

end DiagramShare.Repository.Relational
