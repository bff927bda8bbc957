import DiagramShare.Proofs.InStep

/-! The store in memory stands in for the database. Two services that are asked for the same things
in the same order, one over each store, answer alike at every step: with results that say the same
under paired numbers, or with refusals of one kind. -/
namespace DiagramShare.Service

open DiagramShare.Access
open DiagramShare.Repository (Memory Relational Tables Call Coupled Same)
open DiagramShare.Repository.Relational (isSendable keep)
open DiagramShare.Time (Instant)
open List (Forall₂)

variable {c c' : Conditions} {π : Pairing} {K : Memory → Prop}

structure Listing.Alike (R : α → α → Prop) (a b : Listing α) : Prop where
  data : Forall₂ R a.data b.data
  total : b.total = a.total
  page : b.page = a.page

structure DocumentDetail.Alike (π : Pairing) (a b : DocumentDetail) : Prop where
  document : a.document.Alike π b.document
  version : Option.Rel (Version.Alike π) a.latestVersion b.latestVersion

def paired (π : Pairing) (a b : DocumentDetail) : Pairing :=
  π.addDetail (a.document, a.latestVersion) (b.document, b.latestVersion)

namespace Parallel

def Grown (c c' : Conditions) (F : α → β → Prop) (grown : α → β → Pairing) (a : α) (b : β) :
    Bond Memory Relational :=
  fun w w' => F a b ∧ InStep c c' (grown a b) w w'

theorem obey {checked : Except Invalid α} :
    Parallel c c' π (Beside c c' π K) (Program.obey checked) (Program.obey checked)
      fun a b w w' => (a = b ∧ checked = .ok a) ∧ Beside c c' π K w w' :=
  Duo.Agrees.obey fun _ _ _ holds => ⟨rfl, holds.1⟩

theorem refuseIf {found found' : Bool} {clash clash' : Clash} (same : found = found') :
    Parallel c c' π (Beside c c' π K) (Program.refuseIf found clash)
      (Program.refuseIf found' clash') fun _ _ w w' => found = false ∧ Beside c c' π K w w' :=
  Duo.Agrees.refuseIf same fun _ _ holds => ⟨rfl, holds.1⟩

theorem clock (cmp : Comparable c c') :
    Parallel c c' π (Beside c c' π K) Program.clock Program.clock fun now now' w w' =>
      (∃ n, now = c.clock n ∧ now' = c'.clock n) ∧ Beside c c' π K w w' := by
  refine Duo.Agrees.clock.after ?_
  rintro now now' v v' ⟨w, w', ⟨step, holds⟩, rfl, rfl, rfl, rfl⟩
  exact ⟨⟨w.readings, rfl, by rw [step.readings]⟩, step.tick cmp, holds⟩

theorem query_same (cmp : Comparable c c') {call call' : Call α} {texts : List String}
    {f g : Tables → α} (reads : ∀ now, Memory.answer now call = Memory.read fun t => .ok (f t))
    (reads' : ∀ now, Relational.answer now call' = Relational.read texts fun t => .ok (g t))
    (sendable : ∀ s ∈ texts, isSendable s = true)
    (same : ∀ m r, Rows c c' π m r → g r.tables = f m.tables) :
    Parallel c c' π (Beside c c' π K) (Program.query call) (Program.query call')
      fun a b w w' => a = b ∧ Beside c c' π (fun m => f m.tables = a ∧ K m) w w' :=
  query_read cmp reads reads' sendable fun m r rows _ => (same m r rows).symm

section Calls

variable {call : Call α} {call' : Call β} {grown : α → β → Pairing} {F : α → β → Prop}
variable (cmp : Comparable c c') (within : ∀ a b, π.Within (grown a b))
variable (same : ∀ n m r, Coupled π (Agreed c c') (c.clock n) (keep (c'.clock n)) m r → K m →
  Same (c.clock n) (c'.clock n) call call' m r
    (fun a b m' r' => F a b ∧
      Coupled (grown a b) (Agreed c c') (c.clock n) (keep (c'.clock n)) m' r')
    (Coupled π (Agreed c c') (c.clock n) (keep (c'.clock n))))

include cmp within same

theorem changed : (sides c c').Answers (Beside c c' π K) call call' (Grown c c' F grown)
    (Duo.Agrees.Alike (InStep c c' π)) := by
  have answered := Parallel.answers (F := fun a b _ => F a b) (J := fun _ => True) cmp grown within
    fun n m r coupled holds => (same n m r coupled holds).mono (fun _ _ h => h)
      fun _ _ h => ⟨h.1, trivial, h.2⟩
  exact fun w w' holds => (answered w w' holds).mono (fun _ _ h => ⟨h.2, h.1⟩)
    fun _ _ h => ⟨h.1, h.2.1⟩

theorem query : Parallel c c' π (Beside c c' π K) (Program.query call) (Program.query call')
    (Grown c c' F grown) :=
  Duo.Agrees.query (D := sides c c') cmp.calm cmp.calm' (changed cmp within same)
    fun _ _ _ step => ⟨rfl, step⟩

theorem lookUp (what : String) : Parallel c c' π (Beside c c' π K) (Program.lookUp what call)
    (Program.lookUp what call') (Grown c c' F grown) :=
  Duo.Agrees.lookUp (D := sides c c') what cmp.calm cmp.calm' (changed cmp within same)
    fun _ _ _ step => ⟨rfl, step⟩

end Calls

theorem page (cmp : Comparable c c') {call call' : Call (List α)} {count count' : Call Nat}
    {f g : Tables → List α} {m n : Tables → Nat} {R : α → α → Prop}
    (reads : ∀ now, Memory.answer now call = Memory.read fun t => .ok (f t))
    (reads' : ∀ now, Relational.answer now call' = Relational.read [] fun t => .ok (g t))
    (counts : ∀ now, Memory.answer now count = Memory.read fun t => .ok (m t))
    (counts' : ∀ now, Relational.answer now count' = Relational.read [] fun t => .ok (n t))
    (alike : ∀ m r, Rows c c' π m r → Forall₂ R (f m.tables) (g r.tables))
    (counted : ∀ a b, Rows c c' π a b → n b.tables = m a.tables) (page : Page) :
    Parallel c c' π (Beside c c' π K)
      (do
        let data ← Program.query call
        let total ← Program.query count
        return (⟨data, total, page⟩ : Listing α))
      (do
        let data ← Program.query call'
        let total ← Program.query count'
        return (⟨data, total, page⟩ : Listing α))
      (Grown c c' (Listing.Alike R) fun _ _ => π) := by
  refine (query_read cmp reads reads' (List.forall_mem_nil _)
    fun m r rows _ => alike m r rows).bind fun data data' => .given fun rows => ?_
  refine (query_same cmp counts counts' (List.forall_mem_nil _) counted).bind
    fun total total' => .given fun same => ?_
  subst same
  exact .done fun _ _ holds => ⟨⟨rows, rfl, rfl⟩, holds.1⟩

end Parallel

section Operations

variable {caller : Caller} {id id' : Int}

theorem userOf_parallel : Parallel c c' π (Beside c c' π K) (userOf caller) (userOf caller)
    fun a b w w' => (a = b ∧ caller.user = some a) ∧ Beside c c' π K w w' := by
  unfold userOf
  cases caller.user with
  | none => exact .fail fun _ _ holds => ⟨rfl, holds.1⟩
  | some owner => exact .done fun _ _ holds => ⟨⟨rfl, rfl⟩, holds⟩

theorem ensureUser_parallel (cmp : Comparable c c') {user : Int} (positive : 0 < user)
    (T : Tables → Prop) :
    Parallel c c' π (Beside c c' π fun m => T m.tables) (Program.query (.ensureUser user))
      (Program.query (.ensureUser user))
      fun _ _ => Beside c c' π fun m => user ∈ m.users ∧ T m.tables := by
  refine Duo.Agrees.query (D := sides c c') cmp.calm cmp.calm' (Parallel.answers
    (F := fun _ _ m => user ∈ m.users ∧ T m.tables) (J := fun _ => True) cmp (fun _ _ => π)
    (fun _ _ => Pairing.Within.refl π) ?_) fun _ _ _ h => ⟨rfl, h.1⟩
  intro n m r coupled holds
  obtain ⟨answered, coupled⟩ := coupled.ensureUser positive
  have here : Memory.answer (c.clock n) (.ensureUser user) m =
      ((Memory.ensureUser user m).1, .ok ()) := rfl
  have there : Relational.answer (c'.clock n) (.ensureUser user) r =
      ((Relational.ensureUser user r).1, .ok ()) := Prod.ext rfl answered
  refine .of_eq here there (.ok ⟨?_, coupled⟩)
  unfold Memory.ensureUser
  split
  · rename_i known
    exact ⟨List.contains_iff_mem.mp known, holds⟩
  · exact ⟨List.mem_append_right _ (List.mem_singleton_self user), holds⟩

theorem createWorkspace_parallel (cmp : Comparable c c') (known : ∀ user ∈ caller.user, 0 < user)
    {request : WorkspaceRequest} (name : isSendable request.name = true)
    (description : ∀ text ∈ request.description, isSendable text = true) :
    Parallel c c' π (Beside c c' π fun _ => True) (createWorkspace caller request)
      (createWorkspace caller request)
      (Parallel.Grown c c' (fun a b => a.Alike (π.addWorkspace a b) b) π.addWorkspace) := by
  refine userOf_parallel.bind fun owner _ => .given ?_
  rintro ⟨rfl, signed⟩
  refine Parallel.obey.bind fun title _ => .given ?_
  rintro ⟨rfl, named⟩
  refine Parallel.obey.bind fun text _ => .given ?_
  rintro ⟨rfl, described⟩
  obtain ⟨inside, short⟩ := requiredText_ok named
  have plain := Relational.isSendable_of_subset inside name
  have plainText := optionalText_sendable described description
  refine (ensureUser_parallel cmp (known owner signed) fun _ => True).bind fun _ _ => ?_
  refine (Parallel.query_same (f := fun t => t.nameExists owner title none)
    (g := fun t => t.nameExists owner title none) cmp (fun _ => rfl) (fun _ => rfl)
    (by simpa using plain) ?_).bind fun taken _ => .given ?_
  · rintro m r ⟨_, _, coupled⟩
    exact coupled.tables.nameExists owner title .none
  rintro rfl
  refine (Parallel.refuseIf rfl).bind fun _ _ => .given fun _ => ?_
  refine Duo.Agrees.bind (Q := Parallel.Grown c c' (fun a b => a.Alike (π.addWorkspace a b) b)
    π.addWorkspace) (Parallel.query cmp π.within_addWorkspace ?_) fun a b => ?_
  · intro n m r coupled holds
    exact coupled.createWorkspace plain (fun t ht => (plainText t ht).1) short holds.2.1
  · exact Duo.Agrees.note.bind fun _ _ => .done fun _ _ h => h

theorem listWorkspaces_parallel (cmp : Comparable c c') (query : PageQuery) :
    Parallel c c' π (Beside c c' π K) (listWorkspaces caller query) (listWorkspaces caller query)
      (Parallel.Grown c c' (Listing.Alike (Workspace.Alike π)) fun _ _ => π) := by
  refine userOf_parallel.bind fun owner _ => .given ?_
  rintro ⟨rfl, _⟩
  refine Parallel.page (f := fun t => t.ownedPage owner _ _) (g := fun t => t.ownedPage owner _ _)
    (m := fun t => (t.owned owner).length) (n := fun t => (t.owned owner).length) cmp
    (fun _ => rfl) (fun _ => rfl) (fun _ => rfl) (fun _ => rfl) ?_ ?_ _
  · rintro m r ⟨_, _, coupled⟩
    exact coupled.tables.ownedPage coupled.dated coupled.dated' owner
  · rintro m r ⟨_, _, coupled⟩
    exact (coupled.tables.owned owner).length_eq.symm

theorem freeName_parallel (cmp : Comparable c c') (stand : Stand π.workspaces id id')
    {ws ws' : Workspace} (alike : ws.Alike π ws') {name : Option String}
    (plain : ∀ t ∈ name, isSendable t = true) :
    Parallel c c' π (Beside c c' π K) (freeName ws id name) (freeName ws' id' name)
      fun _ _ => Beside c c' π K := by
  cases name with
  | none => exact .done fun _ _ h => h
  | some name =>
    simp only [freeName, alike.name]
    split
    · exact .done fun _ _ h => h
    · refine (Parallel.query_same (f := fun t => t.nameExists ws.owner name (some id))
        (g := fun t => t.nameExists ws'.owner name (some id')) cmp (fun _ => rfl) (fun _ => rfl)
        (by simpa using plain name rfl) ?_).bind fun taken _ => .given ?_
      · rintro m r ⟨_, _, coupled⟩
        exact alike.owner.symm ▸ coupled.tables.nameExists ws.owner name (.some stand)
      · rintro rfl
        exact (Parallel.refuseIf rfl).after fun _ _ _ _ done => ⟨done.2.1, done.2.2.2⟩

theorem updateWorkspace_parallel (cmp : Comparable c c') (stand : Stand π.workspaces id id')
    {request : WorkspaceUpdate} (name : ∀ text ∈ request.name, isSendable text = true)
    (description : ∀ text ∈ request.description, isSendable text = true) :
    Parallel c c' π (Beside c c' π K) (updateWorkspace caller id request)
      (updateWorkspace caller id' request)
      (Parallel.Grown c c' (Workspace.Alike π) fun _ _ => π) := by
  refine (workspaceFor_parallel .manage cmp stand).bind fun ws ws' => .given fun found => ?_
  refine Parallel.obey.bind fun title _ => .given ?_
  rintro ⟨rfl, named⟩
  refine Parallel.obey.bind fun text _ => .given ?_
  rintro ⟨rfl, described⟩
  have plain := newName_sendable named name
  have plainText := newDescription_sendable described description
  refine (freeName_parallel cmp stand found.1 fun t ht => (plain t ht).1).bind fun _ _ => ?_
  exact Parallel.lookUp cmp (fun _ _ => Pairing.Within.refl π)
    (fun n m r coupled _ => coupled.updateWorkspace stand plain plainText) _

theorem deleteWorkspace_parallel (cmp : Comparable c c') (stand : Stand π.workspaces id id') :
    Parallel c c' π (Beside c c' π K) (deleteWorkspace caller id) (deleteWorkspace caller id')
      (Parallel.Grown c c' (fun a b => b = a) fun _ _ => π) := by
  refine (workspaceFor_parallel .manage cmp stand).bind fun ws ws' => .given fun _ => ?_
  refine (Parallel.clock cmp).bind fun now now' => .given ?_
  rintro ⟨n, rfl, rfl⟩
  refine Duo.Agrees.bind (Q := Parallel.Grown c c' (fun a b => b = a) fun _ _ => π)
    (Parallel.lookUp cmp (fun _ _ => Pairing.Within.refl π) ?_ _) fun _ _ => ?_
  · intro k m r coupled _
    exact coupled.deleteWorkspace stand _ _ (cmp.held n)
  · exact Duo.Agrees.note.bind fun _ _ => .done fun _ _ h => h

theorem freeSlug_parallel (cmp : Comparable c c') {workspace inside : Int}
    (stand : Stand π.workspaces workspace inside) {slug : String} {except except' : Option Int}
    (apart : Option.Rel (Stand π.documents) except except') (plain : isSendable slug = true) :
    Parallel c c' π (Beside c c' π K) (freeSlug workspace slug except)
      (freeSlug inside slug except') fun _ _ => Beside c c' π K := by
  refine (Parallel.query_same (f := fun t => t.slugExists workspace slug except)
    (g := fun t => t.slugExists inside slug except') cmp (fun _ => rfl) (fun _ => rfl)
    (by simpa using plain) ?_).bind fun taken _ => .given ?_
  · rintro m r ⟨_, _, coupled⟩
    exact coupled.tables.slugExists stand slug apart
  · rintro rfl
    exact (Parallel.refuseIf rfl).after fun _ _ _ _ done => ⟨done.2.1, done.2.2.2⟩

theorem createDocument_parallel (cmp : Comparable c c') (fair : π.OneToOne)
    (stand : Stand π.workspaces id id') {request : DocumentRequest}
    (title : isSendable request.title = true)
    (content : ∀ text ∈ request.content, isSendable text = true) :
    Parallel c c' π (Beside c c' π K) (createDocument caller id request)
      (createDocument caller id' request)
      (Parallel.Grown c c' (fun a b => a.Alike (paired π a b) b) (paired π)) := by
  refine (workspaceFor_parallel .write cmp stand).bind fun ws ws' => .given ?_
  rintro ⟨alike, own⟩
  have inside := fair.workspaces _ alike.paired
  refine Parallel.obey.bind fun name _ => .given ?_
  rintro ⟨rfl, titled⟩
  refine Parallel.obey.bind fun slug _ => .given ?_
  rintro ⟨rfl, slugged⟩
  obtain ⟨among, short⟩ := requiredText_ok titled
  obtain ⟨plain, slugShort⟩ := slugFor_ok slugged short
  have plainSlug := Relational.isSendable_of_plain plain
  refine (freeSlug_parallel cmp inside .none plainSlug).bind fun _ _ => ?_
  let first := request.content.map fun content =>
    ({ content := content, author := caller.user, note := some firstNote } : FirstVersion)
  let new : NewDocument := ⟨ws.id, name, request.kind, slug, request.isPublic.getD false⟩
  refine Duo.Agrees.bind (Q := Parallel.Grown c c' (fun a b => a.1.Alike (π.addDetail a b) b.1 ∧
    Option.Rel (Version.Alike (π.addDetail a b)) a.2 b.2) π.addDetail)
    (Parallel.query cmp π.within_addDetail ?_) fun a b => ?_
  · rintro n m r coupled ⟨found, _⟩
    have there := List.mem_of_find?_eq_some found
    refine (coupled.createDocument new first
      (List.find?_isSome.mpr ⟨ws, there, beq_self_eq_true _⟩) alike.paired
      (Relational.isSendable_of_subset among title) plainSlug short slugShort ?_ ?_ ?_).mono
      (fun _ _ h => ⟨⟨h.1, h.2.1⟩, h.2.2⟩) fun _ _ h => h
    · intro f hf
      obtain ⟨text, given, rfl⟩ := Option.map_eq_some_iff.mp hf
      exact content text given
    · intro f hf text noted
      obtain ⟨_, _, rfl⟩ := Option.map_eq_some_iff.mp hf
      cases noted
      exact ⟨by decide, by decide⟩
    · intro f hf author wrote
      obtain ⟨_, _, rfl⟩ := Option.map_eq_some_iff.mp hf
      cases (own (by decide)).symm.trans wrote
      exact coupled.owner_known there
  · exact Duo.Agrees.note.bind fun _ _ => .done fun _ _ h => ⟨⟨h.1.1, h.1.2⟩, h.2⟩

theorem listDocuments_parallel (cmp : Comparable c c') (fair : π.OneToOne)
    (stand : Stand π.workspaces id id') (query : PageQuery) :
    Parallel c c' π (Beside c c' π K) (listDocuments caller id query)
      (listDocuments caller id' query)
      (Parallel.Grown c c' (Listing.Alike (Document.Alike π)) fun _ _ => π) := by
  refine (workspaceFor_parallel .read cmp stand).bind fun ws ws' => .given fun found => ?_
  have inside := fair.workspaces _ found.1.paired
  refine Parallel.page (f := fun t => t.documentPage ws.id _ _)
    (g := fun t => t.documentPage ws'.id _ _) (m := fun t => (t.documentsOf ws.id).length)
    (n := fun t => (t.documentsOf ws'.id).length) cmp (fun _ => rfl) (fun _ => rfl) (fun _ => rfl)
    (fun _ => rfl) ?_ ?_ _
  · rintro m r ⟨_, _, coupled⟩
    exact coupled.tables.documentPage coupled.dated coupled.dated' inside
  · rintro m r ⟨_, _, coupled⟩
    exact (coupled.tables.documentsOf inside).length_eq.symm

section Documents

variable (cmp : Comparable c c') (fair : π.OneToOne)
variable (token : ∀ s ∈ caller.token, isSendable s = true) (stand : Stand π.documents id id')

include cmp fair token stand

theorem getDocument_parallel :
    Parallel c c' π (Beside c c' π K) (getDocument caller id) (getDocument caller id')
      (Parallel.Grown c c' (DocumentDetail.Alike π) fun _ _ => π) := by
  refine (documentFor_parallel .read cmp fair token stand).bind fun a b => .given fun alike => ?_
  refine (Parallel.query_read (F := Option.Rel (Version.Alike π))
    (f := fun t => t.latestVersion? a.1.id) (g := fun t => t.latestVersion? b.1.id) cmp
    (fun _ => rfl) (fun _ => rfl) (List.forall_mem_nil _) ?_).bind fun v v' => .given fun same => ?_
  · rintro m r ⟨_, _, coupled⟩ _
    exact coupled.tables.latestVersion (fair.documents _ alike.1.paired)
  · exact .done fun _ _ h => ⟨⟨alike.1, same⟩, h.1⟩

omit token in
theorem freeNewSlug_parallel {d d' : Document} (alike : d.Alike π d') {slug : Option String}
    (plain : ∀ text ∈ slug, isSendable text = true) :
    Parallel c c' π (Beside c c' π K) (freeNewSlug d id slug) (freeNewSlug d' id' slug)
      fun _ _ => Beside c c' π K := by
  cases slug with
  | none => exact .done fun _ _ h => h
  | some slug =>
    simp only [freeNewSlug, alike.slug]
    split
    · exact .done fun _ _ h => h
    · exact freeSlug_parallel cmp (fair.workspaces _ alike.workspace) (.some stand)
        (plain slug rfl)

theorem updateDocument_parallel {request : DocumentUpdate}
    (title : ∀ text ∈ request.title, isSendable text = true) :
    Parallel c c' π (Beside c c' π K) (updateDocument caller id request)
      (updateDocument caller id' request) (Parallel.Grown c c' (Document.Alike π) fun _ _ => π) := by
  refine (documentFor_parallel _ cmp fair token stand).bind fun a b => .given fun alike => ?_
  refine Parallel.obey.bind fun name _ => .given ?_
  rintro ⟨rfl, titled⟩
  refine Parallel.obey.bind fun slug _ => .given ?_
  rintro ⟨rfl, slugged⟩
  have plain := newTitle_sendable titled title
  have plainSlug := newSlug_sendable slugged
  refine (freeNewSlug_parallel cmp fair stand alike.1 fun t ht => (plainSlug t ht).1).bind
    fun _ _ => ?_
  exact Parallel.lookUp cmp (fun _ _ => Pairing.Within.refl π)
    (fun n m r coupled _ => coupled.updateDocument stand plain plainSlug) _

theorem deleteDocument_parallel :
    Parallel c c' π (Beside c c' π K) (deleteDocument caller id) (deleteDocument caller id')
      (Parallel.Grown c c' (fun a b => b = a) fun _ _ => π) := by
  refine (documentFor_parallel .write cmp fair token stand).bind fun a b => .given fun _ => ?_
  refine (Parallel.clock cmp).bind fun now now' => .given ?_
  rintro ⟨n, rfl, rfl⟩
  refine Duo.Agrees.bind (Q := Parallel.Grown c c' (fun a b => b = a) fun _ _ => π)
    (Parallel.lookUp cmp (fun _ _ => Pairing.Within.refl π) ?_ _) fun _ _ => ?_
  · intro k m r coupled _
    exact coupled.deleteDocument stand _ _ (cmp.held n)
  · exact Duo.Agrees.note.bind fun _ _ => .done fun _ _ h => h

theorem createVersion_parallel (known : ∀ user ∈ caller.user, 0 < user) {request : VersionRequest}
    (content : isSendable request.content = true)
    (note : ∀ text ∈ request.note, isSendable text = true) :
    Parallel c c' π (Beside c c' π K) (createVersion caller id request)
      (createVersion caller id' request)
      (Parallel.Grown c c' (fun a b => a.Alike (π.addVersion a b) b) π.addVersion) := by
  refine (documentFor_parallel .write cmp fair token stand).bind fun a b => .given fun alike => ?_
  refine Parallel.obey.bind fun text _ => .given ?_
  rintro ⟨rfl, noted⟩
  have plain := optionalText_sendable noted note
  refine Duo.Agrees.bind (Q := fun _ _ =>
    Beside c c' π fun m => ∀ author ∈ caller.user, author ∈ m.users) ?_ fun _ _ => ?_
  · unfold ensureAuthor
    cases signed : caller.user with
    | none => exact .done fun _ _ h => ⟨h.1, fun _ none => nomatch none⟩
    | some user =>
      refine (ensureUser_parallel cmp (known user signed) fun _ => True).weaken
        (fun _ _ h => ⟨h.1, trivial⟩) ?_
      rintro _ _ _ _ ⟨step, there, _⟩
      refine ⟨step, fun author same => ?_⟩
      cases same
      exact there
  · exact Parallel.lookUp cmp π.within_addVersion (fun n m r coupled holds =>
      coupled.createNextVersion ⟨a.1.id, request.content, caller.user, text⟩
        alike.1.paired content plain holds) _

theorem listVersions_parallel (query : PageQuery) :
    Parallel c c' π (Beside c c' π K) (listVersions caller id query)
      (listVersions caller id' query)
      (Parallel.Grown c c' (Listing.Alike (Version.Alike π)) fun _ _ => π) := by
  refine (documentFor_parallel .read cmp fair token stand).bind fun a b => .given fun alike => ?_
  have on := fair.documents _ alike.1.paired
  refine Parallel.page (f := fun t => t.versionPage a.1.id _ _)
    (g := fun t => t.versionPage b.1.id _ _) (m := fun t => (t.versionsOf a.1.id).length)
    (n := fun t => (t.versionsOf b.1.id).length) cmp (fun _ => rfl) (fun _ => rfl) (fun _ => rfl)
    (fun _ => rfl) ?_ ?_ _
  · rintro m r ⟨_, _, coupled⟩
    exact coupled.tables.versionPage (coupled.sane.chronicled.inOrder _) on
  · rintro m r ⟨_, _, coupled⟩
    exact (coupled.tables.versionsOf on).length_eq.symm

theorem getVersion_parallel (number : Int) :
    Parallel c c' π (Beside c c' π K) (getVersion caller id number)
      (getVersion caller id' number) (Parallel.Grown c c' (Version.Alike π) fun _ _ => π) := by
  refine (documentFor_parallel .read cmp fair token stand).bind fun a b => .given fun alike => ?_
  refine (Parallel.lookUp_row (F := Version.Alike π) (f := fun t => t.version? a.1.id number)
    (g := fun t => t.version? b.1.id number) (fun _ => rfl) (fun _ => rfl) ?_ cmp _).after
    fun _ _ _ _ done => ⟨done.1, done.2.1⟩
  rintro m r ⟨_, _, coupled⟩ _
  exact coupled.tables.version (fair.documents _ alike.1.paired)

theorem listShares_parallel (query : PageQuery) :
    Parallel c c' π (Beside c c' π K) (listShares caller id query) (listShares caller id' query)
      (Parallel.Grown c c' (Listing.Alike (Share.Alike π)) fun _ _ => π) := by
  refine (documentFor_parallel .manage cmp fair token stand).bind fun a b => .given fun alike => ?_
  have on := fair.documents _ alike.1.paired
  refine Parallel.page (f := fun t => t.sharePage a.1.id _ _)
    (g := fun t => t.sharePage b.1.id _ _) (m := fun t => (t.sharesOf a.1.id).length)
    (n := fun t => (t.sharesOf b.1.id).length) cmp (fun _ => rfl) (fun _ => rfl) (fun _ => rfl)
    (fun _ => rfl) ?_ ?_ _
  · rintro m r ⟨_, _, coupled⟩
    exact (coupled.tables.sharePage coupled.dated coupled.dated' on).imp fun _ _ r => r.1
  · rintro m r ⟨_, _, coupled⟩
    exact (coupled.tables.sharesOf on).length_eq.symm

end Documents

def Sharing (document : Int) (user : Option Int) (m : Memory) : Prop :=
  (m.tables.anyDocument? document).isSome = true ∧
    ∀ u ∈ user, u ∈ m.users ∧ m.tables.shareForUser? document u = none

theorem requireUser_parallel (cmp : Comparable c c') (fair : π.OneToOne)
    {a b : Document × Workspace} (alike : Targeted π a b) (user : Option Int) :
    Parallel c c' π (Beside c c' π fun m => (m.tables.anyDocument? a.1.id).isSome = true)
      (requireUser a.1 a.2 user) (requireUser b.1 b.2 user)
      fun _ _ => Beside c c' π (Sharing a.1.id user) := by
  cases user with
  | none => exact .done fun _ _ h => ⟨h.1, h.2, nofun⟩
  | some user =>
    simp only [requireUser, alike.2.owner]
    refine Parallel.obey.bind fun checked _ => .given ?_
    rintro ⟨rfl, ok⟩
    have positive : 0 < user := by
      rw [positiveId] at ok
      split at ok
      · assumption
      · cases ok
    refine Parallel.obey.bind fun _ _ => .given fun _ => ?_
    refine (ensureUser_parallel cmp positive fun t =>
      (t.anyDocument? a.1.id).isSome = true).bind fun _ _ => ?_
    refine (Parallel.query_read
      (F := Option.Rel (Tables.Twin.Granted π (Agreed c c')))
      (f := fun t => t.shareForUser? a.1.id user) (g := fun t => t.shareForUser? b.1.id user) cmp
      (fun _ => rfl) (fun _ => rfl) (List.forall_mem_nil _) ?_).bind
      fun held held' => .given fun same => ?_
    · rintro m r ⟨_, _, coupled⟩ _
      exact coupled.tables.shareForUser (fair.documents _ alike.1.paired) user
    · refine (Parallel.refuseIf (Repository.Coupled.isSome_rel same).symm).after ?_
      rintro _ _ w w' ⟨unheld, step, found, known, there⟩
      refine ⟨step, there, fun u same => ?_⟩
      cases same
      exact ⟨known,
        found.trans (Option.isNone_iff_eq_none.mp (Option.isSome_eq_false_iff.mp unheld))⟩

theorem freshToken_parallel (cmp : Comparable c c') :
    Parallel c c' π (Beside c c' π K) Program.freshToken Program.freshToken
      fun token token' w w' => (token = token' ∧ ∃ n, token = c'.token n) ∧
        Beside c c' π K w w' := by
  refine Duo.Agrees.freshToken.after ?_
  rintro token token' v v' ⟨w, w', ⟨step, holds⟩, rfl, rfl, rfl, rfl⟩
  have same : c.token w.tokens = c'.token w'.tokens := by rw [cmp.tokens, step.drawn]
  exact ⟨⟨same, _, same⟩,
    ⟨step.readings, congrArg (· + 1) step.drawn, step.backend, step.coupled⟩, holds⟩

theorem allocate_parallel (cmp : Comparable c c') {document on : Int}
    (paired : (document, on) ∈ π.documents) {request : ShareRequest}
    (inRange : ∀ t ∈ request.expiresAt, Relational.InRange t)
    (whole : ∀ t ∈ request.expiresAt, t.Whole)
    (agreed : ∀ t ∈ request.expiresAt, Agreed c c' t) (attempt left : Nat) :
    Parallel c c' π (Beside c c' π (Sharing document request.user))
      (allocate document request attempt left) (allocate on request attempt left)
      (Parallel.Grown c c' (fun a b => a.Alike (π.addShare a b) b) π.addShare) := by
  induction left generalizing attempt with
  | zero => exact .fail fun _ _ holds => ⟨rfl, holds.1⟩
  | succ left ih =>
    refine (freshToken_parallel cmp).bind fun token _ => .given ?_
    rintro ⟨rfl, drawn, rfl⟩
    refine Duo.Agrees.ask (D := sides c c') cmp.calm cmp.calm' (Parallel.answers
      (F := fun a b _ => a.Alike (π.addShare a b) b) (J := Sharing document request.user) cmp
      π.addShare π.within_addShare ?_) ?_ ?_
    · intro n m r coupled holds
      exact (coupled.createShare ⟨document, request.user, c'.token drawn,
        request.permission, request.expiresAt⟩ paired holds.1 (cmp.sendable drawn)
        (cmp.short drawn) inRange (fun t ht => Relational.keep_of_whole (whole t ht)) agreed
        (fun u hu => (holds.2 u hu).1) fun u hu => (holds.2 u hu).2).mono (fun _ _ h => h)
        fun _ _ h => ⟨h.1, h.2.1.symm ▸ holds, h.2.2⟩
    · exact fun a b => Duo.Agrees.note.bind fun _ _ => .done fun _ _ h => ⟨h.2, h.1⟩
    · refine fun e e' => .given ?_
      rintro rfl
      cases e with
      | duplicate index =>
        -- A token that is taken is taken on both sides, and both draw the next one.
        dsimp only
        split
        · exact Duo.Agrees.note.bind fun _ _ => ih (attempt + 1)
        · exact .fail fun _ _ holds => ⟨rfl, holds.1⟩
      | _ => exact .fail fun _ _ holds => ⟨rfl, holds.1⟩

theorem futureExpiry_agreed {expiry : Option Instant} (agreed : ∀ t ∈ expiry, Agreed c c' t)
    (n : Nat) : futureExpiry expiry (c'.clock n) = futureExpiry expiry (c.clock n) := by
  cases expiry with
  | none => rfl
  | some t => simp only [futureExpiry, agreed t rfl n]

section Documents

variable (cmp : Comparable c c') (fair : π.OneToOne)
variable (token : ∀ s ∈ caller.token, isSendable s = true) (stand : Stand π.documents id id')

include cmp fair token stand

theorem shareDocument_parallel {request : ShareRequest} (whole : ∀ t ∈ request.expiresAt, t.Whole)
    (agreed : ∀ t ∈ request.expiresAt, Agreed c c' t) :
    Parallel c c' π (Beside c c' π K) (shareDocument caller id request)
      (shareDocument caller id' request)
      (Parallel.Grown c c' (fun a b => a.Alike (π.addShare a b) b) π.addShare) := by
  refine (documentFor_parallel .manage cmp fair token stand).bind fun a b => .given fun alike => ?_
  refine (Parallel.clock cmp).bind fun now now' => .given ?_
  rintro ⟨n, rfl, rfl⟩
  rw [← futureExpiry_agreed agreed n]
  refine Parallel.obey.bind fun _ _ => .given fun checked => ?_
  refine Duo.Agrees.bind (Q := fun _ _ => Beside c c' π (Sharing a.1.id request.user)) ?_
    fun _ _ => allocate_parallel cmp alike.1.paired
      (cmp.later checked.2) whole agreed 1 tokenAttempts
  refine (requireUser_parallel cmp fair alike request.user).before ?_
  rintro w w' ⟨step, found, _⟩
  exact ⟨step, List.find?_isSome.mpr
    ⟨a.1, List.mem_of_find?_eq_some found, beq_self_eq_true _⟩⟩

omit fair token in
theorem shareOf_parallel {share share' : Int} (same : Stand π.shares share share') :
    Parallel c c' π (Beside c c' π K) (shareOf id share) (shareOf id' share')
      fun s s' w w' => s.Alike π s' ∧ Beside c c' π K w w' := by
  refine Duo.Agrees.bind (Parallel.lookUp_row (F := Tables.Twin.Granted π (Agreed c c'))
    (f := fun t => t.share? share) (g := fun t => t.share? share') (fun _ => rfl) (fun _ => rfl)
    ?_ cmp _) fun s s' => .given fun granted => ?_
  · rintro m r ⟨_, _, coupled⟩ _
    exact coupled.tables.share same
  · have on : (s.document = id) = (s'.document = id') := propext (stand _ granted.1.document)
    simp only [on]
    split
    · exact .done fun _ _ h => ⟨granted.1, h.1, h.2.2⟩
    · exact .fail fun _ _ h => ⟨rfl, h.1⟩

theorem updateShare_parallel {share share' : Int} (same : Stand π.shares share share')
    {request : ShareUpdate} (whole : ∀ t ∈ request.expiresAt, ∀ at_ ∈ t, at_.Whole)
    (agreed : ∀ t ∈ request.expiresAt, ∀ at_ ∈ t, Agreed c c' at_) :
    Parallel c c' π (Beside c c' π K) (updateShare caller id share request)
      (updateShare caller id' share' request)
      (Parallel.Grown c c' (Share.Alike π) fun _ _ => π) := by
  refine (documentFor_parallel .manage cmp fair token stand).bind fun _ _ => .given fun _ => ?_
  refine (shareOf_parallel cmp stand same).bind fun s s' => .given fun alike => ?_
  refine (Parallel.clock cmp).bind fun now now' => .given ?_
  rintro ⟨n, rfl, rfl⟩
  have expiry : ∀ at_ ∈ request.expiresAt.bind fun t => t, Agreed c c' at_ := by
    intro at_ given
    obtain ⟨t, listed, there⟩ := Option.bind_eq_some_iff.mp given
    exact agreed t listed at_ there
  rw [← futureExpiry_agreed expiry n]
  refine Parallel.obey.bind fun _ _ => .given fun checked => ?_
  have inRange : ∀ t ∈ request.expiresAt, ∀ at_ ∈ t, Relational.InRange at_ := by
    rintro t given at_ rfl
    exact cmp.later checked.2 at_ (by simp [Option.mem_def.mp given])
  exact Parallel.lookUp cmp (fun _ _ => Pairing.Within.refl π) (fun k m r coupled _ =>
    coupled.updateShare (fair.shares _ alike.paired)
      ⟨request.permission, request.expiresAt⟩ inRange
      (fun t given at_ there => Relational.keep_of_whole (whole t given at_ there)) agreed) _

theorem revokeShare_parallel {share share' : Int} (same : Stand π.shares share share') :
    Parallel c c' π (Beside c c' π K) (revokeShare caller id share)
      (revokeShare caller id' share') (Parallel.Grown c c' (fun _ _ => True) fun _ _ => π) := by
  refine (documentFor_parallel .manage cmp fair token stand).bind fun _ _ => .given fun _ => ?_
  refine (shareOf_parallel cmp stand same).bind fun s s' => .given fun alike => ?_
  refine (Parallel.clock cmp).bind fun now now' => .given ?_
  rintro ⟨n, rfl, rfl⟩
  refine Duo.Agrees.bind (Q := Parallel.Grown c c' (fun _ _ => True) fun _ _ => π)
    (Parallel.lookUp cmp (fun _ _ => Pairing.Within.refl π) ?_ _) fun _ _ => ?_
  · intro k m r coupled _
    exact (coupled.deleteShare (fair.shares _ alike.paired) _ _
      (cmp.held n)).mono (fun _ _ h => ⟨trivial, h⟩) fun _ _ h => h
  · exact Duo.Agrees.note.after fun _ _ _ _ h => h

end Documents

end Operations

end DiagramShare.Service
