import DiagramShare.Proofs.Numbering

/-! What a call to the store in memory can do. A call that fails changes no row; a call that succeeds
makes one change, under the conditions that its case lists. -/
namespace DiagramShare.Repository

open DiagramShare.Time (Instant)

def Call.isRead : Call β → Bool
  | .ensureUser _ | .createWorkspace _ | .updateWorkspace _ _ | .deleteWorkspace _ _
  | .createDocument _ | .createDocumentWithVersion _ _ | .updateDocument _ _
  | .deleteDocument _ _ | .createNextVersion _ | .createShare _ | .updateShare _ _
  | .deleteShare _ _ => false
  | _ => true

def Call.keepsRows : Call β → Bool
  | .ensureUser _ => true
  | call => call.isRead

/-- One state has the rows of another. More users may be known, and so many numbers are used up. -/
structure Memory.Kept (used : Nat) (m m' : Memory) : Prop where
  tables : m'.tables = m.tables
  users : m.users ⊆ m'.users
  lastId : m'.lastId = m.lastId + used
  failVersions : m'.failVersions = m.failVersions

namespace Memory

variable {m m' : Memory} {now time : Instant} {id : Int}

theorem Kept.refl (m : Memory) : m.Kept 0 m := ⟨rfl, fun _ h => h, rfl, rfl⟩

theorem Kept.trans {a b : Nat} {m'' : Memory} (h : m.Kept a m') (k : m'.Kept b m'') :
    m.Kept (a + b) m'' :=
  ⟨k.tables.trans h.tables, fun _ hu => k.users (h.users hu), by rw [k.lastId, h.lastId]; omega,
    k.failVersions.trans h.failVersions⟩

theorem kept_used (m : Memory) (n : Nat) : m.Kept n { m with lastId := m.lastId + n } :=
  ⟨rfl, fun _ h => h, rfl, rfl⟩

theorem Kept.numbered {used : Nat} (kept : m.Kept used m') (h : m.Numbered) : m'.Numbered := by
  refine ⟨kept.tables ▸ h.distinct, fun i hi => ?_⟩
  have bound := h.inRange i (kept.tables ▸ hi)
  have counted := kept.lastId
  omega

def know (m : Memory) (user : Int) : Memory := (ensureUser user m).1

theorem mem_know {user u : Int} : u ∈ (m.know user).users ↔ u ∈ m.users ∨ u = user := by
  by_cases h : user ∈ m.users
  · simp only [know, ensureUser, List.contains_eq_mem, h, decide_true, if_true]
    constructor
    · exact .inl
    · rintro (hu | rfl)
      · exact hu
      · exact h
  · simp [know, ensureUser, h]

theorem kept_know (m : Memory) (user : Int) : m.Kept 0 (m.know user) := by
  refine ⟨?_, fun u hu => mem_know.mpr (.inl hu), ?_, ?_⟩ <;>
    simp only [know, ensureUser] <;> split <;> rfl

theorem answer_isRead {call : Call β} (h : call.isRead = true) : (answer now call m).1 = m := by
  cases call <;> first | rfl | contradiction

theorem answer_keepsRows {call : Call β} (h : call.keepsRows = true) :
    m.Kept 0 (answer now call m).1 := by
  cases call with
  | ensureUser user => exact kept_know m user
  | _ => first | exact Kept.refl m | contradiction

def nextVersion (m : Memory) (new : NewVersion) (now : Instant) : Version :=
  new.row m.nextId (m.tables.lastNumber new.document + 1) now

def firstVersion (m : Memory) (d : Document) (first : FirstVersion) (now : Instant) : Version :=
  (m.take (m.tables.addDocument d)).nextVersion (first.of d.id) now

end Memory

/-- A change to the rows or to the known users of a store. -/
inductive Change where
  | nothing
  | know (user : Int)
  | addWorkspace (new : NewWorkspace) (now : Instant)
  | setWorkspace (w : Workspace) (changes : WorkspaceChanges) (now : Instant)
  | deleteWorkspace (w : Workspace) (time : Instant)
  | addDocument (new : NewDocument) (now : Instant)
  | addDocumentWithVersion (new : NewDocument) (first : FirstVersion) (now : Instant)
  | setDocument (d : Document) (changes : DocumentChanges) (now : Instant)
  | deleteDocument (d : Document) (time : Instant)
  | addVersion (new : NewVersion) (now : Instant)
  | addShare (new : NewShare) (now : Instant)
  | setShare (s : Share) (changes : ShareChanges) (now : Instant)
  | deleteShare (s : Share) (time : Instant)

namespace Change

variable {m : Memory}

def on (change : Change) (m : Memory) : Memory :=
  match change with
  | nothing => m
  | know user => m.know user
  | addWorkspace new now => m.take (m.tables.addWorkspace (new.row m.nextId now))
  | setWorkspace w changes now => { m with tables := m.tables.setWorkspace (w.change changes now) }
  | deleteWorkspace w time =>
    { m with tables := (((m.tables.setWorkspace (w.tombstone time)).deleteDocumentsOf w.id
        time).deleteSharesOf ((m.tables.documentsOf w.id).map Document.id) time).1 }
  | addDocument new now => m.take (m.tables.addDocument (new.row m.nextId now))
  | addDocumentWithVersion new first now =>
    (m.take (m.tables.addDocument (new.row m.nextId now))).take
      ((m.tables.addDocument (new.row m.nextId now)).addVersion
        (m.firstVersion (new.row m.nextId now) first now))
  | setDocument d changes now => { m with tables := m.tables.setDocument (d.change changes now) }
  | deleteDocument d time =>
    { m with tables := ((m.tables.setDocument (d.tombstone time)).deleteSharesOf [d.id] time).1 }
  | addVersion new now => m.take (m.tables.addVersion (m.nextVersion new now))
  | addShare new now => m.take (m.tables.addShare (new.row m.nextId now))
  | setShare s changes now => { m with tables := m.tables.setShare (s.change changes now) }
  | deleteShare s time => { m with tables := m.tables.setShare (s.tombstone time) }

/-- What the store makes sure of before it makes a change. -/
def Fits (change : Change) (m : Memory) : Prop :=
  match change with
  | nothing | know _ => True
  | addWorkspace new _ =>
    new.owner ∈ m.users ∧ m.tables.nameExists new.owner new.name none = false
  | setWorkspace w changes _ => m.tables.workspace? w.id = some w ∧
    ∀ name, changes.name = some name → m.tables.nameExists w.owner name (some w.id) = false
  | deleteWorkspace w _ => m.tables.workspace? w.id = some w
  | addDocument new _ => (∃ w, m.tables.anyWorkspace? new.workspace = some w) ∧
    m.tables.slugExists new.workspace new.slug none = false
  | addDocumentWithVersion new first _ =>
    ((∃ w, m.tables.anyWorkspace? new.workspace = some w) ∧
      m.tables.slugExists new.workspace new.slug none = false) ∧
    ∀ author, first.author = some author → author ∈ m.users
  | setDocument d changes _ => m.tables.document? d.id = some d ∧
    ∀ slug, changes.slug = some slug → m.tables.slugExists d.workspace slug (some d.id) = false
  | deleteDocument d _ => m.tables.document? d.id = some d
  | addVersion new _ => (∃ d, m.tables.document? new.document = some d) ∧
    ∀ author, new.author = some author → author ∈ m.users
  | addShare new _ =>
    (∀ user, new.user = some user →
      user ∈ m.users ∧ m.tables.shareForUser? new.document user = none) ∧
    m.tables.tokenExists new.token = false
  | setShare s _ _ => m.tables.share? s.id = some s
  | deleteShare s _ => m.tables.share? s.id = some s

theorem numbered (change : Change) (h : m.Numbered) : (change.on m).Numbered := by
  cases change with
  | nothing => exact h
  | know user => exact (m.kept_know user).numbered h
  | addWorkspace new now => exact h.take (Tables.ids_addWorkspace _ _)
  | setWorkspace w changes now => exact h.withTables (Tables.ids_setWorkspace _ _)
  | deleteWorkspace w time =>
    exact h.withTables (by rw [Tables.ids_deleteSharesOf, Tables.ids_deleteDocumentsOf,
      Tables.ids_setWorkspace])
  | addDocument new now => exact h.take (Tables.ids_addDocument _ _)
  | addDocumentWithVersion new first now =>
    have added := h.take (Tables.ids_addDocument m.tables (new.row m.nextId now))
    exact added.take (Tables.ids_addVersion _ _)
  | setDocument d changes now => exact h.withTables (Tables.ids_setDocument _ _)
  | deleteDocument d time =>
    exact h.withTables (by rw [Tables.ids_deleteSharesOf, Tables.ids_setDocument])
  | addVersion new now => exact h.take (Tables.ids_addVersion _ _)
  | addShare new now => exact h.take (Tables.ids_addShare _ _)
  | setShare s changes now => exact h.withTables (Tables.ids_setShare _ _)
  | deleteShare s time => exact h.withTables (Tables.ids_setShare _ _)

end Change

namespace Memory

variable {m m' : Memory} {now : Instant}

theorem createWorkspace_cases (new : NewWorkspace) (now : Instant) (m : Memory) :
    (∃ e, createWorkspace new now m = (m, .error e)) ∨
    ((Change.addWorkspace new now).Fits m ∧ createWorkspace new now m =
      ((Change.addWorkspace new now).on m, .ok (new.row m.nextId now))) := by
  unfold createWorkspace
  split
  · exact .inl ⟨_, rfl⟩
  · rename_i known
    split
    · exact .inl ⟨_, rfl⟩
    · rename_i free
      exact .inr ⟨⟨by simpa using known, by simpa using free⟩, rfl⟩

theorem updateWorkspace_cases (id : Int) (changes : WorkspaceChanges) (now : Instant)
    (m : Memory) :
    (∃ e, updateWorkspace id changes now m = (m, .error e)) ∨
    ∃ w, w.id = id ∧ (Change.setWorkspace w changes now).Fits m ∧
      updateWorkspace id changes now m =
        ((Change.setWorkspace w changes now).on m, .ok (w.change changes now)) := by
  unfold updateWorkspace
  split
  · exact .inl ⟨_, rfl⟩
  · rename_i w found
    split
    · exact .inl ⟨_, rfl⟩
    · rename_i free
      obtain rfl := key_of_find found
      refine .inr ⟨w, rfl, ⟨found, ?_⟩, rfl⟩
      intro name given
      simpa [given] using free

theorem deleteWorkspace_cases (id : Int) (time : Instant) (m : Memory) :
    (∃ e, deleteWorkspace id time m = (m, .error e)) ∨
    ∃ w summary, w.id = id ∧ (Change.deleteWorkspace w time).Fits m ∧
      deleteWorkspace id time m = ((Change.deleteWorkspace w time).on m, .ok summary) := by
  unfold deleteWorkspace Tables.deleteWorkspace
  cases found : m.tables.workspace? id with
  | none => exact .inl ⟨_, rfl⟩
  | some w =>
    obtain rfl := key_of_find found
    exact .inr ⟨w, _, rfl, found, rfl⟩

theorem createDocument_cases (new : NewDocument) (now : Instant) (m : Memory) :
    (∃ e, createDocument new now m = (m, .error e)) ∨
    ((Change.addDocument new now).Fits m ∧ createDocument new now m =
      ((Change.addDocument new now).on m, .ok (new.row m.nextId now))) := by
  unfold createDocument
  split
  · exact .inl ⟨_, rfl⟩
  · rename_i found
    split
    · exact .inl ⟨_, rfl⟩
    · rename_i free
      refine .inr ⟨⟨?_, by simpa using free⟩, rfl⟩
      exact Option.ne_none_iff_exists'.mp (by simpa using found)

theorem createNextVersion_cases (new : NewVersion) (now : Instant) (m : Memory) :
    (∃ e, createNextVersion new now m = (m, .error e)) ∨
    ((Change.addVersion new now).Fits m ∧ createNextVersion new now m =
      ((Change.addVersion new now).on m, .ok (m.nextVersion new now))) := by
  unfold createNextVersion
  split
  · exact .inl ⟨_, rfl⟩
  · split
    · exact .inl ⟨_, rfl⟩
    · rename_i present
      split
      · exact .inl ⟨_, rfl⟩
      · rename_i known
        refine .inr ⟨⟨?_, ?_⟩, rfl⟩
        · exact Option.ne_none_iff_exists'.mp (by simpa using present)
        · intro author given
          simpa [given, Option.filter] using known

theorem dropDocument_addDocument (h : m.Numbered) (d : Document) (number : d.id = m.nextId) :
    (m.tables.addDocument d).dropDocument d.id = m.tables := by
  have others : ∀ e ∈ m.tables.documents, (e.id != d.id) = true := by
    intro e he
    simp only [number, bne_iff_ne, ne_eq]
    rintro same
    exact h.nextId_fresh (same ▸ Tables.document_mem_ids he)
  simp [Tables.dropDocument, Tables.addDocument, List.filter_append, List.filter_eq_self.mpr others]

theorem createDocumentWithVersion_cases (h : m.Numbered) (new : NewDocument)
    (first : Option FirstVersion) (now : Instant) :
    (∃ used e, used ≤ 1 ∧ createDocumentWithVersion new first now m =
      ({ m with lastId := m.lastId + used }, .error e)) ∨
    (first = none ∧ (Change.addDocument new now).Fits m ∧
      createDocumentWithVersion new first now m =
        ((Change.addDocument new now).on m, .ok (new.row m.nextId now, none))) ∨
    ∃ f, first = some f ∧ (Change.addDocumentWithVersion new f now).Fits m ∧
      createDocumentWithVersion new first now m =
        ((Change.addDocumentWithVersion new f now).on m,
          .ok (new.row m.nextId now, some (m.firstVersion (new.row m.nextId now) f now))) := by
  rcases createDocument_cases new now m with ⟨e, he⟩ | ⟨fits, hd⟩
  · exact .inl ⟨0, e, Nat.zero_le _, by simp [createDocumentWithVersion, he]⟩
  · cases first with
    | none => exact .inr (.inl ⟨rfl, fits, by simp [createDocumentWithVersion, hd]⟩)
    | some f =>
      rcases createNextVersion_cases (f.of (new.row m.nextId now).id) now
        ((Change.addDocument new now).on m) with ⟨e, he⟩ | ⟨⟨_, known⟩, hv⟩
      · -- The version fails: the document goes again, but its number stays used up.
        have undone := dropDocument_addDocument h (new.row m.nextId now) rfl
        refine .inl ⟨1, e, Nat.le_refl _, ?_⟩
        simp only [createDocumentWithVersion, hd, he]
        simp only [Change.on, Memory.take, undone]
      · refine .inr (.inr ⟨f, rfl, ⟨fits, known⟩, ?_⟩)
        simp only [createDocumentWithVersion, hd, hv]
        rfl

theorem updateDocument_cases (id : Int) (changes : DocumentChanges) (now : Instant) (m : Memory) :
    (∃ e, updateDocument id changes now m = (m, .error e)) ∨
    ∃ d, d.id = id ∧ (Change.setDocument d changes now).Fits m ∧
      updateDocument id changes now m =
        ((Change.setDocument d changes now).on m, .ok (d.change changes now)) := by
  unfold updateDocument
  split
  · exact .inl ⟨_, rfl⟩
  · rename_i d found
    split
    · exact .inl ⟨_, rfl⟩
    · rename_i free
      obtain rfl := key_of_find found
      refine .inr ⟨d, rfl, ⟨found, ?_⟩, rfl⟩
      intro slug given
      simpa [given] using free

theorem deleteDocument_cases (id : Int) (time : Instant) (m : Memory) :
    (∃ e, deleteDocument id time m = (m, .error e)) ∨
    ∃ d summary, d.id = id ∧ (Change.deleteDocument d time).Fits m ∧
      deleteDocument id time m = ((Change.deleteDocument d time).on m, .ok summary) := by
  unfold deleteDocument Tables.deleteDocument
  cases found : m.tables.document? id with
  | none => exact .inl ⟨_, rfl⟩
  | some d =>
    obtain rfl := key_of_find found
    exact .inr ⟨d, _, rfl, found, rfl⟩

theorem createShare_cases (new : NewShare) (now : Instant) (m : Memory) :
    (∃ e, createShare new now m = (m, .error e)) ∨
    ((Change.addShare new now).Fits m ∧ createShare new now m =
      ((Change.addShare new now).on m, .ok (new.row m.nextId now))) := by
  unfold createShare
  split
  · exact .inl ⟨_, rfl⟩
  · rename_i accepted
    simp only [shareRefusal?, Option.orElse_eq_or, Option.or_eq_none_iff,
      Option.bind_eq_none_iff] at accepted
    refine .inr ⟨⟨?_, ?_⟩, rfl⟩
    · intro user given
      have passed := accepted.1 user given
      split at passed
      · contradiction
      · rename_i known
        split at passed
        · contradiction
        · rename_i unheld
          exact ⟨by simpa using known, by simpa using unheld⟩
    · simpa using accepted.2

theorem updateShare_cases (id : Int) (changes : ShareChanges) (now : Instant) (m : Memory) :
    (∃ e, updateShare id changes now m = (m, .error e)) ∨
    ∃ s, s.id = id ∧ (Change.setShare s changes now).Fits m ∧
      updateShare id changes now m =
        ((Change.setShare s changes now).on m, .ok (s.change changes now)) := by
  unfold updateShare
  split
  · exact .inl ⟨_, rfl⟩
  · rename_i s found
    obtain rfl := key_of_find found
    exact .inr ⟨s, rfl, found, rfl⟩

theorem deleteShare_cases (id : Int) (time : Instant) (m : Memory) :
    (∃ e, deleteShare id time m = (m, .error e)) ∨
    ∃ s, s.id = id ∧ (Change.deleteShare s time).Fits m ∧
      deleteShare id time m = ((Change.deleteShare s time).on m, .ok ()) := by
  unfold deleteShare Tables.deleteShare
  cases found : m.tables.share? id with
  | none => exact .inl ⟨_, rfl⟩
  | some s =>
    obtain rfl := key_of_find found
    exact .inr ⟨s, rfl, found, rfl⟩

/-- A call fails, and then it has at most used up a number, or it makes one change. Only a document
that is taken out again uses up a number for nothing. -/
theorem answer_cases (h : m.Numbered) (call : Call β) (now : Instant) :
    (∃ used e, used ≤ 1 ∧ answer now call m = ({ m with lastId := m.lastId + used }, .error e)) ∨
    ∃ (change : Change) (a : β), change.Fits m ∧ answer now call m = (change.on m, .ok a) := by
  have refused : ∀ {e}, answer now call m = (m, .error e) →
      ∃ used e, used ≤ 1 ∧ answer now call m = ({ m with lastId := m.lastId + used }, .error e) :=
    fun {e} he => ⟨0, e, Nat.zero_le _, he⟩
  by_cases read : call.isRead = true
  · have same : (answer now call m).1 = m := answer_isRead read
    cases result : (answer now call m).2 with
    | error e => exact .inl (refused (Prod.ext same result))
    | ok a => exact .inr ⟨.nothing, a, trivial, Prod.ext same result⟩
  · cases call with
    | ensureUser user => exact .inr ⟨.know user, (), trivial, rfl⟩
    | createWorkspace new =>
      rcases createWorkspace_cases new now m with ⟨e, he⟩ | ⟨fits, hok⟩
      · exact .inl (refused he)
      · exact .inr ⟨_, _, fits, hok⟩
    | updateWorkspace id changes =>
      rcases updateWorkspace_cases id changes now m with ⟨e, he⟩ | ⟨w, _, fits, hok⟩
      · exact .inl (refused he)
      · exact .inr ⟨_, _, fits, hok⟩
    | deleteWorkspace id time =>
      rcases deleteWorkspace_cases id time m with ⟨e, he⟩ | ⟨w, summary, _, fits, hok⟩
      · exact .inl (refused he)
      · exact .inr ⟨_, _, fits, hok⟩
    | createDocument new =>
      rcases createDocument_cases new now m with ⟨e, he⟩ | ⟨fits, hok⟩
      · exact .inl (refused he)
      · exact .inr ⟨_, _, fits, hok⟩
    | createDocumentWithVersion new first =>
      rcases createDocumentWithVersion_cases h new first now with
        failed | ⟨_, fits, hok⟩ | ⟨f, _, fits, hok⟩
      · exact .inl failed
      · exact .inr ⟨_, _, fits, hok⟩
      · exact .inr ⟨_, _, fits, hok⟩
    | updateDocument id changes =>
      rcases updateDocument_cases id changes now m with ⟨e, he⟩ | ⟨d, _, fits, hok⟩
      · exact .inl (refused he)
      · exact .inr ⟨_, _, fits, hok⟩
    | deleteDocument id time =>
      rcases deleteDocument_cases id time m with ⟨e, he⟩ | ⟨d, summary, _, fits, hok⟩
      · exact .inl (refused he)
      · exact .inr ⟨_, _, fits, hok⟩
    | createNextVersion new =>
      rcases createNextVersion_cases new now m with ⟨e, he⟩ | ⟨fits, hok⟩
      · exact .inl (refused he)
      · exact .inr ⟨_, _, fits, hok⟩
    | createShare new =>
      rcases createShare_cases new now m with ⟨e, he⟩ | ⟨fits, hok⟩
      · exact .inl (refused he)
      · exact .inr ⟨_, _, fits, hok⟩
    | updateShare id changes =>
      rcases updateShare_cases id changes now m with ⟨e, he⟩ | ⟨s, _, fits, hok⟩
      · exact .inl (refused he)
      · exact .inr ⟨_, _, fits, hok⟩
    | deleteShare id time =>
      rcases deleteShare_cases id time m with ⟨e, he⟩ | ⟨s, _, fits, hok⟩
      · exact .inl (refused he)
      · exact .inr ⟨_, _, fits, hok⟩
    | _ => exact absurd rfl read

theorem answer_numbered (h : m.Numbered) (call : Call β) (now : Instant) :
    (answer now call m).1.Numbered := by
  rcases answer_cases h call now with ⟨used, e, _, he⟩ | ⟨change, a, _, hok⟩
  · rw [he]
    exact (m.kept_used used).numbered h
  · rw [hok]
    exact change.numbered h

theorem answer_error_kept (h : m.Numbered) {call : Call β} {e : Failure}
    (failed : answer now call m = (m', .error e)) : ∃ used, used ≤ 1 ∧ m.Kept used m' := by
  rcases answer_cases h call now with ⟨used, _, le, he⟩ | ⟨_, a, _, hok⟩
  · rw [he] at failed
    cases failed
    exact ⟨used, le, m.kept_used used⟩
  · rw [hok] at failed
    cases failed

end Memory

end DiagramShare.Repository
