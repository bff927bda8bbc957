import DiagramShare.Proofs.Acceptance
import DiagramShare.Proofs.Joint
import DiagramShare.Proofs.Served
import DiagramShare.Proofs.Twin
import DiagramShare.Proofs.Unique

/-! The two stores side by side. A call that both are asked, with numbers that stand for the same
rows, is answered alike by both, and it leaves them with the same rows again. -/
namespace DiagramShare.Repository

open DiagramShare.Service (Meet)
open DiagramShare.Time (Instant)
open List (Forall₂)

/-- What every call to the store in memory keeps, so long as versions can be written. -/
structure Memory.Sane (m : Memory) : Prop where
  works : m.failVersions = false
  numbered : m.Numbered
  chronicled : m.Chronicled
  unique : m.Unique

theorem Change.failVersions_on (change : Change) (m : Memory) :
    (change.on m).failVersions = m.failVersions := by
  cases change with
  | know user => exact (m.kept_know user).failVersions
  | _ => rfl

theorem Memory.Sane.change {m : Memory} (h : m.Sane) (change : Change) (fits : change.Fits m) :
    (change.on m).Sane :=
  ⟨(change.failVersions_on m).trans h.works, change.numbered h.numbered,
    h.chronicled.change h.numbered fits, h.unique.change fits⟩

theorem Memory.Sane.answer {m : Memory} (h : m.Sane) (call : Call β) (now : Instant) :
    (Memory.answer now call m).1.Sane := by
  rcases Memory.answer_cases h.numbered call now with ⟨used, e, _, failed⟩ | ⟨change, a, fits, done⟩
  · rw [failed]
    have kept := m.kept_used used
    exact ⟨h.works, kept.numbered h.numbered, h.chronicled.kept kept, h.unique.kept kept⟩
  · rw [done]
    exact h.change change fits

/-- Two stores with the same rows under paired numbers, dated no later than two times. -/
structure Coupled (π : Pairing) (agreed : Instant → Prop) (time time' : Instant) (m : Memory)
    (r : Relational) : Prop where
  users : r.users = m.users
  sane : m.Sane
  sound : r.Sound
  paired : Paired π m.numbers r.sequences
  tables : m.tables.Twin π agreed r.tables
  dated : m.tables.Dated time m.numbers
  dated' : r.tables.Dated time' r.sequences

def Same (time now : Instant) (call : Call α) (call' : Call β) (m : Memory) (r : Relational)
    (Q : α → β → Memory → Relational → Prop) (I : Memory → Relational → Prop) : Prop :=
  Meet (fun a b => Q a b (Memory.answer time call m).1 (Relational.answer now call' r).1)
    (fun e e' => e = e' ∧ I (Memory.answer time call m).1 (Relational.answer now call' r).1)
    (Memory.answer time call m).2 (Relational.answer now call' r).2

theorem Same.of_eq {time now : Instant} {call : Call α} {call' : Call β} {m m' : Memory}
    {r r' : Relational} {Q : α → β → Memory → Relational → Prop} {I : Memory → Relational → Prop}
    {x : Except Failure α} {x' : Except Failure β} (eq : Memory.answer time call m = (m', x))
    (eq' : Relational.answer now call' r = (r', x'))
    (h : Meet (fun a b => Q a b m' r') (fun e e' => e = e' ∧ I m' r') x x') :
    Same time now call call' m r Q I := by
  rw [Same, eq, eq']
  exact h

theorem Paired.later {π : Pairing} {q q' p p' : Sequences} (h : Paired π q q')
    (most : q.Before p) (most' : q'.Before p') : Paired π p p' :=
  ⟨h.workspaces.later (Int.ofNat_le.mpr most.workspaces) (Int.ofNat_le.mpr most'.workspaces),
    h.documents.later (Int.ofNat_le.mpr most.documents) (Int.ofNat_le.mpr most'.documents),
    h.versions.later (Int.ofNat_le.mpr most.versions) (Int.ofNat_le.mpr most'.versions),
    h.shares.later (Int.ofNat_le.mpr most.shares) (Int.ofNat_le.mpr most'.shares)⟩

namespace Coupled

variable {π : Pairing} {agreed : Instant → Prop} {time time' now : Instant} {m m' : Memory}
variable {r r' : Relational}

theorem later (h : Coupled π agreed time time' m r) {next next' : Instant} (le : time ≤ next)
    (le' : time' ≤ next') : Coupled π agreed next next' m r :=
  { h with
    dated := h.dated.later le (Sequences.Before.refl _)
    dated' := h.dated'.later le' (Sequences.Before.refl _) }

theorem spend (h : Coupled π agreed time time' m r) {q : Sequences}
    (most : r.sequences.Before q) : Coupled π agreed time time' m { r with sequences := q } :=
  { h with
    sound := ⟨h.sound.owners⟩
    paired := h.paired.later (Sequences.Before.refl _) most
    dated' := h.dated'.later (Instant.le_refl _) most }

theorem restate (h : Coupled π agreed time time' m r) {t t' : Tables}
    (sane : ({ m with tables := t } : Memory).Sane)
    (sound : ({ r with tables := t' } : Relational).Sound) (tables : t.Twin π agreed t')
    (same : m.tables.Restated t) (same' : r.tables.Restated t') :
    Coupled π agreed time time' { m with tables := t } { r with tables := t' } :=
  ⟨h.users, sane, sound, h.paired, tables, h.dated.restated same, h.dated'.restated same'⟩

theorem ensureUser (h : Coupled π agreed time time' m r) {user : Int} (positive : 0 < user) :
    (Relational.ensureUser user r).2 = .ok () ∧
      Coupled π agreed time time' (Memory.ensureUser user m).1 (Relational.ensureUser user r).1 := by
  have sane := h.sane.change (.know user) trivial
  have sound := Relational.ensureUser_sound h.sound user
  simp only [Change.on, Memory.know] at sane
  simp only [Relational.ensureUser, if_neg (Int.not_le.mpr positive), h.users,
    Memory.ensureUser] at sane sound ⊢
  refine ⟨trivial, ?_⟩
  split
  · exact h
  · rename_i unknown
    rw [if_neg unknown] at sane sound
    exact ⟨rfl, sane, sound, h.paired, h.tables, h.dated, h.dated'⟩

theorem owner_known (h : Coupled π agreed time time' m r) {w : Workspace}
    (stored : w ∈ m.tables.workspaces) : w.owner ∈ m.users := by
  obtain ⟨w', stored', alike⟩ := mem_twin h.tables.workspaces stored
  rw [← alike.owner, ← h.users]
  exact h.sound.owners w' stored'

theorem before_take (m : Memory) (t : Tables) : m.numbers.Before (m.take t).numbers :=
  ⟨Nat.le_succ _, Nat.le_succ _, Nat.le_succ _, Nat.le_succ _⟩

theorem createWorkspace (h : Coupled π agreed time (Relational.keep now) m r) {new : NewWorkspace}
    (name : Relational.isSendable new.name = true)
    (description : ∀ text ∈ new.description, Relational.isSendable text = true)
    (short : new.name.length ≤ 255) (known : new.owner ∈ m.users) :
    Same time now (.createWorkspace new) (.createWorkspace new) m r
      (fun a b m' r' => a.Alike (π.addWorkspace a b) b ∧
        Coupled (π.addWorkspace a b) agreed time (Relational.keep now) m' r')
      (Coupled π agreed time (Relational.keep now)) := by
  have sane := h.sane.answer (.createWorkspace new) time
  have sound := Relational.answer_sound h.sound (.createWorkspace new) now
  have stored : Relational.answer now (.createWorkspace new) r = _ :=
    Relational.createWorkspace_eq name description short (h.users.symm ▸ known)
  rw [h.tables.nameExists new.owner new.name .none] at stored
  have most : r.sequences.Before r.numberWorkspace.sequences :=
    { Sequences.Before.refl _ with workspaces := Nat.le_succ _ }
  cases taken : m.tables.nameExists new.owner new.name none with
  | true =>
    rw [taken, if_pos rfl] at stored
    have refused : Memory.answer time (.createWorkspace new) m =
        (m, .error (.duplicate Index.workspaceName.name)) := by
      simp [Memory.answer, Memory.createWorkspace, known, taken]
    exact .of_eq refused stored (.error ⟨rfl, h.spend most⟩)
  | false =>
    rw [taken, if_neg Bool.false_ne_true] at stored
    have made : Memory.answer time (.createWorkspace new) m =
        (m.take (m.tables.addWorkspace (new.row m.nextId time)), .ok (new.row m.nextId time)) := by
      simp [Memory.answer, Memory.createWorkspace, known, taken]
    rw [made] at sane
    rw [stored] at sound
    let a := new.row m.nextId time
    let b := new.row r.workspaceNumber (Relational.keep now)
    have within : π.Within (π.addWorkspace a b) := π.within_addWorkspace a b
    have alike : a.Alike (π.addWorkspace a b) b :=
      ⟨List.mem_append_right _ (List.mem_singleton_self _), rfl, rfl, rfl, rfl, rfl⟩
    have paired := h.paired.later (before_take m (m.tables.addWorkspace a)) most
    refine .of_eq made stored (.ok ⟨alike, h.users, sane, sound, ?_,
      (h.tables.mono within).addWorkspace alike, ?_, ?_⟩)
    · exact { paired with
        workspaces := h.paired.workspaces.snoc }
    · exact h.dated.addWorkspace (Instant.le_refl _) (before_take m _) rfl rfl (Nat.lt_succ_self _)
    · exact h.dated'.addWorkspace (Instant.le_refl _) most rfl rfl (Nat.lt_succ_self _)

theorem nameExists_change (h : Coupled π agreed time time' m r) {id id' : Int}
    (stand : Stand π.workspaces id id') {w w' : Workspace} (found : m.tables.workspace? id = some w)
    (alike : w.Alike π w') (name : Option String) :
    r.tables.nameExists w'.owner (name.getD w'.name) (some id') =
      name.any fun name => m.tables.nameExists w.owner name (some id) := by
  rw [h.tables.nameExists w'.owner _ (.some stand), alike.owner]
  cases name with
  | some name => rfl
  | none =>
    have number : w.id = id := key_of_find found
    have own := h.sane.unique.own_name (List.mem_of_find?_eq_some found) (also_of_find found)
    rw [number] at own
    rw [Option.getD_none, alike.name, own]
    rfl

theorem updateWorkspace (h : Coupled π agreed time time' m r) {id id' : Int}
    (stand : Stand π.workspaces id id') {changes : WorkspaceChanges}
    (name : ∀ text ∈ changes.name, Relational.isSendable text = true ∧ text.length ≤ 255)
    (description : ∀ text, changes.description = some (some text) →
      Relational.isSendable text = true) :
    Same time now (.updateWorkspace id changes) (.updateWorkspace id' changes) m r
      (fun a b m' r' => a.Alike π b ∧ Coupled π agreed time time' m' r')
      (Coupled π agreed time time') := by
  have sane := h.sane.answer (.updateWorkspace id changes) time
  have sound := Relational.answer_sound h.sound (.updateWorkspace id' changes) now
  have stored : Relational.answer now (.updateWorkspace id' changes) r = _ :=
    Relational.updateWorkspace_eq name description
  have there := h.tables.workspace stand
  generalize found : m.tables.workspace? id = w at there
  generalize found' : r.tables.workspace? id' = w' at there
  rw [found'] at stored
  cases there with
  | none =>
    have missing : Memory.answer time (.updateWorkspace id changes) m = (m, .error .notFound) := by
      simp [Memory.answer, Memory.updateWorkspace, found]
    exact .of_eq missing stored (.error ⟨rfl, h⟩)
  | @some w w' alike =>
    simp only [h.nameExists_change stand found alike changes.name] at stored
    cases taken : changes.name.any fun name => m.tables.nameExists w.owner name (some id) with
    | true =>
      rw [taken, if_pos rfl] at stored
      have refused : Memory.answer time (.updateWorkspace id changes) m =
          (m, .error (.duplicate Index.workspaceName.name)) := by
        simp only [Memory.answer, Memory.updateWorkspace, found, taken, if_true]
      exact .of_eq refused stored (.error ⟨rfl, h⟩)
    | false =>
      rw [taken, if_neg Bool.false_ne_true] at stored
      have made : Memory.answer time (.updateWorkspace id changes) m =
          ({ m with tables := m.tables.setWorkspace (w.change changes time) },
            .ok (w.change changes time)) := by
        simp only [Memory.answer, Memory.updateWorkspace, found, taken, Bool.false_eq_true, if_false]
      rw [made] at sane
      rw [stored] at sound
      have changed : (w.change changes time).Alike π (w'.change changes (Relational.keep now)) :=
        ⟨alike.paired, congrArg changes.name.getD alike.name,
          congrArg changes.description.getD alike.description, alike.owner,
          congrArg changes.isPublic.getD alike.isPublic, alike.live⟩
      refine .of_eq made stored (.ok ⟨changed, h.restate sane sound
        (h.tables.setWorkspace h.paired changed) ?_ ?_⟩)
      · exact h.dated.setWorkspace (List.mem_of_find?_eq_some found) rfl
      · exact h.dated'.setWorkspace (List.mem_of_find?_eq_some found') rfl

theorem documents (h : Coupled π agreed time time' m r) :
    (r.tables.documents.map Document.id).Nodup := by
  have numbers : List.Forall₂ (fun a b => (a, b) ∈ π.documents) (m.tables.documents.map Document.id)
      (r.tables.documents.map Document.id) :=
    List.rel_map (fun _ _ alike => alike.paired) h.tables.documents
  exact (List.rel_nodup h.paired.documents.biUnique numbers).mp h.sane.numbered.documents

theorem deleteWorkspace (h : Coupled π agreed time time' m r) {id id' : Int}
    (stand : Stand π.workspaces id id') (at_ at' : Instant) (inRange : Relational.InRange at') :
    Same time now (.deleteWorkspace id at_) (.deleteWorkspace id' at') m r
      (fun a b m' r' => b = a ∧ Coupled π agreed time time' m' r')
      (Coupled π agreed time time') := by
  have sane := h.sane.answer (.deleteWorkspace id at_) time
  have sound := Relational.answer_sound h.sound (.deleteWorkspace id' at') now
  have stored : Relational.answer now (.deleteWorkspace id' at') r = _ :=
    Relational.deleteWorkspace_eq inRange
  rw [Relational.eraseWorkspace_eq h.documents] at stored
  have emptied := h.tables.deleteWorkspace h.paired stand at_ (Relational.keep at')
  generalize deleted : m.tables.deleteWorkspace id at_ = x at emptied
  generalize deleted' : r.tables.deleteWorkspace id' (Relational.keep at') = x' at emptied
  rw [deleted'] at stored
  cases emptied with
  | none =>
    have missing : Memory.answer time (.deleteWorkspace id at_) m = (m, .error .notFound) := by
      simp only [Memory.answer, Memory.deleteWorkspace, deleted]
    exact .of_eq missing stored (.error ⟨rfl, h⟩)
  | @some x x' emptied =>
    have made : Memory.answer time (.deleteWorkspace id at_) m =
        ({ m with tables := x.1 }, .ok x.2) := by
      simp only [Memory.answer, Memory.deleteWorkspace, deleted]
    rw [made] at sane
    rw [stored] at sound
    exact .of_eq made stored (.ok ⟨emptied.2, h.restate sane sound emptied.1
      (h.dated.deleteWorkspace deleted) (h.dated'.deleteWorkspace deleted')⟩)

theorem addDocument (h : Coupled π agreed time (Relational.keep now) m r) {new : NewDocument}
    {inside : Int} (there : (m.tables.anyWorkspace? new.workspace).isSome = true)
    (paired : (new.workspace, inside) ∈ π.workspaces)
    (free : m.tables.slugExists new.workspace new.slug none = false) :
    let a := new.row m.nextId time
    let b := r.documentRow { new with workspace := inside } now
    Memory.createDocument new time m = (m.take (m.tables.addDocument a), .ok a) ∧
      a.Alike (π.addDocument a b) b ∧
      Coupled (π.addDocument a b) agreed time (Relational.keep now)
        (m.take (m.tables.addDocument a))
        (r.withDocument { new with workspace := inside } now) := by
  intro a b
  have made : Memory.createDocument new time m = (m.take (m.tables.addDocument a), .ok a) := by
    simp [Memory.createDocument, free, Option.isSome_iff_ne_none.mp there, a]
  have sane := h.sane.answer (.createDocument new) time
  simp only [Memory.answer, made] at sane
  have most : r.sequences.Before r.numberDocument.sequences :=
    { Sequences.Before.refl _ with documents := Nat.le_succ _ }
  have alike : a.Alike (π.addDocument a b) b :=
    ⟨List.mem_append_right _ (List.mem_singleton_self _), paired, rfl, rfl, rfl, rfl, rfl⟩
  have pairs : Paired (π.addDocument a b) (m.take (m.tables.addDocument a)).numbers
      r.numberDocument.sequences :=
    { h.paired.later (before_take m (m.tables.addDocument a)) most with
      documents := h.paired.documents.snoc }
  have within : π.Within (π.addDocument a b) := π.within_addDocument a b
  refine ⟨made, alike, h.users, sane, ⟨h.sound.owners⟩, pairs,
    (h.tables.mono within).addDocument alike, ?_, ?_⟩
  · exact h.dated.addDocument (Instant.le_refl _) (before_take m _) rfl rfl (Nat.lt_succ_self _)
  · exact h.dated'.addDocument (Instant.le_refl _) most rfl rfl (Nat.lt_succ_self _)

theorem addVersion (h : Coupled π agreed time (Relational.keep now) m r) {new : NewVersion}
    {on : Int} (there : (m.tables.document? new.document).isSome = true)
    (paired : (new.document, on) ∈ π.documents)
    (known : ∀ author ∈ new.author, author ∈ m.users) :
    let a := m.nextVersion new time
    let b := r.nextVersion { new with document := on } now
    Memory.createNextVersion new time m = (m.take (m.tables.addVersion a), .ok a) ∧
      a.Alike (π.addVersion a b) b ∧
      Coupled (π.addVersion a b) agreed time (Relational.keep now)
        (m.take (m.tables.addVersion a))
        { r.numberVersion with tables := r.tables.addVersion b } := by
  intro a b
  have stand : Stand π.documents new.document on := h.paired.documents.stand _ paired
  have made : Memory.createNextVersion new time m = (m.take (m.tables.addVersion a), .ok a) := by
    have nobody : (new.author.filter fun author => !m.users.contains author) = none := by
      cases given : new.author with
      | none => rfl
      | some author => simp [known author given]
    have present : (m.tables.document? new.document).isNone = false :=
      Option.isNone_eq_false_iff.mpr there
    simp only [Memory.createNextVersion, h.sane.works, present, nobody, Bool.false_eq_true, if_false]
    rfl
  have sane := h.sane.answer (.createNextVersion new) time
  simp only [Memory.answer, made] at sane
  have alike : a.Alike (π.addVersion a b) b :=
    ⟨List.mem_append_right _ (List.mem_singleton_self _), paired, rfl,
      congrArg (· + 1) (h.tables.lastNumber stand), rfl, rfl⟩
  have most : r.sequences.Before r.numberVersion.sequences :=
    { Sequences.Before.refl _ with versions := Nat.le_succ _ }
  have pairs := h.paired.later (before_take m (m.tables.addVersion a)) most
  have within : π.Within (π.addVersion a b) := π.within_addVersion a b
  have dated := h.dated.later (Instant.le_refl _) (before_take m (m.tables.addVersion a))
  have dated' := h.dated'.later (Instant.le_refl _) most
  exact ⟨made, alike, h.users, sane, ⟨h.sound.owners⟩,
    ⟨pairs.workspaces, pairs.documents, h.paired.versions.snoc, pairs.shares⟩,
    (h.tables.mono within).addVersion alike,
    ⟨dated.workspaces, dated.documents, dated.shares⟩,
    ⟨dated'.workspaces, dated'.documents, dated'.shares⟩⟩

theorem isSome_rel {R : α → β → Prop} {x : Option α} {y : Option β} (h : Option.Rel R x y) :
    y.isSome = x.isSome := by
  cases h <;> rfl

theorem createDocument (h : Coupled π agreed time (Relational.keep now) m r) (new : NewDocument)
    (first : Option FirstVersion) {inside : Int}
    (there : (m.tables.anyWorkspace? new.workspace).isSome = true)
    (paired : (new.workspace, inside) ∈ π.workspaces)
    (title : Relational.isSendable new.title = true)
    (slug : Relational.isSendable new.slug = true) (shortTitle : new.title.length ≤ 255)
    (shortSlug : new.slug.length ≤ 255)
    (content : ∀ f ∈ first, Relational.isSendable f.content = true)
    (note : ∀ f ∈ first, ∀ text ∈ f.note, Relational.isSendable text = true ∧ text.length ≤ 500)
    (known : ∀ f ∈ first, ∀ author ∈ f.author, author ∈ m.users) :
    Same time now (.createDocumentWithVersion new first)
      (.createDocumentWithVersion { new with workspace := inside } first) m r
      (fun a b m' r' => a.1.Alike (π.addDetail a b) b.1 ∧
        Option.Rel (Version.Alike (π.addDetail a b)) a.2 b.2 ∧
        Coupled (π.addDetail a b) agreed time (Relational.keep now) m' r')
      (Coupled π agreed time (Relational.keep now)) := by
  have stand : Stand π.workspaces new.workspace inside := h.paired.workspaces.stand _ paired
  have there' : (r.tables.anyWorkspace? inside).isSome = true :=
    (isSome_rel (h.tables.anyWorkspace stand)).trans there
  have stored : Relational.answer now
      (.createDocumentWithVersion { new with workspace := inside } first) r = _ :=
    Relational.createDocumentWithVersion_eq title slug shortTitle shortSlug there' content note
      (h.users.symm ▸ known)
  rw [h.tables.slugExists stand new.slug .none] at stored
  cases taken : m.tables.slugExists new.workspace new.slug none with
  | true =>
    rw [taken, if_pos rfl] at stored
    have refused : Memory.answer time (.createDocumentWithVersion new first) m =
        (m, .error (.duplicate Index.documentSlug.name)) := by
      simp [Memory.answer, Memory.createDocumentWithVersion, Memory.createDocument, taken,
        Option.isSome_iff_ne_none.mp there]
    have most : r.sequences.Before r.numberDocument.sequences :=
      { Sequences.Before.refl _ with documents := Nat.le_succ _ }
    exact .of_eq refused stored (.error ⟨rfl, h.spend most⟩)
  | false =>
    rw [taken, if_neg Bool.false_ne_true] at stored
    obtain ⟨made, alike, coupled⟩ := h.addDocument there paired taken
    let a := new.row m.nextId time
    let m₁ := m.take (m.tables.addDocument a)
    cases first with
    | none =>
      have made : Memory.answer time (.createDocumentWithVersion new none) m =
          (m₁, .ok (a, none)) := by
        simp only [Memory.answer, Memory.createDocumentWithVersion, made]
        rfl
      exact .of_eq made stored (.ok ⟨alike, .none, coupled⟩)
    | some f =>
      have found := Relational.addDocument_found m.tables (d := new.row m.nextId time) rfl
      let v := m₁.nextVersion (f.of a.id) time
      obtain ⟨added, version, coupled⟩ : Memory.createNextVersion (f.of a.id) time m₁ =
          (m₁.take (m₁.tables.addVersion v), .ok v) ∧ _ := coupled.addVersion found
        (List.mem_append_right _ (List.mem_singleton_self _)) (known f rfl)
      have made : Memory.answer time (.createDocumentWithVersion new (some f)) m =
          (m₁.take (m₁.tables.addVersion v), .ok (a, some v)) := by
        simp only [Memory.answer, Memory.createDocumentWithVersion, made]
        rw [added]
      exact .of_eq made stored (.ok ⟨alike.mono (Pairing.within_addVersion _ _ _), .some version,
        coupled⟩)

theorem createNextVersion (h : Coupled π agreed time (Relational.keep now) m r) (new : NewVersion)
    {on : Int} (paired : (new.document, on) ∈ π.documents)
    (content : Relational.isSendable new.content = true)
    (note : ∀ text ∈ new.note, Relational.isSendable text = true ∧ text.length ≤ 500)
    (known : ∀ author ∈ new.author, author ∈ m.users) :
    Same time now (.createNextVersion new) (.createNextVersion { new with document := on }) m r
      (fun a b m' r' => a.Alike (π.addVersion a b) b ∧
        Coupled (π.addVersion a b) agreed time (Relational.keep now) m' r')
      (Coupled π agreed time (Relational.keep now)) := by
  have stand : Stand π.documents new.document on := h.paired.documents.stand _ paired
  have stored : Relational.answer now (.createNextVersion { new with document := on }) r = _ :=
    Relational.createNextVersion_eq content note (h.users.symm ▸ known)
  rw [isSome_rel (h.tables.document stand)] at stored
  cases there : (m.tables.document? new.document).isSome with
  | true =>
    rw [there, if_pos rfl] at stored
    obtain ⟨made, alike, coupled⟩ := h.addVersion there paired known
    exact .of_eq made stored (.ok ⟨alike, coupled⟩)
  | false =>
    rw [there, if_neg Bool.false_ne_true] at stored
    have missing : Memory.answer time (.createNextVersion new) m = (m, .error .notFound) := by
      have absent : (m.tables.document? new.document).isNone = true :=
        Option.isSome_eq_false_iff.mp there
      simp only [Memory.answer, Memory.createNextVersion, h.sane.works, absent, Bool.false_eq_true,
        if_false, if_true]
    exact .of_eq missing stored (.error ⟨rfl, h⟩)

theorem slugExists_change (h : Coupled π agreed time time' m r) {id id' : Int}
    (stand : Stand π.documents id id') {d d' : Document} (found : m.tables.document? id = some d)
    (alike : d.Alike π d') (slug : Option String) :
    r.tables.slugExists d'.workspace (slug.getD d'.slug) (some id') =
      slug.any fun slug => m.tables.slugExists d.workspace slug (some id) := by
  rw [h.tables.slugExists (h.paired.workspaces.stand _ alike.workspace) _ (.some stand)]
  cases slug with
  | some slug => rfl
  | none =>
    have number : d.id = id := key_of_find found
    have own := h.sane.unique.own_slug (List.mem_of_find?_eq_some found) (also_of_find found)
    rw [number] at own
    rw [Option.getD_none, alike.slug, own]
    rfl

theorem updateDocument (h : Coupled π agreed time time' m r) {id id' : Int}
    (stand : Stand π.documents id id') {changes : DocumentChanges}
    (title : ∀ text ∈ changes.title, Relational.isSendable text = true ∧ text.length ≤ 255)
    (slug : ∀ text ∈ changes.slug, Relational.isSendable text = true ∧ text.length ≤ 255) :
    Same time now (.updateDocument id changes) (.updateDocument id' changes) m r
      (fun a b m' r' => a.Alike π b ∧ Coupled π agreed time time' m' r')
      (Coupled π agreed time time') := by
  have sane := h.sane.answer (.updateDocument id changes) time
  have sound := Relational.answer_sound h.sound (.updateDocument id' changes) now
  have stored : Relational.answer now (.updateDocument id' changes) r = _ :=
    Relational.updateDocument_eq title slug
  have there := h.tables.document stand
  generalize found : m.tables.document? id = d at there
  generalize found' : r.tables.document? id' = d' at there
  rw [found'] at stored
  cases there with
  | none =>
    have missing : Memory.answer time (.updateDocument id changes) m = (m, .error .notFound) := by
      simp [Memory.answer, Memory.updateDocument, found]
    exact .of_eq missing stored (.error ⟨rfl, h⟩)
  | @some d d' alike =>
    simp only [h.slugExists_change stand found alike changes.slug] at stored
    cases taken : changes.slug.any fun slug => m.tables.slugExists d.workspace slug (some id) with
    | true =>
      rw [taken, if_pos rfl] at stored
      have refused : Memory.answer time (.updateDocument id changes) m =
          (m, .error (.duplicate Index.documentSlug.name)) := by
        simp only [Memory.answer, Memory.updateDocument, found, taken, if_true]
      exact .of_eq refused stored (.error ⟨rfl, h⟩)
    | false =>
      rw [taken, if_neg Bool.false_ne_true] at stored
      have made : Memory.answer time (.updateDocument id changes) m =
          ({ m with tables := m.tables.setDocument (d.change changes time) },
            .ok (d.change changes time)) := by
        simp only [Memory.answer, Memory.updateDocument, found, taken, Bool.false_eq_true, if_false]
      rw [made] at sane
      rw [stored] at sound
      have changed : (d.change changes time).Alike π (d'.change changes (Relational.keep now)) :=
        ⟨alike.paired, alike.workspace, congrArg changes.title.getD alike.title,
          congrArg changes.kind.getD alike.kind, congrArg changes.slug.getD alike.slug,
          congrArg changes.isPublic.getD alike.isPublic, alike.live⟩
      refine .of_eq made stored (.ok ⟨changed, h.restate sane sound
        (h.tables.setDocument h.paired changed) ?_ ?_⟩)
      · exact h.dated.setDocument (List.mem_of_find?_eq_some found) rfl
      · exact h.dated'.setDocument (List.mem_of_find?_eq_some found') rfl

theorem deleteDocument (h : Coupled π agreed time time' m r) {id id' : Int}
    (stand : Stand π.documents id id') (at_ at' : Instant) (inRange : Relational.InRange at') :
    Same time now (.deleteDocument id at_) (.deleteDocument id' at') m r
      (fun a b m' r' => b = a ∧ Coupled π agreed time time' m' r')
      (Coupled π agreed time time') := by
  have sane := h.sane.answer (.deleteDocument id at_) time
  have sound := Relational.answer_sound h.sound (.deleteDocument id' at') now
  have stored : Relational.answer now (.deleteDocument id' at') r = _ :=
    Relational.deleteDocument_eq inRange
  have emptied := h.tables.deleteDocument h.paired stand at_ (Relational.keep at')
  generalize deleted : m.tables.deleteDocument id at_ = x at emptied
  generalize deleted' : r.tables.deleteDocument id' (Relational.keep at') = x' at emptied
  rw [deleted'] at stored
  cases emptied with
  | none =>
    have missing : Memory.answer time (.deleteDocument id at_) m = (m, .error .notFound) := by
      simp only [Memory.answer, Memory.deleteDocument, deleted]
    exact .of_eq missing stored (.error ⟨rfl, h⟩)
  | @some x x' emptied =>
    have made : Memory.answer time (.deleteDocument id at_) m =
        ({ m with tables := x.1 }, .ok x.2) := by
      simp only [Memory.answer, Memory.deleteDocument, deleted]
    rw [made] at sane
    rw [stored] at sound
    exact .of_eq made stored (.ok ⟨emptied.2, h.restate sane sound emptied.1
      (h.dated.deleteDocument deleted) (h.dated'.deleteDocument deleted')⟩)

theorem createShare (h : Coupled π agreed time (Relational.keep now) m r) (new : NewShare)
    {on : Int} (paired : (new.document, on) ∈ π.documents)
    (there : (m.tables.anyDocument? new.document).isSome = true)
    (sendable : Relational.isSendable new.token = true) (short : new.token.length ≤ 64)
    (inRange : ∀ at_ ∈ new.expiresAt, Relational.InRange at_)
    (whole : ∀ at_ ∈ new.expiresAt, Relational.keep at_ = at_)
    (lasting : ∀ at_ ∈ new.expiresAt, agreed at_)
    (known : ∀ user ∈ new.user, user ∈ m.users)
    (unheld : ∀ user ∈ new.user, m.tables.shareForUser? new.document user = none) :
    Same time now (.createShare new) (.createShare { new with document := on }) m r
      (fun a b m' r' => a.Alike (π.addShare a b) b ∧
        Coupled (π.addShare a b) agreed time (Relational.keep now) m' r')
      fun m' r' => m' = m ∧ Coupled π agreed time (Relational.keep now) m' r' := by
  have sane := h.sane.answer (.createShare new) time
  have sound := Relational.answer_sound h.sound (.createShare { new with document := on }) now
  have stand : Stand π.documents new.document on := h.paired.documents.stand _ paired
  have unheld' : ∀ user ∈ new.user, r.tables.shareForUser? on user = none := by
    intro user given
    have found := h.tables.shareForUser stand user
    rw [unheld user given] at found
    exact Option.isNone_iff_eq_none.mp (Option.isSome_eq_false_iff.mp (isSome_rel found))
  have stored : Relational.answer now (.createShare { new with document := on }) r = _ :=
    Relational.createShare_eq sendable short inRange unheld'
      ((isSome_rel (h.tables.anyDocument stand)).trans there) (h.users.symm ▸ known)
  have most : r.sequences.Before r.numberShare.sequences :=
    { Sequences.Before.refl _ with shares := Nat.le_succ _ }
  -- The user is known and holds no other share, so that only the token is left to clash.
  have refusal : m.shareRefusal? new =
      if m.tables.tokenExists new.token then some (.duplicate Index.shareToken.name) else none := by
    unfold Memory.shareRefusal?
    cases given : new.user with
    | none => rfl
    | some user => simp [known user given, unheld user given]
  rw [h.tables.tokenExists] at stored
  cases taken : m.tables.tokenExists new.token with
  | true =>
    rw [taken, if_pos rfl] at stored refusal
    have refused : Memory.answer time (.createShare new) m =
        (m, .error (.duplicate Index.shareToken.name)) := by
      simp only [Memory.answer, Memory.createShare, refusal]
    exact .of_eq refused stored (.error ⟨rfl, rfl, h.spend most⟩)
  | false =>
    rw [taken, if_neg Bool.false_ne_true] at stored refusal
    let a := new.row m.nextId time
    let b := (Relational.keptShare { new with document := on }).row r.shareNumber
      (Relational.keep now)
    have made : Memory.answer time (.createShare new) m =
        (m.take (m.tables.addShare a), .ok a) := by
      simp only [Memory.answer, Memory.createShare, refusal]
      rfl
    rw [made] at sane
    rw [stored] at sound
    have expiry : new.expiresAt.map Relational.keep = new.expiresAt := by
      cases given : new.expiresAt with
      | none => rfl
      | some at_ => rw [Option.map_some, whole at_ given]
    have alike : a.Alike (π.addShare a b) b :=
      ⟨List.mem_append_right _ (List.mem_singleton_self _), paired, rfl, rfl, rfl, expiry, rfl⟩
    have pairs := h.paired.later (before_take m (m.tables.addShare a)) most
    have within : π.Within (π.addShare a b) := π.within_addShare a b
    refine .of_eq made stored (.ok ⟨alike, h.users, sane, sound, ?_,
      (h.tables.mono within).addShare ⟨alike, lasting⟩, ?_, ?_⟩)
    · exact { pairs with
        shares := h.paired.shares.snoc }
    · exact h.dated.addShare (Instant.le_refl _) (before_take m _) rfl rfl (Nat.lt_succ_self _)
    · exact h.dated'.addShare (Instant.le_refl _) most rfl rfl (Nat.lt_succ_self _)

theorem updateShare (h : Coupled π agreed time time' m r) {id id' : Int}
    (stand : Stand π.shares id id') (changes : ShareChanges)
    (inRange : ∀ t ∈ changes.expiresAt, ∀ at_ ∈ t, Relational.InRange at_)
    (whole : ∀ t ∈ changes.expiresAt, ∀ at_ ∈ t, Relational.keep at_ = at_)
    (lasting : ∀ t ∈ changes.expiresAt, ∀ at_ ∈ t, agreed at_) :
    Same time now (.updateShare id changes) (.updateShare id' changes) m r
      (fun a b m' r' => a.Alike π b ∧ Coupled π agreed time time' m' r')
      (Coupled π agreed time time') := by
  have sane := h.sane.answer (.updateShare id changes) time
  have sound := Relational.answer_sound h.sound (.updateShare id' changes) now
  have kept : (changes.expiresAt.map fun t => t.map Relational.keep) = changes.expiresAt := by
    cases given : changes.expiresAt with
    | none => rfl
    | some t =>
      cases t with
      | none => rfl
      | some at_ => rw [Option.map_some, Option.map_some, whole _ given at_ rfl]
  have stored : Relational.answer now (.updateShare id' changes) r = _ :=
    Relational.updateShare_eq inRange
  rw [kept] at stored
  have there := h.tables.share stand
  generalize found : m.tables.share? id = s at there
  generalize found' : r.tables.share? id' = s' at there
  rw [found'] at stored
  cases there with
  | none =>
    have missing : Memory.answer time (.updateShare id changes) m = (m, .error .notFound) := by
      simp only [Memory.answer, Memory.updateShare, found]
    exact .of_eq missing stored (.error ⟨rfl, h⟩)
  | @some s s' granted =>
    have made : Memory.answer time (.updateShare id changes) m =
        ({ m with tables := m.tables.setShare (s.change changes time) },
          .ok (s.change changes time)) := by
      simp only [Memory.answer, Memory.updateShare, found]
    rw [made] at sane
    rw [stored] at sound
    have changed : Tables.Twin.Granted π agreed (s.change changes time)
        (s'.change changes (Relational.keep now)) := by
      refine ⟨⟨granted.1.paired, granted.1.document, granted.1.user, granted.1.token,
        congrArg changes.permission.getD granted.1.permission,
        congrArg changes.expiresAt.getD granted.1.expiresAt, granted.1.live⟩, ?_⟩
      intro at_ expires
      cases given : changes.expiresAt with
      | none =>
        refine granted.2 at_ ?_
        simpa [Share.change, given] using expires
      | some t =>
        refine lasting t given at_ ?_
        simpa [Share.change, given] using expires
    refine .of_eq made stored (.ok ⟨changed.1, h.restate sane sound
      (h.tables.setShare h.paired changed) ?_ ?_⟩)
    · exact h.dated.setShare (List.mem_of_find?_eq_some found) rfl
    · exact h.dated'.setShare (List.mem_of_find?_eq_some found') rfl

theorem deleteShare (h : Coupled π agreed time time' m r) {id id' : Int}
    (stand : Stand π.shares id id') (at_ at' : Instant) (inRange : Relational.InRange at') :
    Same time now (.deleteShare id at_) (.deleteShare id' at') m r
      (fun _ _ m' r' => Coupled π agreed time time' m' r') (Coupled π agreed time time') := by
  have sane := h.sane.answer (.deleteShare id at_) time
  have sound := Relational.answer_sound h.sound (.deleteShare id' at') now
  have stored : Relational.answer now (.deleteShare id' at') r = _ :=
    Relational.deleteShare_eq inRange
  have left := h.tables.deleteShare h.paired stand at_ (Relational.keep at')
  generalize deleted : m.tables.deleteShare id at_ = t at left
  generalize deleted' : r.tables.deleteShare id' (Relational.keep at') = t' at left
  rw [deleted'] at stored
  cases left with
  | none =>
    have missing : Memory.answer time (.deleteShare id at_) m = (m, .error .notFound) := by
      simp only [Memory.answer, Memory.deleteShare, deleted]
    exact .of_eq missing stored (.error ⟨rfl, h⟩)
  | @some t t' left =>
    have made : Memory.answer time (.deleteShare id at_) m = ({ m with tables := t }, .ok ()) := by
      simp only [Memory.answer, Memory.deleteShare, deleted]
    rw [made] at sane
    rw [stored] at sound
    exact .of_eq made stored (.ok (h.restate sane sound left (h.dated.deleteShare deleted)
      (h.dated'.deleteShare deleted')))

end Coupled

end DiagramShare.Repository
