import DiagramShare.Proofs.Served
import DiagramShare.Proofs.Shape
import DiagramShare.Proofs.Wording

/-! The rows that requests lead to are well formed. Every text that an operation gives to a store has
been let through by the rules or was made by them, and a store writes it as it is. -/
namespace DiagramShare

open DiagramShare.Text (IsLine)
open DiagramShare.Time (Instant)

structure Workspace.WellFormed (w : Workspace) : Prop where
  name : IsLine 255 w.name
  description : ∀ text ∈ w.description, IsLine 1000 text

structure Document.WellFormed (d : Document) : Prop where
  title : IsLine 255 d.title
  slug : Slug.IsSlug d.slug

structure Version.WellFormed (v : Version) : Prop where
  note : ∀ text ∈ v.note, IsLine 500 text

theorem Workspace.WellFormed.change {w : Workspace} (h : w.WellFormed) {changes : WorkspaceChanges}
    (name : ∀ text ∈ changes.name, IsLine 255 text)
    (description : ∀ d ∈ changes.description, ∀ text ∈ d, IsLine 1000 text) (now : Instant) :
    (w.change changes now).WellFormed := by
  constructor
  · cases given : changes.name with
    | none => simpa [Workspace.change, given] using h.name
    | some text => simpa [Workspace.change, given] using name text given
  · cases given : changes.description with
    | none => simpa [Workspace.change, given] using h.description
    | some d => simpa [Workspace.change, given] using description d given

theorem Document.WellFormed.change {d : Document} (h : d.WellFormed) {changes : DocumentChanges}
    (title : ∀ text ∈ changes.title, IsLine 255 text)
    (slug : ∀ text ∈ changes.slug, Slug.IsSlug text) (now : Instant) :
    (d.change changes now).WellFormed := by
  constructor
  · cases given : changes.title with
    | none => simpa [Document.change, given] using h.title
    | some text => simpa [Document.change, given] using title text given
  · cases given : changes.slug with
    | none => simpa [Document.change, given] using h.slug
    | some text => simpa [Document.change, given] using slug text given

namespace Repository

structure Tables.WellFormed (t : Tables) : Prop where
  workspaces : ∀ w ∈ t.workspaces, w.WellFormed
  documents : ∀ d ∈ t.documents, d.WellFormed
  versions : ∀ v ∈ t.versions, v.WellFormed

def Call.isWorded : Call β → Bool
  | .createWorkspace new =>
    decide (IsLine 255 new.name) && new.description.all fun text => decide (IsLine 1000 text)
  | .updateWorkspace _ changes =>
    (changes.name.all fun name => decide (IsLine 255 name)) &&
      changes.description.all fun d => d.all fun text => decide (IsLine 1000 text)
  | .createDocument new => decide (IsLine 255 new.title) && Slug.isSlug new.slug
  | .createDocumentWithVersion new first =>
    decide (IsLine 255 new.title) && Slug.isSlug new.slug &&
      first.all fun f => f.note.all fun text => decide (IsLine 500 text)
  | .updateDocument _ changes =>
    (changes.title.all fun title => decide (IsLine 255 title)) && changes.slug.all Slug.isSlug
  | .createNextVersion new => new.note.all fun text => decide (IsLine 500 text)
  | _ => true

theorem createWorkspace_worded {new : NewWorkspace} :
    (Call.createWorkspace new).isWorded = true ↔
      IsLine 255 new.name ∧ ∀ text ∈ new.description, IsLine 1000 text := by
  simp only [Call.isWorded, Bool.and_eq_true, decide_eq_true_eq, Option.all_eq_true,
    Option.mem_def]

theorem updateWorkspace_worded {id : Int} {changes : WorkspaceChanges} :
    (Call.updateWorkspace id changes).isWorded = true ↔
      (∀ text ∈ changes.name, IsLine 255 text) ∧
        ∀ d ∈ changes.description, ∀ text ∈ d, IsLine 1000 text := by
  simp only [Call.isWorded, Bool.and_eq_true, decide_eq_true_eq, Option.all_eq_true,
    Option.mem_def]

theorem createDocument_worded {new : NewDocument} :
    (Call.createDocument new).isWorded = true ↔
      IsLine 255 new.title ∧ Slug.IsSlug new.slug := by
  simp only [Call.isWorded, Bool.and_eq_true, decide_eq_true_eq, Slug.isSlug_iff]

theorem createDocumentWithVersion_worded {new : NewDocument} {first : Option FirstVersion} :
    (Call.createDocumentWithVersion new first).isWorded = true ↔
      IsLine 255 new.title ∧ Slug.IsSlug new.slug ∧
        ∀ f ∈ first, ∀ text ∈ f.note, IsLine 500 text := by
  simp only [Call.isWorded, Bool.and_eq_true, decide_eq_true_eq, Slug.isSlug_iff,
    Option.all_eq_true, Option.mem_def, and_assoc]

theorem updateDocument_worded {id : Int} {changes : DocumentChanges} :
    (Call.updateDocument id changes).isWorded = true ↔
      (∀ text ∈ changes.title, IsLine 255 text) ∧ ∀ text ∈ changes.slug, Slug.IsSlug text := by
  simp only [Call.isWorded, Bool.and_eq_true, decide_eq_true_eq, Slug.isSlug_iff,
    Option.all_eq_true, Option.mem_def]

theorem createNextVersion_worded {new : NewVersion} :
    (Call.createNextVersion new).isWorded = true ↔ ∀ text ∈ new.note, IsLine 500 text := by
  simp only [Call.isWorded, decide_eq_true_eq, Option.all_eq_true, Option.mem_def]

namespace Tables.WellFormed

variable {t t' : Tables}

theorem empty : Tables.empty.WellFormed :=
  ⟨List.forall_mem_nil _, List.forall_mem_nil _, List.forall_mem_nil _⟩

theorem addWorkspace (h : t.WellFormed) {w : Workspace} (formed : w.WellFormed) :
    (t.addWorkspace w).WellFormed :=
  ⟨List.forall_mem_append.mpr ⟨h.workspaces, List.forall_mem_singleton.mpr formed⟩, h.documents,
    h.versions⟩

theorem addDocument (h : t.WellFormed) {d : Document} (formed : d.WellFormed) :
    (t.addDocument d).WellFormed :=
  ⟨h.workspaces, List.forall_mem_append.mpr ⟨h.documents, List.forall_mem_singleton.mpr formed⟩,
    h.versions⟩

theorem addVersion (h : t.WellFormed) {v : Version} (formed : v.WellFormed) :
    (t.addVersion v).WellFormed :=
  ⟨h.workspaces, h.documents,
    List.forall_mem_append.mpr ⟨h.versions, List.forall_mem_singleton.mpr formed⟩⟩

theorem setWorkspace (h : t.WellFormed) {w : Workspace} (formed : w.WellFormed) :
    (t.setWorkspace w).WellFormed :=
  ⟨forall_updateWhere (fun _ _ _ => formed) fun v hv _ => h.workspaces v hv, h.documents,
    h.versions⟩

theorem setDocument (h : t.WellFormed) {d : Document} (formed : d.WellFormed) :
    (t.setDocument d).WellFormed :=
  ⟨h.workspaces, forall_updateWhere (fun _ _ _ => formed) fun e he _ => h.documents e he,
    h.versions⟩

theorem dropDocument (h : t.WellFormed) (id : Int) : (t.dropDocument id).WellFormed :=
  ⟨h.workspaces, fun d hd => h.documents d (List.mem_filter.mp hd).1, h.versions⟩

/-- A tombstone has the texts of the row. -/
theorem tombstoned (h : t.WellFormed) {p : Document → Bool} {time : Instant} :
    ∀ d ∈ updateWhere p (fun d => d.tombstone time) t.documents, d.WellFormed :=
  forall_updateWhere (fun d hd _ => ⟨(h.documents d hd).title, (h.documents d hd).slug⟩)
    fun d hd _ => h.documents d hd

theorem deleteWorkspace (h : t.WellFormed) {id : Int} {time : Instant} {summary : CascadeSummary}
    (deleted : t.deleteWorkspace id time = some (t', summary)) : t'.WellFormed := by
  rw [Tables.deleteWorkspace] at deleted
  split at deleted
  · cases deleted
  · rename_i w found
    cases deleted
    have formed := h.workspaces w (List.mem_of_find?_eq_some found)
    have set := h.setWorkspace (w := w.tombstone time) ⟨formed.name, formed.description⟩
    exact ⟨set.workspaces, h.tombstoned, h.versions⟩

theorem deleteDocument (h : t.WellFormed) {id : Int} {time : Instant} {summary : CascadeSummary}
    (deleted : t.deleteDocument id time = some (t', summary)) : t'.WellFormed := by
  rw [Tables.deleteDocument] at deleted
  split at deleted
  · cases deleted
  · rename_i d found
    cases deleted
    have formed := h.documents d (List.mem_of_find?_eq_some found)
    have set := h.setDocument (d := d.tombstone time) ⟨formed.title, formed.slug⟩
    exact ⟨h.workspaces, set.documents, h.versions⟩

end Tables.WellFormed

namespace Memory

variable {m : Memory} {now : Instant}

theorem createDocument_wellFormed (h : m.tables.WellFormed) {new : NewDocument}
    (title : IsLine 255 new.title) (slug : Slug.IsSlug new.slug) :
    (createDocument new now m).1.tables.WellFormed := by
  unfold createDocument
  split
  · exact h
  · split
    · exact h
    · exact h.addDocument ⟨title, slug⟩

theorem createNextVersion_wellFormed (h : m.tables.WellFormed) {new : NewVersion}
    (note : ∀ text ∈ new.note, IsLine 500 text) :
    (createNextVersion new now m).1.tables.WellFormed := by
  unfold createNextVersion
  split
  · exact h
  · split
    · exact h
    · split
      · exact h
      · exact h.addVersion ⟨note⟩

theorem createDocumentWithVersion_wellFormed (h : m.tables.WellFormed) {new : NewDocument}
    {first : Option FirstVersion} (title : IsLine 255 new.title) (slug : Slug.IsSlug new.slug)
    (note : ∀ f ∈ first, ∀ text ∈ f.note, IsLine 500 text) :
    (createDocumentWithVersion new first now m).1.tables.WellFormed := by
  have made : (createDocument new now m).1.tables.WellFormed :=
    createDocument_wellFormed h title slug
  unfold createDocumentWithVersion
  split
  · rename_i result
    rwa [result] at made
  · rename_i m' d result
    rw [result] at made
    cases first with
    | none => exact made
    | some f =>
      have added : (createNextVersion (f.of d.id) now m').1.tables.WellFormed :=
        createNextVersion_wellFormed made (note f rfl)
      simp only
      split
      · rename_i result
        rwa [result] at added
      · rename_i result
        rw [result] at added
        exact added.dropDocument d.id

theorem answer_wellFormed (h : m.tables.WellFormed) {call : Call β} (worded : call.isWorded = true)
    (now : Instant) : (answer now call m).1.tables.WellFormed := by
  cases call with
  | ensureUser user => exact (m.kept_know user).tables ▸ h
  | createWorkspace new =>
    obtain ⟨name, description⟩ := createWorkspace_worded.mp worded
    rcases createWorkspace_cases new now m with ⟨e, he⟩ | ⟨_, hok⟩
    · exact (congrArg Prod.fst he) ▸ h
    · exact (congrArg Prod.fst hok) ▸ h.addWorkspace ⟨name, description⟩
  | updateWorkspace id changes =>
    obtain ⟨name, description⟩ := updateWorkspace_worded.mp worded
    rcases updateWorkspace_cases id changes now m with ⟨e, he⟩ | ⟨w, _, fits, hok⟩
    · exact (congrArg Prod.fst he) ▸ h
    · have formed := h.workspaces w (List.mem_of_find?_eq_some fits.1)
      exact (congrArg Prod.fst hok) ▸ h.setWorkspace (formed.change name description now)
  | deleteWorkspace id time =>
    change (deleteWorkspace id time m).1.tables.WellFormed
    unfold deleteWorkspace
    split
    · exact h
    · rename_i deleted
      exact h.deleteWorkspace deleted
  | createDocument new =>
    obtain ⟨title, slug⟩ := createDocument_worded.mp worded
    exact createDocument_wellFormed h title slug
  | createDocumentWithVersion new first =>
    obtain ⟨title, slug, note⟩ := createDocumentWithVersion_worded.mp worded
    exact createDocumentWithVersion_wellFormed h title slug note
  | updateDocument id changes =>
    obtain ⟨title, slug⟩ := updateDocument_worded.mp worded
    rcases updateDocument_cases id changes now m with ⟨e, he⟩ | ⟨d, _, fits, hok⟩
    · exact (congrArg Prod.fst he) ▸ h
    · have formed := h.documents d (List.mem_of_find?_eq_some fits.1)
      exact (congrArg Prod.fst hok) ▸ h.setDocument (formed.change title slug now)
  | deleteDocument id time =>
    change (deleteDocument id time m).1.tables.WellFormed
    unfold deleteDocument
    split
    · exact h
    · rename_i deleted
      exact h.deleteDocument deleted
  | createNextVersion new =>
    exact createNextVersion_wellFormed h (createNextVersion_worded.mp worded)
  | createShare new =>
    rcases createShare_cases new now m with ⟨e, he⟩ | ⟨_, hok⟩
    · exact (congrArg Prod.fst he) ▸ h
    · exact (congrArg Prod.fst hok) ▸ ⟨h.workspaces, h.documents, h.versions⟩
  | updateShare id changes =>
    rcases updateShare_cases id changes now m with ⟨e, he⟩ | ⟨s, _, _, hok⟩
    · exact (congrArg Prod.fst he) ▸ h
    · exact (congrArg Prod.fst hok) ▸ ⟨h.workspaces, h.documents, h.versions⟩
  | deleteShare id time =>
    rcases deleteShare_cases id time m with ⟨e, he⟩ | ⟨s, _, _, hok⟩
    · exact (congrArg Prod.fst he) ▸ h
    · exact (congrArg Prod.fst hok) ▸ ⟨h.workspaces, h.documents, h.versions⟩
  | _ => exact h

end Memory

namespace Relational

variable {r : Relational} {now : Instant}

theorem createWorkspace_wellFormed (h : r.tables.WellFormed) {new : NewWorkspace}
    (name : IsLine 255 new.name) (description : ∀ text ∈ new.description, IsLine 1000 text) :
    (createWorkspace new now r).1.tables.WellFormed := by
  simp only [createWorkspace, fit_ok name.short]
  split
  · exact h
  · rename_i sent
    obtain ⟨_, _, sent⟩ := bind_ok sent
    cases sent
    split
    · exact h
    · exact h.addWorkspace ⟨name, description⟩

theorem updateWorkspace_wellFormed (h : r.tables.WellFormed) (id : Int)
    {changes : WorkspaceChanges} (name : ∀ text ∈ changes.name, IsLine 255 text)
    (description : ∀ d ∈ changes.description, ∀ text ∈ d, IsLine 1000 text) :
    (updateWorkspace id changes now r).1.tables.WellFormed := by
  simp only [updateWorkspace, fit?_ok fun text given => (name text given).short]
  split
  · exact h
  · rename_i updated
    obtain ⟨_, _, updated⟩ := bind_ok updated
    obtain ⟨_, ⟨⟩, updated⟩ := bind_ok updated
    obtain ⟨w, found, updated⟩ := bind_ok updated
    obtain ⟨_, _, updated⟩ := bind_ok updated
    cases updated
    have stored := h.workspaces w (List.mem_of_find?_eq_some (Service.orNotFound_ok.mp found))
    exact h.setWorkspace (stored.change name description _)

theorem eraseWorkspace_wellFormed {t t' : Tables} (h : t.WellFormed) {id : Int} {time : Instant}
    {summary : CascadeSummary} (erased : eraseWorkspace t id time = some (t', summary)) :
    t'.WellFormed := by
  rw [eraseWorkspace] at erased
  split at erased
  · cases erased
  · rename_i w found
    cases erased
    have formed := h.workspaces w (List.mem_of_find?_eq_some found)
    have set := h.setWorkspace (w := w.tombstone time) ⟨formed.name, formed.description⟩
    exact ⟨set.workspaces, h.tombstoned, h.versions⟩

theorem deleteWorkspace_wellFormed (h : r.tables.WellFormed) (id : Int) (time : Instant) :
    (deleteWorkspace id time r).1.tables.WellFormed := by
  unfold deleteWorkspace
  split
  · exact h
  · split
    · exact h
    · rename_i erased
      exact eraseWorkspace_wellFormed h erased

theorem createDocument_wellFormed (h : r.tables.WellFormed) {new : NewDocument}
    (title : IsLine 255 new.title) (slug : Slug.IsSlug new.slug) :
    (createDocument new now r).1.tables.WellFormed := by
  have fits : new.slug.length ≤ 255 := slug.length_le
  simp only [createDocument, fit_ok title.short, fit_ok fits]
  split
  · exact h
  · rename_i sent
    obtain ⟨_, _, sent⟩ := bind_ok sent
    obtain ⟨_, ⟨⟩, sent⟩ := bind_ok sent
    obtain ⟨_, ⟨⟩, sent⟩ := bind_ok sent
    cases sent
    split
    · exact h
    · exact h.addDocument ⟨title, slug⟩

theorem createNextVersion_wellFormed (h : r.tables.WellFormed) {new : NewVersion}
    (note : ∀ text ∈ new.note, IsLine 500 text) :
    (createNextVersion new now r).1.tables.WellFormed := by
  simp only [createNextVersion, fit?_ok fun text given => (note text given).short]
  split
  · exact h
  · rename_i sent
    obtain ⟨_, _, sent⟩ := bind_ok sent
    obtain ⟨_, _, sent⟩ := bind_ok sent
    cases sent
    split
    · exact h
    · exact h.addVersion ⟨note⟩

theorem createDocumentWithVersion_wellFormed (h : r.tables.WellFormed) {new : NewDocument}
    {first : Option FirstVersion} (title : IsLine 255 new.title) (slug : Slug.IsSlug new.slug)
    (note : ∀ f ∈ first, ∀ text ∈ f.note, IsLine 500 text) :
    (createDocumentWithVersion new first now r).1.tables.WellFormed := by
  have made : (createDocument new now r).1.tables.WellFormed :=
    createDocument_wellFormed h title slug
  unfold createDocumentWithVersion
  split
  · rename_i result
    rwa [result] at made
  · rename_i r' d result
    rw [result] at made
    cases first with
    | none => exact made
    | some f =>
      have added : (createNextVersion (f.of d.id) now r').1.tables.WellFormed :=
        createNextVersion_wellFormed made (note f rfl)
      simp only
      split
      · rename_i result
        rwa [result] at added
      · exact h

theorem updateDocument_wellFormed (h : r.tables.WellFormed) (id : Int)
    {changes : DocumentChanges} (title : ∀ text ∈ changes.title, IsLine 255 text)
    (slug : ∀ text ∈ changes.slug, Slug.IsSlug text) :
    (updateDocument id changes now r).1.tables.WellFormed := by
  have fits : ∀ text ∈ changes.slug, text.length ≤ 255 := fun text given =>
    (slug text given).length_le
  simp only [updateDocument, fit?_ok fun text given => (title text given).short, fit?_ok fits]
  split
  · exact h
  · rename_i updated
    obtain ⟨_, _, updated⟩ := bind_ok updated
    obtain ⟨_, ⟨⟩, updated⟩ := bind_ok updated
    obtain ⟨_, ⟨⟩, updated⟩ := bind_ok updated
    obtain ⟨d, found, updated⟩ := bind_ok updated
    obtain ⟨_, _, updated⟩ := bind_ok updated
    cases updated
    have stored := h.documents d (List.mem_of_find?_eq_some (Service.orNotFound_ok.mp found))
    exact h.setDocument (stored.change title slug _)

theorem deleteDocument_wellFormed (h : r.tables.WellFormed) (id : Int) (time : Instant) :
    (deleteDocument id time r).1.tables.WellFormed := by
  unfold deleteDocument
  split
  · exact h
  · split
    · exact h
    · rename_i deleted
      exact h.deleteDocument deleted

theorem createShare_wellFormed (h : r.tables.WellFormed) (new : NewShare) :
    (createShare new now r).1.tables.WellFormed := by
  simp only [createShare]
  split
  · exact h
  · split
    · exact h
    · exact ⟨h.workspaces, h.documents, h.versions⟩

theorem updateShare_wellFormed (h : r.tables.WellFormed) (id : Int) (changes : ShareChanges) :
    (updateShare id changes now r).1.tables.WellFormed := by
  simp only [updateShare]
  split
  · exact h
  · exact ⟨h.workspaces, h.documents, h.versions⟩

theorem deleteShare_wellFormed (h : r.tables.WellFormed) (id : Int) (time : Instant) :
    (deleteShare id time r).1.tables.WellFormed := by
  unfold deleteShare Tables.deleteShare
  split
  · exact h
  · cases r.tables.share? id with
    | none => exact h
    | some s => exact ⟨h.workspaces, h.documents, h.versions⟩

theorem answer_wellFormed (h : r.tables.WellFormed) {call : Call β}
    (worded : call.isWorded = true) (now : Instant) :
    (answer now call r).1.tables.WellFormed := by
  cases call with
  | ensureUser user => exact (ensureUser_tables (r := r) user) ▸ h
  | createWorkspace new =>
    obtain ⟨name, description⟩ := createWorkspace_worded.mp worded
    exact createWorkspace_wellFormed h name description
  | updateWorkspace id changes =>
    obtain ⟨name, description⟩ := updateWorkspace_worded.mp worded
    exact updateWorkspace_wellFormed h id name description
  | deleteWorkspace id time => exact deleteWorkspace_wellFormed h id time
  | createDocument new =>
    obtain ⟨title, slug⟩ := createDocument_worded.mp worded
    exact createDocument_wellFormed h title slug
  | createDocumentWithVersion new first =>
    obtain ⟨title, slug, note⟩ := createDocumentWithVersion_worded.mp worded
    exact createDocumentWithVersion_wellFormed h title slug note
  | updateDocument id changes =>
    obtain ⟨title, slug⟩ := updateDocument_worded.mp worded
    exact updateDocument_wellFormed h id title slug
  | deleteDocument id time => exact deleteDocument_wellFormed h id time
  | createNextVersion new =>
    exact createNextVersion_wellFormed h (createNextVersion_worded.mp worded)
  | createShare new => exact createShare_wellFormed h new
  | updateShare id changes => exact updateShare_wellFormed h id changes
  | deleteShare id time => exact deleteShare_wellFormed h id time
  | _ => exact h

end Relational

end Repository

namespace Service

open DiagramShare.Access
open DiagramShare.Repository (Memory Relational Call)

variable {α β : Type}

def worded : CallKind := fun _ call => call.isWorded

theorem isRead_isWorded {call : Call β} (h : call.isRead = true) : call.isWorded = true := by
  cases call <;> first | rfl | contradiction

theorem Program.Only.worded {p : Program α} (only : p.Only reading) : p.Only worded :=
  only.mono isRead_isWorded

theorem createWorkspace_only (caller : Caller) (request : WorkspaceRequest) :
    (createWorkspace caller request).Only worded := by
  refine (userOf_only _ _).bind fun owner => ?_
  refine .obeyed fun name hname => ?_
  refine .obeyed fun description hdescription => ?_
  refine Program.Only.bind (.query rfl) fun _ => ?_
  refine Program.Only.bind (.query rfl) fun taken => ?_
  refine (Program.Only.refuseIf _ _).bind fun _ => ?_
  refine Program.Only.bind (.query ?_) fun w => (Program.Only.note _ _).bind fun _ => .done w
  exact Repository.createWorkspace_worded.mpr
    ⟨requiredText_isLine hname, optionalText_isLine hdescription⟩

theorem updateWorkspace_only (caller : Caller) (id : Int) (request : WorkspaceUpdate) :
    (updateWorkspace caller id request).Only worded := by
  refine (workspaceFor_only _ _ _).worded.bind fun w => ?_
  refine .obeyed fun name hname => ?_
  refine .obeyed fun description hdescription => ?_
  refine (freeName_only _ _ _).worded.bind fun _ => .lookUp ?_
  exact Repository.updateWorkspace_worded.mpr
    ⟨newName_isLine hname, newDescription_isLine hdescription⟩

theorem deleteWorkspace_only (caller : Caller) (id : Int) :
    (deleteWorkspace caller id).Only worded := by
  refine (workspaceFor_only _ _ _).worded.bind fun w => ?_
  refine Program.Only.clock.bind fun now => ?_
  refine Program.Only.bind (.lookUp rfl) fun summary => ?_
  exact (Program.Only.note _ _).bind fun _ => .done summary

theorem createDocument_only (caller : Caller) (workspace : Int) (request : DocumentRequest) :
    (createDocument caller workspace request).Only worded := by
  refine (workspaceFor_only _ _ _).worded.bind fun w => ?_
  refine .obeyed fun title htitle => ?_
  refine .obeyed fun slug hslug => ?_
  refine (freeSlug_only _ _ _).worded.bind fun _ => ?_
  have titled := requiredText_isLine htitle
  refine Program.Only.bind (.query ?_) fun stored => (Program.Only.note _ _).bind fun _ => .done _
  refine Repository.createDocumentWithVersion_worded.mpr ⟨titled, slugFor_isSlug hslug titled, ?_⟩
  intro first given text noted
  obtain ⟨content, _, rfl⟩ := Option.map_eq_some_iff.mp given
  cases noted
  exact firstNote_isLine

theorem updateDocument_only (caller : Caller) (id : Int) (request : DocumentUpdate) :
    (updateDocument caller id request).Only worded := by
  refine (documentFor_only _ _ _).worded.bind fun target => ?_
  refine .obeyed fun title htitle => ?_
  refine .obeyed fun slug hslug => ?_
  refine (freeNewSlug_only _ _ _).worded.bind fun _ => .lookUp ?_
  exact Repository.updateDocument_worded.mpr ⟨newTitle_isLine htitle, newSlug_isSlug hslug⟩

theorem deleteDocument_only (caller : Caller) (id : Int) :
    (deleteDocument caller id).Only worded := by
  refine (documentFor_only _ _ _).worded.bind fun target => ?_
  refine Program.Only.clock.bind fun now => ?_
  refine Program.Only.bind (.lookUp rfl) fun summary => ?_
  exact (Program.Only.note _ _).bind fun _ => .done summary

theorem createVersion_only (caller : Caller) (document : Int) (request : VersionRequest) :
    (createVersion caller document request).Only worded := by
  refine (documentFor_only _ _ _).worded.bind fun target => ?_
  refine .obeyed fun note hnote => ?_
  refine Program.Only.bind ?_ fun _ => .lookUp ?_
  · unfold ensureAuthor
    split
    · exact .query rfl
    · exact .done ()
  · exact Repository.createNextVersion_worded.mpr (optionalText_isLine hnote)

theorem allocate_only (document : Int) (request : ShareRequest) (attempt left : Nat) :
    (allocate document request attempt left).Only worded := by
  induction left generalizing attempt with
  | zero => exact .fail _
  | succ left ih =>
    refine Program.Only.bind (.token .done) fun token => ?_
    refine .ask rfl (fun e text reported => ?_) fun r => ?_
    · cases e <;> simp_all [backendText?, Failure.ofRepository]
    · rcases r with e | s
      · cases e with
        | duplicate index =>
          simp only
          split
          · exact (Program.Only.note _ _).bind fun _ => ih _
          · exact .fail _
        | _ => exact .fail _
      · exact (Program.Only.note _ _).bind fun _ => .done s

theorem shareDocument_only (caller : Caller) (document : Int) (request : ShareRequest) :
    (shareDocument caller document request).Only worded := by
  refine (documentFor_only _ _ _).worded.bind fun target => ?_
  refine Program.Only.clock.bind fun now => ?_
  refine (Program.Only.obey _).bind fun _ => ?_
  refine Program.Only.bind ?_ fun _ => allocate_only _ _ _ _
  cases request.user with
  | none => exact .done ()
  | some user =>
    refine (Program.Only.obey _).bind fun _ => ?_
    refine (Program.Only.obey _).bind fun _ => ?_
    refine Program.Only.bind (.query rfl) fun _ => ?_
    exact Program.Only.bind (.query rfl) fun _ => .refuseIf _ _

theorem updateShare_only (caller : Caller) (document share : Int) (request : ShareUpdate) :
    (updateShare caller document share request).Only worded := by
  refine (documentFor_only _ _ _).worded.bind fun target => ?_
  refine (shareOf_only _ _).worded.bind fun s => ?_
  refine Program.Only.clock.bind fun now => ?_
  exact (Program.Only.obey _).bind fun _ => .lookUp rfl

theorem revokeShare_only (caller : Caller) (document share : Int) :
    (revokeShare caller document share).Only worded := by
  refine (documentFor_only _ _ _).worded.bind fun target => ?_
  refine (shareOf_only _ _).worded.bind fun s => ?_
  refine Program.Only.clock.bind fun now => ?_
  exact Program.Only.bind (.lookUp rfl) fun _ => .note _ _

theorem serve_worded (caller : Caller) (op : Operation) : (serve caller op).Only worded := by
  by_cases asks : op.onlyAsks = true
  · exact (serve_only asks caller).worded
  · cases op with
    | createWorkspace request => exact as_only (createWorkspace_only _ _) _
    | updateWorkspace id request => exact as_only (updateWorkspace_only _ _ _) _
    | deleteWorkspace id => exact as_only (deleteWorkspace_only _ _) _
    | createDocument workspace request => exact as_only (createDocument_only _ _ _) _
    | updateDocument id request => exact as_only (updateDocument_only _ _ _) _
    | deleteDocument id => exact as_only (deleteDocument_only _ _) _
    | createVersion document request => exact as_only (createVersion_only _ _ _) _
    | shareDocument document request => exact as_only (shareDocument_only _ _ _) _
    | updateShare document share request => exact as_only (updateShare_only _ _ _ _) _
    | revokeShare document share => exact as_only (revokeShare_only _ _ _) _
    | _ => exact absurd rfl asks

/-- What worded calls keep of the rows of a store, every operation keeps. -/
theorem serve_keeps {σ : Type} {s : Store σ} {P : σ → Prop}
    (calls : ∀ {β} {call : Call β}, call.isWorded = true → ∀ now m, P m → P (s.answer now call m).1)
    {w : World σ} (before : P w.store) (c : Conditions) (caller : Caller) (op : Operation) :
    P ((serve caller op).run s c w).1.store :=
  (serve_worded caller op).keeps (R := fun m m' => P m → P m') (fun _ holds => holds)
    (fun _ _ _ first second holds => second (first holds))
    (fun _ formed now m => calls formed now m) (ends_run _ _) before

theorem Reachable.wellFormed {m : Memory} (reached : Reachable m) : m.tables.WellFormed := by
  induction reached with
  | empty => exact .empty
  | served _ c caller op ih =>
    exact serve_keeps (s := inMemory) (P := fun m => m.tables.WellFormed)
      (fun formed now _ h => Memory.answer_wellFormed h formed now) ih c caller op
  | failing _ fail ih => exact ih

theorem Stored.wellFormed {r : Relational} (stored : Stored r) : r.tables.WellFormed := by
  induction stored with
  | empty => exact .empty
  | served _ c caller op ih =>
    exact serve_keeps (s := inDatabase) (P := fun r => r.tables.WellFormed)
      (fun formed now _ h => Relational.answer_wellFormed h formed now) ih c caller op

/-- Whatever requests a service has answered, and whatever they met, the rows of its store are well
formed: in memory as in a relational database. -/
theorem rows_wellFormed : (∀ m, Reachable m → m.tables.WellFormed) ∧
    ∀ r, Stored r → r.tables.WellFormed :=
  ⟨fun _ reached => reached.wellFormed, fun _ stored => stored.wellFormed⟩

/-- A title becomes a slug on its way to the store. -/
theorem sample_wellFormed : sample.store.tables.WellFormed ∧
    ∃ d ∈ sample.store.tables.documents, d.slug = "flow" ∧ Slug.IsSlug d.slug := by
  have formed := rows_wellFormed.1 _ sample_reachable
  refine ⟨formed, ?_⟩
  obtain ⟨d, found, slug⟩ : ∃ d ∈ sample.store.tables.documents, d.slug = "flow" := by
    decide +kernel
  exact ⟨d, found, slug, (formed.documents d found).slug⟩

end Service

end DiagramShare
