import DiagramShare.Proofs.Distinct

/-! Tombstones. A row that is deleted stays as it is for good. Whatever is asked of the store later, the
row is neither changed nor taken out, it is found only by a read that asks for deleted rows too, and
for every other read it is not there. -/
namespace DiagramShare.Repository

open DiagramShare.Time (Instant)

theorem find_dead {rows : List α} {key : α → Int} {live : α → Bool}
    (distinct : (rows.map key).Nodup) {r : α} (stored : r ∈ rows) (dead : live r = false) :
    (rows.find? fun x => key x == key r && live x) = none := by
  rw [List.find?_eq_none]
  intro x hx passed
  rw [Bool.and_eq_true, beq_iff_eq] at passed
  have same : x = r := eq_of_key distinct hx stored passed.1
  rw [same, dead] at passed
  cases passed.2

theorem other_of_dead {rows : List α} {key : α → Int} {live : α → Bool}
    (distinct : (rows.map key).Nodup) {r a : α} (stored : r ∈ rows) (dead : live r = false)
    (found : (rows.find? fun x => key x == key a && live x) = some a) :
    (key r == key a) = false := by
  apply beq_eq_false_iff_ne.mpr
  intro same
  rw [← same, find_dead distinct stored dead] at found
  cases found

def Change.onWorkspace (change : Change) (w : Workspace) : Workspace :=
  match change with
  | setWorkspace v changes now => if w.id == v.id then v.change changes now else w
  | deleteWorkspace v time => if w.id == v.id then v.tombstone time else w
  | _ => w

section Changes

variable {m : Memory} {change : Change}

theorem onWorkspace_mem {w : Workspace} (stored : w ∈ m.tables.workspaces) :
    change.onWorkspace w ∈ (change.on m).tables.workspaces := by
  cases change with
  | know user => exact (m.kept_know user).tables ▸ stored
  | addWorkspace new now => exact List.mem_append_left _ stored
  | setWorkspace v changes now => exact mem_updateWhere.mpr ⟨w, stored, rfl⟩
  | deleteWorkspace v time => exact mem_updateWhere.mpr ⟨w, stored, rfl⟩
  | _ => exact stored

theorem onWorkspace_dead (numbered : m.Numbered) (fits : change.Fits m) {w : Workspace}
    (stored : w ∈ m.tables.workspaces) (dead : w.isLive = false) : change.onWorkspace w = w := by
  cases change with
  | setWorkspace v changes now =>
    simp [Change.onWorkspace, other_of_dead numbered.workspaces stored dead fits.1]
  | deleteWorkspace v time =>
    simp [Change.onWorkspace, other_of_dead numbered.workspaces stored dead fits]
  | _ => rfl

theorem onDocument_dead (numbered : m.Numbered) (fits : change.Fits m) {d : Document}
    (stored : d ∈ m.tables.documents) (dead : d.isLive = false) : change.onDocument d = d := by
  cases change with
  | setDocument e changes now =>
    simp [Change.onDocument, other_of_dead numbered.documents stored dead fits.1]
  | deleteDocument e time =>
    simp [Change.onDocument, other_of_dead numbered.documents stored dead fits]
  | deleteWorkspace w time => simp [Change.onDocument, dead]
  | _ => rfl

theorem onShare_dead (numbered : m.Numbered) (fits : change.Fits m) {s : Share}
    (stored : s ∈ m.tables.shares) (dead : s.isLive = false) : change.onShare m.tables s = s := by
  cases change with
  | setShare r changes now =>
    simp [Change.onShare, other_of_dead numbered.shares stored dead fits]
  | deleteShare r time =>
    simp [Change.onShare, other_of_dead numbered.shares stored dead fits]
  | deleteDocument d time => simp [Change.onShare, dead]
  | deleteWorkspace w time => simp [Change.onShare, dead]
  | _ => rfl

end Changes

namespace Memory

variable {m m' : Memory} {given : List Int}

/-- Every deleted row of one state is a row of the other, as it was. -/
structure Buried (m m' : Memory) : Prop where
  workspaces : ∀ w ∈ m.tables.workspaces, w.isLive = false → w ∈ m'.tables.workspaces
  documents : ∀ d ∈ m.tables.documents, d.isLive = false → d ∈ m'.tables.documents
  shares : ∀ s ∈ m.tables.shares, s.isLive = false → s ∈ m'.tables.shares

theorem Buried.refl (m : Memory) : m.Buried m :=
  ⟨fun _ stored _ => stored, fun _ stored _ => stored, fun _ stored _ => stored⟩

theorem Buried.trans {m'' : Memory} (h : m.Buried m') (k : m'.Buried m'') : m.Buried m'' := by
  constructor
  · intro w stored dead
    exact k.workspaces w (h.workspaces w stored dead) dead
  · intro d stored dead
    exact k.documents d (h.documents d stored dead) dead
  · intro s stored dead
    exact k.shares s (h.shares s stored dead) dead

theorem buried_on (numbered : m.Numbered) {change : Change} (fits : change.Fits m) :
    m.Buried (change.on m) := by
  constructor
  · intro w stored dead
    have there : change.onWorkspace w ∈ _ := onWorkspace_mem stored
    rwa [onWorkspace_dead numbered fits stored dead] at there
  · intro d stored dead
    have there : change.onDocument d ∈ _ := onDocument_mem stored
    rwa [onDocument_dead numbered fits stored dead] at there
  · intro s stored dead
    have there : change.onShare m.tables s ∈ _ := onShare_mem stored
    rwa [onShare_dead numbered fits stored dead] at there

/-- No call touches a deleted row, whether it succeeds or fails. -/
theorem buried_answer (numbered : m.Numbered) (call : Call β) (now : Instant) :
    m.Buried (answer now call m).1 := by
  rcases answer_cases numbered call now with ⟨used, e, _, he⟩ | ⟨change, a, fits, hok⟩
  · rw [he]
    exact ⟨fun _ stored _ => stored, fun _ stored _ => stored, fun _ stored _ => stored⟩
  · rw [hok]
    exact buried_on numbered fits

theorem Leads.buried (numbered : m.Numbered) (leads : m.Leads given m') :
    m'.Numbered ∧ m.Buried m' := by
  induction leads with
  | here => exact ⟨numbered, .refl m⟩
  | called before call now ih =>
    obtain ⟨numbered', buried⟩ := ih
    exact ⟨answer_numbered numbered' call now, buried.trans (buried_answer numbered' call now)⟩
  | failing before fail ih =>
    obtain ⟨numbered', buried⟩ := ih
    exact ⟨⟨numbered'.distinct, numbered'.inRange⟩, ⟨buried.workspaces, buried.documents,
      buried.shares⟩⟩

end Memory

/-- The tables without the rows that are deleted. -/
def Tables.living (t : Tables) : Tables :=
  ⟨t.workspaces.filter Workspace.isLive, t.documents.filter Document.isLive, t.versions,
    t.shares.filter Share.isLive⟩

/-- A read that does not ask for deleted rows. -/
def Call.isDefault : Call β → Bool
  | .findWorkspaceWithDeleted _ | .findDocumentWithDeleted _ | .findShareWithDeleted _ => false
  | call => call.isRead

section Living

variable {rows : List α} {live p : α → Bool}

theorem find_living (needs : ∀ r, p r = true → live r = true) :
    (rows.filter live).find? p = rows.find? p := by
  rw [List.find?_filter]
  congr 1
  funext r
  cases passed : p r with
  | true => simp [needs r passed]
  | false => simp

theorem any_living (needs : ∀ r, p r = true → live r = true) :
    (rows.filter live).any p = rows.any p := by
  rw [List.any_filter]
  congr 1
  funext r
  cases passed : p r with
  | true => simp [needs r passed]
  | false => simp

theorem filter_living (needs : ∀ r, p r = true → live r = true) :
    (rows.filter live).filter p = rows.filter p := by
  rw [List.filter_filter]
  apply List.filter_congr
  intro r _
  cases passed : p r with
  | true => simp [needs r passed]
  | false => simp

end Living

namespace Tables

variable (t : Tables)

@[simp] theorem living_workspace (id : Int) : t.living.workspace? id = t.workspace? id :=
  find_living (by simp)

@[simp] theorem living_owned (owner : Int) : t.living.owned owner = t.owned owner :=
  filter_living (by simp)

@[simp] theorem living_nameExists (owner : Int) (name : String) (except : Option Int) :
    t.living.nameExists owner name except = t.nameExists owner name except :=
  any_living (by simp +contextual)

@[simp] theorem living_document (id : Int) : t.living.document? id = t.document? id :=
  find_living (by simp)

@[simp] theorem living_documentsOf (workspace : Int) :
    t.living.documentsOf workspace = t.documentsOf workspace :=
  filter_living (by simp)

@[simp] theorem living_slugExists (workspace : Int) (slug : String) (except : Option Int) :
    t.living.slugExists workspace slug except = t.slugExists workspace slug except :=
  any_living (by simp +contextual)

@[simp] theorem living_share (id : Int) : t.living.share? id = t.share? id :=
  find_living (by simp)

@[simp] theorem living_sharesOf (document : Int) :
    t.living.sharesOf document = t.sharesOf document :=
  filter_living (by simp)

@[simp] theorem living_shareForUser (document user : Int) :
    t.living.shareForUser? document user = t.shareForUser? document user :=
  find_living (by simp +contextual)

@[simp] theorem living_shareByToken (token : String) :
    t.living.shareByToken? token = t.shareByToken? token :=
  find_living (by simp +contextual)

end Tables

namespace Memory

variable {m m' : Memory} {given : List Int}

/-- The store as it would be, had deleted rows been taken out. -/
def living (m : Memory) : Memory := { m with tables := m.tables.living }

theorem answer_living {call : Call β} (default : call.isDefault = true) (now : Instant) :
    (answer now call m).2 = (answer now call m.living).2 := by
  cases call with
  | findWorkspaceWithDeleted | findDocumentWithDeleted | findShareWithDeleted => cases default
  | findWorkspaces | countWorkspaces | findDocuments | countDocuments | findGrants | findShares
  | countShares => simp [answer, read, living, Tables.ownedPage, Tables.documentPage,
      Tables.sharePage, Tables.grants]
  | findVersions | countVersions | findVersion | latestVersion | ping => rfl
  | findWorkspace | findDocument | findShare | workspaceNameExists | documentSlugExists
  | findShareForUser | findShareByToken => simp [answer, read, living]
  | _ => cases default

end Memory

/-- Changing a workspace or deleting it. -/
def Call.revisesWorkspace (id : Int) : (β : Type) → Call β → Prop
  | _, .updateWorkspace i _ | _, .deleteWorkspace i _ => i = id
  | _, _ => False

def Call.revisesDocument (id : Int) : (β : Type) → Call β → Prop
  | _, .updateDocument i _ | _, .deleteDocument i _ => i = id
  | _, _ => False

def Call.revisesShare (id : Int) : (β : Type) → Call β → Prop
  | _, .updateShare i _ | _, .deleteShare i _ => i = id
  | _, _ => False

theorem find_stored {rows : List α} {key : α → Int} (distinct : (rows.map key).Nodup) {r : α}
    (stored : r ∈ rows) : (rows.find? fun x => key x == key r) = some r := by
  cases found : rows.find? fun x => key x == key r with
  | none =>
    have missed := List.find?_eq_none.mp found r stored
    simp at missed
  | some x =>
    have same : key x = key r := by simpa using List.find?_some found
    rw [eq_of_key distinct (List.mem_of_find?_eq_some found) stored same]

namespace Memory

variable {m m' : Memory} {given : List Int}

/-- A deleted row is there, a read that asks for deleted rows answers with it, and whatever would
change it or delete it again is answered as for a row that is not there, and changes nothing. -/
structure Final (m : Memory) (rows : List α) (find : Call α) (revises : (β : Type) → Call β → Prop)
    (r : α) : Prop where
  stored : r ∈ rows
  found : ∀ now, answer now find m = (m, .ok r)
  refused : ∀ β (call : Call β), revises β call → ∀ now,
    answer now call m = (m, .error .notFound)

theorem final_workspace (numbered : m.Numbered) {w : Workspace}
    (stored : w ∈ m.tables.workspaces) (dead : w.isLive = false) :
    m.Final m.tables.workspaces (.findWorkspaceWithDeleted w.id) (Call.revisesWorkspace w.id) w := by
  have missing : m.tables.workspace? w.id = none := find_dead numbered.workspaces stored dead
  have there : m.tables.anyWorkspace? w.id = some w := find_stored numbered.workspaces stored
  constructor
  · exact stored
  · simp [answer, read, there, orNotFound]
  · intro β call revises now
    cases call with
    | updateWorkspace i changes => cases revises; simp [answer, updateWorkspace, missing]
    | deleteWorkspace i time =>
      cases revises
      simp [answer, deleteWorkspace, Tables.deleteWorkspace, missing]
    | _ => cases revises

theorem final_document (numbered : m.Numbered) {d : Document}
    (stored : d ∈ m.tables.documents) (dead : d.isLive = false) :
    m.Final m.tables.documents (.findDocumentWithDeleted d.id) (Call.revisesDocument d.id) d := by
  have missing : m.tables.document? d.id = none := find_dead numbered.documents stored dead
  have there : m.tables.anyDocument? d.id = some d := find_stored numbered.documents stored
  constructor
  · exact stored
  · simp [answer, read, there, orNotFound]
  · intro β call revises now
    cases call with
    | updateDocument i changes => cases revises; simp [answer, updateDocument, missing]
    | deleteDocument i time =>
      cases revises
      simp [answer, deleteDocument, Tables.deleteDocument, missing]
    | _ => cases revises

theorem final_share (numbered : m.Numbered) {s : Share}
    (stored : s ∈ m.tables.shares) (dead : s.isLive = false) :
    m.Final m.tables.shares (.findShareWithDeleted s.id) (Call.revisesShare s.id) s := by
  have missing : m.tables.share? s.id = none := find_dead numbered.shares stored dead
  have there : m.tables.anyShare? s.id = some s := find_stored numbered.shares stored
  constructor
  · exact stored
  · simp [answer, read, there, orNotFound]
  · intro β call revises now
    cases call with
    | updateShare i changes => cases revises; simp [answer, updateShare, missing]
    | deleteShare i time =>
      cases revises
      simp [answer, deleteShare, Tables.deleteShare, missing]
    | _ => cases revises

/-- In every state that calls lead to from the empty store, and for whatever is called later, a row
that is deleted stays just as it is. It is answered with where deleted rows are asked for, it can be
neither changed nor deleted again, and every other read answers as if no deleted row were there. -/
theorem Leads.tombstones (leads : Memory.empty.Leads given m) :
    ∀ more m', m.Leads more m' →
      (∀ w ∈ m.tables.workspaces, w.isLive = false → m'.Final m'.tables.workspaces
        (.findWorkspaceWithDeleted w.id) (Call.revisesWorkspace w.id) w) ∧
      (∀ d ∈ m.tables.documents, d.isLive = false → m'.Final m'.tables.documents
        (.findDocumentWithDeleted d.id) (Call.revisesDocument d.id) d) ∧
      (∀ s ∈ m.tables.shares, s.isLive = false → m'.Final m'.tables.shares
        (.findShareWithDeleted s.id) (Call.revisesShare s.id) s) ∧
      ∀ β (call : Call β), call.isDefault = true → ∀ now,
        (answer now call m').2 = (answer now call m'.living).2 := by
  intro more m' later
  obtain ⟨numbered, _⟩ := leads.buried numbered_empty
  obtain ⟨numbered', buried⟩ := later.buried numbered
  refine ⟨?_, ?_, ?_, fun β call default now => answer_living default now⟩
  · intro w stored dead
    exact final_workspace numbered' (buried.workspaces w stored dead) dead
  · intro d stored dead
    exact final_document numbered' (buried.documents d stored dead) dead
  · intro s stored dead
    exact final_share numbered' (buried.shares s stored dead) dead

def cleared : Memory :=
  let known := (answer (.ofSeconds 0) (.ensureUser 1) empty).1
  let team := (answer (.ofSeconds 1) (.createWorkspace ⟨"Team", none, 1, false⟩) known).1
  let flow := (answer (.ofSeconds 2) (.createDocument ⟨1, "Flow", .mermaid, "flow", false⟩) team).1
  let lent := (answer (.ofSeconds 3) (.createShare ⟨2, none, "a", .view, none⟩) flow).1
  (answer (.ofSeconds 4) (.deleteWorkspace 1 (.ofSeconds 4)) lent).1

theorem cleared_leads : ∃ given, empty.Leads given cleared := by
  have known := (Leads.here : empty.Leads [] empty).called (.ensureUser 1) (.ofSeconds 0)
  have team := known.called (.createWorkspace ⟨"Team", none, 1, false⟩) (.ofSeconds 1)
  have flow := team.called (.createDocument ⟨1, "Flow", .mermaid, "flow", false⟩) (.ofSeconds 2)
  have lent := flow.called (.createShare ⟨2, none, "a", .view, none⟩) (.ofSeconds 3)
  exact ⟨_, lent.called (.deleteWorkspace 1 (.ofSeconds 4)) (.ofSeconds 4)⟩

/-- Its share was deleted along with the workspace, and it stays so when the name of the workspace is
given again. -/
theorem cleared_final :
    let again := (answer (.ofSeconds 5) (.createWorkspace ⟨"Team", none, 1, false⟩) cleared).1
    again.tables.workspaces.length = 2 ∧ ∃ s ∈ cleared.tables.shares, s.isLive = false ∧
      again.Final again.tables.shares (.findShareWithDeleted s.id) (Call.revisesShare s.id) s := by
  intro again
  obtain ⟨given, leads⟩ := cleared_leads
  have later := (Leads.here : cleared.Leads [] cleared).called
    (.createWorkspace ⟨"Team", none, 1, false⟩) (.ofSeconds 5)
  have there : ∃ s ∈ cleared.tables.shares, s.isLive = false := by decide +kernel
  obtain ⟨s, stored, dead⟩ := there
  obtain ⟨_, _, shares, _⟩ := leads.tombstones _ _ later
  exact ⟨by decide +kernel, s, stored, dead, shares s stored dead⟩

end Memory

end DiagramShare.Repository
