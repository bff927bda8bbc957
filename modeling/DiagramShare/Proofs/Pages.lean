import DiagramShare.Proofs.Decision
import DiagramShare.Proofs.Distinct
import DiagramShare.Proofs.History
import DiagramShare.Proofs.Rising

/-! Pages of listings. The pages of one size are the listing cut into pieces, each row in one of
them, and who sees a row in a listing may also ask for it alone. -/
namespace DiagramShare.Access

def PageQuery.room (query : PageQuery) : Nat := query.normalize.limit.toNat

def PageQuery.before (query : PageQuery) : Nat :=
  (query.normalize.number - 1).toNat * query.room

/-- The numbers of a window fit 64 bits, and a store takes them as they are. -/
structure Page.Fits (page : Page) : Prop where
  number : 1 ≤ page.number ∧ page.number ≤ maxCount
  limit : 1 ≤ page.limit ∧ page.limit ≤ maxPageSize
  offset : 0 ≤ page.offset ∧ page.offset ≤ maxCount
  taken : clampWindow page.limit page.offset = (page.limit, page.offset)

end DiagramShare.Access

namespace DiagramShare.Repository

open DiagramShare.Access (PageQuery Page maxCount maxPageSize clampWindow)
open DiagramShare.Time (Instant)

theorem normalize_fits {query : PageQuery} (narrow : ∀ n ∈ query.page, n ≤ maxCount) :
    query.normalize.Fits := by
  obtain ⟨number, above, below⟩ := normalize_bounds query
  have start := offset_nonneg query
  have limit : Access.clamp 1 maxPageSize query.normalize.limit = query.normalize.limit :=
    clamp_of_mem above below
  constructor
  · refine ⟨number, ?_⟩
    simp only [PageQuery.normalize, maxCount] at narrow ⊢
    cases asked : query.page with
    | none => simp
    | some n =>
      have most := narrow n asked
      simp only [Option.getD_some]
      omega
  · exact ⟨above, below⟩
  · refine ⟨start, ?_⟩
    simp only [Page.offset]
    omega
  · simp only [clampWindow, limit]
    congr 1
    omega

theorem window_before {rows : List α} (short : (rows.length : Int) ≤ maxCount) (query : PageQuery) :
    window query.normalize.limit query.normalize.offset rows =
      (rows.drop query.before).take query.room := by
  obtain ⟨number, limit, _⟩ := normalize_bounds query
  have exact_ : (query.before : Int) = (query.normalize.number - 1) * query.normalize.limit := by
    simp only [PageQuery.before, PageQuery.room, Int.natCast_mul]
    rw [Int.toNat_of_nonneg (by omega), Int.toNat_of_nonneg (by omega)]
  rw [window_page, Page.offset, ← exact_, PageQuery.room]
  rcases Int.le_total (query.before : Int) maxCount with near | far
  · have start : (min maxCount (query.before : Int)).toNat = query.before := by omega
    rw [start]
  · have start : (min maxCount (query.before : Int)).toNat = maxCount.toNat := by omega
    rw [start, List.drop_eq_nil_of_le (by omega), List.drop_eq_nil_of_le (by omega)]

theorem flatMap_pieces (rows : List α) (room n : Nat) :
    (List.range n).flatMap (fun i => (rows.drop (i * room)).take room) = rows.take (n * room) := by
  induction n with
  | zero => simp
  | succ n ih =>
    rw [List.range_succ, List.flatMap_append, ih, Nat.succ_mul, List.take_add]
    simp

/-- The data that queries are answered with are the pages of a listing. -/
structure Pages (data : PageQuery → List α) (rows : List α) : Prop where
  size : ∀ query, (data query).length = min query.room (rows.length - query.before)
  past : ∀ query, rows.length ≤ query.before → data query = []
  whole : ∀ limit (n : Nat), rows.length ≤ n * PageQuery.room ⟨none, limit⟩ →
    (List.range n).flatMap (fun (i : Nat) => data ⟨some ((i : Int) + 1), limit⟩) = rows

theorem pages_window {rows : List α} (short : (rows.length : Int) ≤ maxCount) :
    Pages (fun query => window query.normalize.limit query.normalize.offset rows) rows := by
  constructor
  · intro query
    rw [window_before short, List.length_take, List.length_drop]
  · intro query past
    rw [window_before short, List.drop_eq_nil_of_le past, List.take_nil]
  · intro limit n enough
    have cut : ∀ i : Nat, window (PageQuery.normalize ⟨some ((i : Int) + 1), limit⟩).limit
        (PageQuery.normalize ⟨some ((i : Int) + 1), limit⟩).offset rows =
        (rows.drop (i * PageQuery.room ⟨none, limit⟩)).take (PageQuery.room ⟨none, limit⟩) := by
      intro i
      rw [window_before short]
      have number : (PageQuery.normalize ⟨some ((i : Int) + 1), limit⟩).number = i + 1 := by
        simp only [PageQuery.normalize, Option.getD_some]
        omega
      have start : PageQuery.before ⟨some ((i : Int) + 1), limit⟩ =
          i * PageQuery.room ⟨none, limit⟩ := by
        rw [PageQuery.before, number]
        have index : ((i : Int) + 1 - 1).toNat = i := by omega
        rw [index]
        rfl
      rw [start]
      rfl
    have pieces := congrArg (fun piece => (List.range n).flatMap piece) (funext cut)
    exact pieces.trans ((flatMap_pieces _ _ _).trans (List.take_of_length_le enough))

/-- Strictly later, or as late and with a greater number. -/
def Above (a b : Instant × Int) : Prop := b.1 ≤ a.1 ∧ (b.1 = a.1 → b.2 < a.2)

theorem newestFirst_falling {key : α → Instant × Int} {rows : List α}
    (distinct : (rows.map fun r => (key r).2).Nodup) :
    (newestFirst key rows).Pairwise fun a b => Above (key a) (key b) := by
  have sorted : (newestFirst key rows).Pairwise fun a b => isNewer (key a) (key b) = true :=
    List.pairwise_mergeSort (fun a b c => isNewer_trans (key a) (key b) (key c))
      (fun a b => isNewer_total (key a) (key b)) rows
  have apart : (newestFirst key rows).Pairwise fun a b => (key a).2 ≠ (key b).2 :=
    List.pairwise_map.mp (((List.mergeSort_perm rows _).map _).nodup_iff.mpr distinct)
  refine (sorted.and apart).imp fun ⟨newer, other⟩ => ?_
  obtain ⟨le, tie⟩ := isNewer_iff.mp newer
  refine ⟨le, fun same => ?_⟩
  have least := tie same.symm
  omega

/-- Just the rows that belong to a listing, each once, from above down. -/
structure Ordered (belongs : α → Prop) (above : α → α → Prop) (rows : List α) : Prop where
  only : ∀ r, r ∈ rows ↔ belongs r
  once : rows.Nodup
  falling : rows.Pairwise above

theorem newestFirst_ordered {key : α → Instant × Int} {rows : List α} {p : α → Bool}
    {belongs : α → Prop} (picks : ∀ r, r ∈ rows ∧ p r = true ↔ belongs r)
    (distinct : (rows.map fun r => (key r).2).Nodup) :
    Ordered belongs (fun a b => Above (key a) (key b)) (newestFirst key (rows.filter p)) := by
  have picked : ((rows.filter p).map fun r => (key r).2).Nodup :=
    distinct.sublist (List.filter_sublist.map _)
  have perm : (newestFirst key (rows.filter p)).Perm (rows.filter p) := List.mergeSort_perm _ _
  constructor
  · intro r
    rw [perm.mem_iff, List.mem_filter, picks]
  · exact perm.nodup_iff.mpr picked.of_map
  · exact newestFirst_falling picked

theorem versions_ordered {m : Memory} (chronicled : m.Chronicled) (document : Int) :
    Ordered (fun v => v ∈ m.tables.versions ∧ v.document = document)
      (fun a b => b.number < a.number)
      ((m.tables.versionsOf document).mergeSort fun a b => b.number ≤ a.number) := by
  have inOrder := chronicled.inOrder document
  have rising : ((m.tables.versionsOf document).map Version.number).Pairwise (· < ·) :=
    inOrder ▸ upTo_rising _
  have falling := List.pairwise_reverse.mpr (List.pairwise_map.mp rising)
  rw [inOrder.sorted]
  constructor
  · intro v
    simp [Tables.versionsOf]
  · exact falling.imp fun below same => absurd (same ▸ below) (Int.lt_irrefl _)
  · exact falling

theorem Memory.Numbered.lengths {m : Memory} (h : m.Numbered) :
    m.tables.workspaces.length + m.tables.documents.length + m.tables.versions.length +
      m.tables.shares.length ≤ m.lastId := by
  have within : m.tables.ids ⊆ upTo m.lastId := fun i hi => Memory.mem_upTo.mpr (h.inRange i hi)
  have le := (List.subperm_of_subset h.distinct within).length_le
  simpa [Tables.ids, upTo, Nat.add_assoc] using le

end DiagramShare.Repository

namespace DiagramShare.Service

open DiagramShare.Access
open DiagramShare.Repository (Memory Call Pages Above)
open DiagramShare.Time (Instant)

variable {c : Conditions} {w w' v : World Memory} {caller : Caller} {id : Int}

def reply (c : Conditions) (w : World Memory) (caller : Caller) (op : Operation) :
    Except Failure Answer :=
  ((serve caller op).run inMemory c w).2.1

theorem reply_of_ends {p : Program α} {op : Operation} {wrap : α → Answer} {b : α}
    (program : serve caller op = p.as wrap) (ends : p.Ends inMemory c w w' (.ok b)) :
    reply c w caller op = .ok (wrap b) := by
  rw [reply, program]
  exact (ends_as.mpr ⟨.ok b, ends, rfl⟩).2

theorem ends_of_reply {p : Program α} {op : Operation} {wrap : α → Answer} {a : Answer}
    (program : serve caller op = p.as wrap) (answered : reply c w caller op = .ok a) :
    ∃ w' b, p.Ends inMemory c w w' (.ok b) := by
  have ends := ends_run (s := inMemory) (c := c) (p.as wrap) w
  rw [← program] at ends
  rw [reply] at answered
  rw [answered, program] at ends
  obtain ⟨b, done, _⟩ := ends_as_ok ends
  exact ⟨_, b, done⟩

theorem page_ends {find : Call (List α)} {count : Call Nat} {f : Repository.Tables → List α}
    {n : Repository.Tables → Nat} {page : Page} (calm : c.Calm)
    (finds : ∀ now, Memory.answer now find = Memory.read fun t => .ok (f t))
    (counts : ∀ now, Memory.answer now count = Memory.read fun t => .ok (n t))
    (same : v.store = w.store) :
    (do let data ← Program.query find
        let total ← Program.query count
        return (⟨data, total, page⟩ : Listing α)).Ends inMemory c v v.tick.tick
      (.ok ⟨f w.store.tables, n w.store.tables, page⟩) := by
  rw [← same]
  refine ends_then (query_calm calm finds v) ?_
  refine ends_then (query_calm calm counts v.tick) ?_
  exact ends_pure.mpr ⟨rfl, rfl⟩

/-- The access rule lets the caller do such a thing with a workspace. -/
def AdmittedToWorkspace (c : Conditions) (w : World Memory) (caller : Caller) (id : Int)
    (kind : Kind) : Prop :=
  ∃ v ws, (workspaceFor caller id kind).Ends inMemory c w v (.ok ws)

/-- The access rule lets the caller do such a thing with a document. -/
def AdmittedToDocument (c : Conditions) (w : World Memory) (caller : Caller) (id : Int)
    (kind : Kind) : Prop :=
  ∃ v d ws, (documentFor caller id kind).Ends inMemory c w v (.ok (d, ws))

theorem workspaceFor_read {ws : Workspace}
    (h : (workspaceFor caller id .read).Ends inMemory c w w' (.ok ws)) :
    w.store.tables.workspace? id = some ws ∧
      (caller.user = some ws.owner ∨ ws.isPublic = true) := by
  obtain ⟨v, row, found, h⟩ := ends_bind_ok.mp h
  obtain ⟨rfl, _, allowed⟩ := letThrough_ok h
  refine ⟨found_row (g := fun t => t.workspace? id) (fun _ => rfl) found, ?_⟩
  by_contra unfit
  obtain ⟨foreign, shut⟩ := not_or.mp unfit
  rw [Bool.not_eq_true] at shut
  cases live : ws.isLive <;>
    simp [authorize, Resource.isPresent, live, Resource.owner, isOpen, foreign, shut] at allowed

theorem workspaceFor_owner (calm : c.Calm) {ws : Workspace}
    (found : w.store.tables.workspace? ws.id = some ws) (own : caller.user = some ws.owner)
    (kind : Kind) : ∃ v, (workspaceFor caller ws.id kind).Ends inMemory c w v (.ok ws) := by
  have looked : (Program.find? (.findWorkspace ws.id)).Ends inMemory c w w.tick (.ok (some ws)) :=
    found ▸ find_calm (g := fun t => t.workspace? ws.id) calm (fun _ => rfl) w
  have live : ws.isLive = true := Repository.also_of_find found
  have decided : authorize (some (.workspace ws)) caller kind [] (c.clock w.tick.readings) =
      .allowed := by
    simp [authorize, Resource.isPresent, live, Resource.owner, own]
  have through : (letThrough caller kind "workspace" ws.id (some ws) .workspace []).Ends inMemory c
      w.tick _ _ := letThrough_ends _ _ _ _ _
  rw [Option.map_some, decided] at through
  exact ⟨_, ends_then looked through⟩

theorem documentFor_number {kind : Kind} {d : Document} {ws : Workspace}
    (numbered : w.store.Numbered)
    (h : (documentFor caller id kind).Ends inMemory c w w' (.ok (d, ws))) : d.id = id :=
  (documentFor_ok numbered h).2.2.1

theorem getDocument_within (calm : c.Calm) (numbered : w.store.Numbered) {ws : Workspace}
    {d : Document} (found : w.store.tables.workspace? ws.id = some ws)
    (reader : caller.user = some ws.owner ∨ ws.isPublic = true)
    (listed : d ∈ w.store.tables.documents) (inside : d.workspace = ws.id)
    (live : d.isLive = true) :
    ∃ latest, reply c w caller (.getDocument d.id) = .ok (.detail ⟨d, latest⟩) := by
  obtain ⟨storedW, _, liveW⟩ := numbered.workspace_iff.mp found
  have present : Present w.store.tables d ws := ⟨listed, storedW, inside, live, liveW⟩
  have entitled : ∀ now, Entitled w.store.tables.shares caller .read now d ws := by
    intro now
    rcases reader with own | shown
    · exact .owner own
    · exact .visible rfl (.inr shown)
  obtain ⟨v, _, admitted⟩ := documentFor_calm calm numbered caller d.id .read
  rw [(ruling_ok_iff numbered).mpr ⟨present, rfl, entitled _⟩] at admitted
  have looked : (Program.query (.latestVersion d.id)).Ends inMemory c v v.tick
      (.ok (v.store.tables.latestVersion? d.id)) :=
    query_calm (g := fun t => t.latestVersion? d.id) calm (fun _ => rfl) v
  have ends : (getDocument caller d.id).Ends inMemory c w v.tick
      (.ok ⟨d, v.store.tables.latestVersion? d.id⟩) := by
    refine ends_then admitted (ends_then looked ?_)
    exact ends_pure.mpr ⟨rfl, rfl⟩
  exact ⟨_, reply_of_ends rfl ends⟩

theorem getWorkspace_own (calm : c.Calm) (numbered : w.store.Numbered) {v : Workspace}
    (stored : v ∈ w.store.tables.workspaces) (own : caller.user = some v.owner)
    (live : v.isLive = true) : reply c w caller (.getWorkspace v.id) = .ok (.workspace v) := by
  have found := numbered.workspace_iff.mpr ⟨stored, rfl, live⟩
  obtain ⟨_, admitted⟩ := workspaceFor_owner calm found own .read
  exact reply_of_ends rfl admitted

theorem getVersion_within (calm : c.Calm) (numbered : w.store.Numbered)
    (chronicled : w.store.Chronicled) (admitted : AdmittedToDocument c w caller id .read)
    {u : Version} (stored : u ∈ w.store.tables.versions) (document : u.document = id) :
    reply c w caller (.getVersion id u.number) = .ok (.version u) := by
  obtain ⟨_, d, ws, admitted⟩ := admitted
  obtain rfl := documentFor_number numbered admitted
  have filed : u ∈ w.store.tables.versionsOf d.id :=
    List.mem_filter.mpr ⟨stored, beq_iff_eq.mpr document⟩
  obtain ⟨i, at_⟩ := List.getElem?_of_mem filed
  have inOrder := chronicled.inOrder d.id
  have read := (told chronicled calm admitted).single i u at_
  rw [← inOrder.number_at at_] at read
  exact read

/-- A listing shows such rows and no others, page by page in this order, with their number. -/
structure Listed (reply : Operation → Except Failure Answer) (ask : PageQuery → Operation)
    (wrap : Listing α → Answer) (belongs : α → Prop) (above : α → α → Prop) (rows : List α)
    (data : PageQuery → List α) : Prop where
  ordered : Repository.Ordered belongs above rows
  pages : Pages data rows
  replies : ∀ query, reply (ask query) = .ok (wrap ⟨data query, rows.length, query.normalize⟩)

variable {replies : Operation → Except Failure Answer} {ask : PageQuery → Operation}

theorem listed_newest {wrap : Listing α → Answer} {belongs : α → Prop} {table : List α}
    {p : α → Bool} {key : α → Instant × Int} (picks : ∀ r, r ∈ table ∧ p r = true ↔ belongs r)
    (distinct : (table.map fun r => (key r).2).Nodup) (short : (table.length : Int) ≤ maxCount)
    (answered : ∀ query, replies (ask query) = .ok (wrap
      ⟨Repository.window query.normalize.limit query.normalize.offset
        (Repository.newestFirst key (table.filter p)), (table.filter p).length,
        query.normalize⟩)) :
    ∃ rows data, Listed replies ask wrap belongs (fun a b => Above (key a) (key b)) rows data := by
  have size : (Repository.newestFirst key (table.filter p)).length = (table.filter p).length :=
    List.length_mergeSort _
  have fewer : (table.filter p).length ≤ table.length := List.length_filter_le _ _
  refine ⟨_, _, Repository.newestFirst_ordered picks distinct,
    Repository.pages_window (by omega), ?_⟩
  rw [size]
  exact answered

theorem workspaces_listed (calm : c.Calm) (numbered : w.store.Numbered)
    (narrow : (w.store.lastId : Int) ≤ maxCount) {owner : Int} (own : caller.user = some owner) :
    ∃ rows data, Listed (reply c w caller) .listWorkspaces .workspaces
      (fun v => v ∈ w.store.tables.workspaces ∧ v.owner = owner ∧ v.isLive = true)
      (fun a b => Above (a.createdAt, a.id) (b.createdAt, b.id)) rows data := by
  have lengths := numbered.lengths
  refine listed_newest (p := fun v => v.owner == owner && v.isLive) ?_ numbered.workspaces
    (by omega) fun query => ?_
  · simp
  · have user : (userOf caller).Ends inMemory c w w (.ok owner) := ends_userOf_ok.mpr ⟨rfl, own⟩
    have ends : (listWorkspaces caller query).Ends inMemory c w w.tick.tick
        (.ok ⟨w.store.tables.ownedPage owner query.normalize.limit query.normalize.offset,
          (w.store.tables.owned owner).length, query.normalize⟩) := by
      refine ends_then user ?_
      exact page_ends (f := fun t => t.ownedPage owner query.normalize.limit query.normalize.offset)
        (n := fun t => (t.owned owner).length) calm (fun _ => rfl) (fun _ => rfl) rfl
    exact reply_of_ends rfl ends

theorem documents_listed (calm : c.Calm) (numbered : w.store.Numbered)
    (narrow : (w.store.lastId : Int) ≤ maxCount)
    (admitted : AdmittedToWorkspace c w caller id .read) :
    ∃ rows data, Listed (reply c w caller) (.listDocuments id) .documents
      (fun d => d ∈ w.store.tables.documents ∧ d.workspace = id ∧ d.isLive = true)
      (fun a b => Above (a.createdAt, a.id) (b.createdAt, b.id)) rows data := by
  obtain ⟨v, ws, admitted⟩ := admitted
  have lengths := numbered.lengths
  have same : v.store = w.store := (workspaceFor_only _ _ _).same admitted
  obtain rfl : ws.id = id := Repository.key_of_find (workspaceFor_read admitted).1
  refine listed_newest (p := fun d => d.workspace == ws.id && d.isLive) ?_ numbered.documents
    (by omega) fun query => ?_
  · simp
  · have ends : (listDocuments caller ws.id query).Ends inMemory c w v.tick.tick
        (.ok ⟨w.store.tables.documentPage ws.id query.normalize.limit query.normalize.offset,
          (w.store.tables.documentsOf ws.id).length, query.normalize⟩) := by
      refine ends_then admitted ?_
      exact page_ends
        (f := fun t => t.documentPage ws.id query.normalize.limit query.normalize.offset)
        (n := fun t => (t.documentsOf ws.id).length) calm (fun _ => rfl) (fun _ => rfl) same
    exact reply_of_ends rfl ends

theorem shares_listed (calm : c.Calm) (numbered : w.store.Numbered)
    (narrow : (w.store.lastId : Int) ≤ maxCount)
    (admitted : AdmittedToDocument c w caller id .manage) :
    ∃ rows data, Listed (reply c w caller) (.listShares id) .shares
      (fun s => s ∈ w.store.tables.shares ∧ s.document = id ∧ s.isLive = true)
      (fun a b => Above (a.createdAt, a.id) (b.createdAt, b.id)) rows data := by
  obtain ⟨v, d, ws, admitted⟩ := admitted
  obtain rfl := documentFor_number numbered admitted
  have lengths := numbered.lengths
  have same : v.store = w.store := (documentFor_only _ _ _).same admitted
  refine listed_newest (p := fun s => s.document == d.id && s.isLive) ?_ numbered.shares
    (by omega) fun query => ?_
  · simp
  · have ends : (listShares caller d.id query).Ends inMemory c w v.tick.tick
        (.ok ⟨w.store.tables.sharePage d.id query.normalize.limit query.normalize.offset,
          (w.store.tables.sharesOf d.id).length, query.normalize⟩) := by
      refine ends_then admitted ?_
      exact page_ends (f := fun t => t.sharePage d.id query.normalize.limit query.normalize.offset)
        (n := fun t => (t.sharesOf d.id).length) calm (fun _ => rfl) (fun _ => rfl) same
    exact reply_of_ends rfl ends

theorem versions_listed (calm : c.Calm) (numbered : w.store.Numbered)
    (chronicled : w.store.Chronicled) (narrow : (w.store.lastId : Int) ≤ maxCount)
    (admitted : AdmittedToDocument c w caller id .read) :
    ∃ rows data, Listed (reply c w caller) (.listVersions id) .versions
      (fun u => u ∈ w.store.tables.versions ∧ u.document = id)
      (fun a b => b.number < a.number) rows data := by
  obtain ⟨v, d, ws, admitted⟩ := admitted
  obtain rfl := documentFor_number numbered admitted
  have lengths := numbered.lengths
  have same : v.store = w.store := (documentFor_only _ _ _).same admitted
  have size : ((w.store.tables.versionsOf d.id).mergeSort fun a b => b.number ≤ a.number).length =
      (w.store.tables.versionsOf d.id).length := List.length_mergeSort _
  have fewer : (w.store.tables.versionsOf d.id).length ≤ w.store.tables.versions.length :=
    List.length_filter_le _ _
  refine ⟨_, _, Repository.versions_ordered chronicled d.id, Repository.pages_window (by omega),
    fun query => ?_⟩
  rw [size]
  have ends : (listVersions caller d.id query).Ends inMemory c w v.tick.tick
      (.ok ⟨w.store.tables.versionPage d.id query.normalize.limit query.normalize.offset,
        (w.store.tables.versionsOf d.id).length, query.normalize⟩) := by
    refine ends_then admitted ?_
    exact page_ends (f := fun t => t.versionPage d.id query.normalize.limit query.normalize.offset)
      (n := fun t => (t.versionsOf d.id).length) calm (fun _ => rfl) (fun _ => rfl) same
  exact reply_of_ends rfl ends

/-- Whatever page is asked for, who is let through is answered and no one else. -/
def Gated (reply : Operation → Except Failure Answer) (ask : PageQuery → Operation)
    (admitted : Prop) : Prop :=
  ∀ query, (∃ a, reply (ask query) = .ok a) ↔ admitted

theorem gated_of_listed {admitted : Prop} {wrap : Listing α → Answer} {belongs : α → Prop}
    {above : α → α → Prop} (needed : ∀ query a, replies (ask query) = .ok a → admitted)
    (listed : admitted → ∃ rows data, Listed replies ask wrap belongs above rows data) :
    Gated replies ask admitted := by
  intro query
  constructor
  · rintro ⟨a, answered⟩
    exact needed query a answered
  · intro admitted
    obtain ⟨rows, data, shown⟩ := listed admitted
    exact ⟨_, shown.replies query⟩

theorem owner_of_workspaces {query : PageQuery} {a : Answer}
    (answered : reply c w caller (.listWorkspaces query) = .ok a) :
    ∃ owner, caller.user = some owner := by
  obtain ⟨_, _, ends⟩ := ends_of_reply rfl answered
  obtain ⟨_, owner, user, _⟩ := ends_bind_ok.mp ends
  exact ⟨owner, (ends_userOf_ok.mp user).2⟩

theorem admitted_of_documents {query : PageQuery} {a : Answer}
    (answered : reply c w caller (.listDocuments id query) = .ok a) :
    AdmittedToWorkspace c w caller id .read := by
  obtain ⟨_, _, ends⟩ := ends_of_reply rfl answered
  obtain ⟨v, ws, admitted, _⟩ := ends_bind_ok.mp ends
  exact ⟨v, ws, admitted⟩

theorem admitted_of_versions {query : PageQuery} {a : Answer}
    (answered : reply c w caller (.listVersions id query) = .ok a) :
    AdmittedToDocument c w caller id .read := by
  obtain ⟨_, _, ends⟩ := ends_of_reply rfl answered
  obtain ⟨v, ⟨d, ws⟩, admitted, _⟩ := ends_bind_ok.mp ends
  exact ⟨v, d, ws, admitted⟩

theorem admitted_of_shares {query : PageQuery} {a : Answer}
    (answered : reply c w caller (.listShares id query) = .ok a) :
    AdmittedToDocument c w caller id .manage := by
  obtain ⟨_, _, ends⟩ := ends_of_reply rfl answered
  obtain ⟨v, ⟨d, ws⟩, admitted, _⟩ := ends_bind_ok.mp ends
  exact ⟨v, d, ws, admitted⟩

/-- Workspaces are listed for whoever is signed in, documents for whoever may read the workspace,
versions for whoever may read the document and shares for whoever may manage it. In a state that
requests lead to, whoever is let through gets any page that is asked for, and all pages of one size
make up just the rows of the listing, from above down. Every workspace, document and version in it
is also answered with when it is asked for alone. Numbers of rows are taken to fit 64 bits, as those
of pages do. -/
theorem Reachable.listings (reached : Reachable w.store) (calm : c.Calm)
    (narrow : (w.store.lastId : Int) ≤ maxCount) (caller : Caller) :
    let t := w.store.tables
    let reply := reply c w caller
    (Gated reply .listWorkspaces (∃ owner, caller.user = some owner) ∧
      ∀ owner, caller.user = some owner →
        (∃ rows data, Listed reply .listWorkspaces .workspaces
          (fun v => v ∈ t.workspaces ∧ v.owner = owner ∧ v.isLive = true)
          (fun a b => Above (a.createdAt, a.id) (b.createdAt, b.id)) rows data) ∧
        ∀ v ∈ t.workspaces, v.owner = owner → v.isLive = true →
          reply (.getWorkspace v.id) = .ok (.workspace v)) ∧
    (∀ id, Gated reply (.listDocuments id) (AdmittedToWorkspace c w caller id .read) ∧
      (AdmittedToWorkspace c w caller id .read →
        (∃ rows data, Listed reply (.listDocuments id) .documents
          (fun d => d ∈ t.documents ∧ d.workspace = id ∧ d.isLive = true)
          (fun a b => Above (a.createdAt, a.id) (b.createdAt, b.id)) rows data) ∧
        ∀ d ∈ t.documents, d.workspace = id → d.isLive = true →
          ∃ latest, reply (.getDocument d.id) = .ok (.detail ⟨d, latest⟩))) ∧
    (∀ id, Gated reply (.listVersions id) (AdmittedToDocument c w caller id .read) ∧
      (AdmittedToDocument c w caller id .read →
        (∃ rows data, Listed reply (.listVersions id) .versions
          (fun v => v ∈ t.versions ∧ v.document = id) (fun a b => b.number < a.number)
          rows data) ∧
        ∀ v ∈ t.versions, v.document = id →
          reply (.getVersion id v.number) = .ok (.version v))) ∧
    (∀ id, Gated reply (.listShares id) (AdmittedToDocument c w caller id .manage) ∧
      (AdmittedToDocument c w caller id .manage →
        ∃ rows data, Listed reply (.listShares id) .shares
          (fun s => s ∈ t.shares ∧ s.document = id ∧ s.isLive = true)
          (fun a b => Above (a.createdAt, a.id) (b.createdAt, b.id)) rows data)) ∧
    ∀ query : PageQuery, (∀ n ∈ query.page, n ≤ maxCount) → query.normalize.Fits := by
  intro t reply
  have numbered := reached.numbered
  have chronicled := reached.chronicled
  refine ⟨⟨?_, ?_⟩, fun id => ⟨?_, ?_⟩, fun id => ⟨?_, ?_⟩, fun id => ⟨?_, ?_⟩,
    fun query => Repository.normalize_fits⟩
  · intro query
    constructor
    · rintro ⟨a, answered⟩
      exact owner_of_workspaces answered
    · rintro ⟨owner, own⟩
      obtain ⟨_, _, shown⟩ := workspaces_listed calm numbered narrow own
      exact ⟨_, shown.replies query⟩
  · intro owner own
    refine ⟨workspaces_listed calm numbered narrow own, ?_⟩
    rintro v stored rfl live
    exact getWorkspace_own calm numbered stored own live
  · exact gated_of_listed (fun _ _ => admitted_of_documents)
      (documents_listed calm numbered narrow)
  · intro admitted
    refine ⟨documents_listed calm numbered narrow admitted, ?_⟩
    obtain ⟨_, ws, admitted⟩ := admitted
    obtain ⟨found, reader⟩ := workspaceFor_read admitted
    obtain rfl : ws.id = id := Repository.key_of_find found
    intro d stored inside live
    exact getDocument_within calm numbered found reader stored inside live
  · exact gated_of_listed (fun _ _ => admitted_of_versions)
      (versions_listed calm numbered chronicled narrow)
  · intro admitted
    refine ⟨versions_listed calm numbered chronicled narrow admitted, ?_⟩
    intro u stored document
    exact getVersion_within calm numbered chronicled admitted stored document
  · exact gated_of_listed (fun _ _ => admitted_of_shares) (shares_listed calm numbered narrow)
  · exact shares_listed calm numbered narrow

def filled : World Memory :=
  let caller : Caller := ⟨some 1, none⟩
  ((sample.after caller (.createDocument 1 ⟨"Plan", .mermaid, none, none, none⟩)).after caller
    (.createVersion 2 ⟨"a-->c", none⟩)).after caller (.shareDocument 2 ⟨some 2, .view, none⟩)

theorem filled_reachable : Reachable filled.store :=
  ((sample_reachable.after _ _).after _ _).after _ _

theorem Gated.admitted {admitted : Prop} (gated : Gated replies ask admitted) (query : PageQuery)
    (answered : (replies (ask query)).isOk = true) : admitted := by
  apply (gated query).mp
  cases shown : replies (ask query) with
  | error e =>
    rw [shown] at answered
    cases answered
  | ok a => exact ⟨a, rfl⟩

theorem Gated.refused {admitted : Prop} (gated : Gated replies ask admitted) (query : PageQuery)
    (shut : (replies (ask query)).isOk = false) (other : PageQuery) (a : Answer) :
    replies (ask other) ≠ .ok a := by
  intro answered
  obtain ⟨b, shown⟩ := (gated query).mpr ((gated other).mp ⟨a, answered⟩)
  rw [shown] at shut
  cases shut

/-- User 1 is let through to all four listings of the filled sample and finds each row alone. User
2, who has a share of document 2, is let through to its versions, but not to the documents of the
workspace. -/
theorem filled_listings :
    let t := filled.store.tables
    let owner := reply steady filled ⟨some 1, none⟩
    let guest := reply steady filled ⟨some 2, none⟩
    (t.workspaces.map (·.id) = [1] ∧ t.documents.map (·.id) = [2, 5] ∧
      t.versions.map (·.number) = [1, 2] ∧ t.shares.map (·.id) = [4, 7]) ∧
    (∃ rows data, Listed owner .listWorkspaces .workspaces
      (fun v => v ∈ t.workspaces ∧ v.owner = 1 ∧ v.isLive = true)
      (fun a b => Above (a.createdAt, a.id) (b.createdAt, b.id)) rows data) ∧
    (∃ rows data, Listed owner (.listDocuments 1) .documents
      (fun d => d ∈ t.documents ∧ d.workspace = 1 ∧ d.isLive = true)
      (fun a b => Above (a.createdAt, a.id) (b.createdAt, b.id)) rows data) ∧
    (∃ rows data, Listed owner (.listVersions 2) .versions
      (fun v => v ∈ t.versions ∧ v.document = 2) (fun a b => b.number < a.number) rows data) ∧
    (∃ rows data, Listed owner (.listShares 2) .shares
      (fun s => s ∈ t.shares ∧ s.document = 2 ∧ s.isLive = true)
      (fun a b => Above (a.createdAt, a.id) (b.createdAt, b.id)) rows data) ∧
    ((∀ v ∈ t.workspaces, owner (.getWorkspace v.id) = .ok (.workspace v)) ∧
      (∀ d ∈ t.documents, ∃ latest, owner (.getDocument d.id) = .ok (.detail ⟨d, latest⟩)) ∧
      ∀ v ∈ t.versions, owner (.getVersion 2 v.number) = .ok (.version v)) ∧
    (∀ v ∈ t.versions, guest (.getVersion 2 v.number) = .ok (.version v)) ∧
    ∀ query a, guest (.listDocuments 1 query) ≠ .ok a := by
  intro t owner guest
  have listings := filled_reachable.listings (c := steady) (fun _ => rfl) (by decide +kernel)
  obtain ⟨⟨_, workspaces⟩, documents, versions, shares, _⟩ := listings ⟨some 1, none⟩
  obtain ⟨_, guestDocuments, guestVersions, _, _⟩ := listings ⟨some 2, none⟩
  have allWorkspaces : ∀ v ∈ t.workspaces, v.owner = 1 ∧ v.isLive = true := by decide +kernel
  have allDocuments : ∀ d ∈ t.documents, d.workspace = 1 ∧ d.isLive = true := by decide +kernel
  have allVersions : ∀ v ∈ t.versions, v.document = 2 := by decide +kernel
  obtain ⟨workspacesListed, workspaceRead⟩ := workspaces 1 rfl
  obtain ⟨documentsListed, documentRead⟩ := (documents 1).2
    ((documents 1).1.admitted ⟨none, none⟩ (by decide +kernel))
  obtain ⟨versionsListed, versionRead⟩ := (versions 2).2
    ((versions 2).1.admitted ⟨none, none⟩ (by decide +kernel))
  have sharesListed := (shares 2).2 ((shares 2).1.admitted ⟨none, none⟩ (by decide +kernel))
  obtain ⟨_, guestRead⟩ := (guestVersions 2).2
    ((guestVersions 2).1.admitted ⟨none, none⟩ (by decide +kernel))
  refine ⟨by decide +kernel, workspacesListed, documentsListed, versionsListed, sharesListed,
    ⟨?_, ?_, ?_⟩, ?_, ?_⟩
  · intro v stored
    obtain ⟨own, live⟩ := allWorkspaces v stored
    exact workspaceRead v stored own live
  · intro d stored
    obtain ⟨inside, live⟩ := allDocuments d stored
    exact documentRead d stored inside live
  · exact fun v stored => versionRead v stored (allVersions v stored)
  · exact fun v stored => guestRead v stored (allVersions v stored)
  · exact (guestDocuments 1).1.refused ⟨none, none⟩ (by decide +kernel)

end DiagramShare.Service
