import DiagramShare.Proofs.Effect
import DiagramShare.Proofs.Listing

/-! Histories of documents. Versions are only ever added, and those of one document are numbered from
one in the order of their addition, so that all ways of reading them agree. -/
namespace DiagramShare.Repository

open DiagramShare.Time (Instant)

def upTo (n : Nat) : List Int := (List.range n).map fun (i : Nat) => (i : Int) + 1

theorem upTo_succ (n : Nat) : upTo (n + 1) = upTo n ++ [(n : Int) + 1] := by
  simp [upTo, List.range_succ]

theorem foldl_max_upTo (n : Nat) : (upTo n).foldl max 0 = (n : Int) := by
  induction n with
  | zero => rfl
  | succ n ih =>
    rw [upTo_succ, List.foldl_append, ih, List.foldl_cons, List.foldl_nil]
    omega

theorem upTo_rising (n : Nat) : (upTo n).Pairwise (· < ·) := by
  rw [upTo, List.pairwise_map]
  exact List.pairwise_lt_range.imp fun h => by omega

def InOrder (rows : List Version) : Prop := rows.map Version.number = upTo rows.length

namespace InOrder

variable {rows : List Version}

theorem snoc (h : InOrder rows) {v : Version} (next : v.number = rows.length + 1) :
    InOrder (rows ++ [v]) := by
  rw [InOrder, List.map_append, h, List.length_append, List.length_singleton, upTo_succ, ← next]
  rfl

theorem number_at (h : InOrder rows) {i : Nat} {v : Version} (at_ : rows[i]? = some v) :
    v.number = i + 1 := by
  obtain ⟨hi, _⟩ := List.getElem?_eq_some_iff.mp at_
  have number : (rows.map Version.number)[i]? = some v.number := by
    rw [List.getElem?_map, at_]
    rfl
  rw [h] at number
  simp only [upTo, List.getElem?_map, List.getElem?_range hi, Option.map_some,
    Option.some.injEq] at number
  exact number.symm

theorem find_number (h : InOrder rows) (i : Nat) :
    (rows.find? fun v => v.number == (i : Int) + 1) = rows[i]? := by
  cases found : rows.find? fun v => v.number == (i : Int) + 1 with
  | some v =>
    have number : v.number = i + 1 := by simpa using List.find?_some found
    obtain ⟨j, at_⟩ := List.getElem?_of_mem (List.mem_of_find?_eq_some found)
    have place := h.number_at at_
    obtain rfl : j = i := by omega
    exact at_.symm
  | none =>
    cases at_ : rows[i]? with
    | none => rfl
    | some v =>
      have missed := List.find?_eq_none.mp found v (List.mem_of_getElem? at_)
      exact absurd (beq_iff_eq.mpr (h.number_at at_)) missed

theorem find_none (h : InOrder rows) {k : Int} (out : ¬ (1 ≤ k ∧ k ≤ rows.length)) :
    (rows.find? fun v => v.number == k) = none := by
  refine List.find?_eq_none.mpr fun v hv numbered => out ?_
  obtain ⟨j, at_⟩ := List.getElem?_of_mem hv
  obtain ⟨inside, _⟩ := List.getElem?_eq_some_iff.mp at_
  have place := h.number_at at_
  have same : v.number = k := beq_iff_eq.mp numbered
  omega

theorem sorted (h : InOrder rows) :
    (rows.mergeSort fun a b => b.number ≤ a.number) = rows.reverse := by
  refine mergeSort_eq_reverse ?_ ?_ ?_
  · intro a b c
    simp only [decide_eq_true_eq]
    omega
  · intro a b
    simp only [Bool.or_eq_true, decide_eq_true_eq]
    omega
  · have rising : (rows.map Version.number).Pairwise (· < ·) := h ▸ upTo_rising _
    refine (List.pairwise_map.mp rising).imp fun below => ?_
    simp only [decide_eq_true_eq, decide_eq_false_iff_not]
    omega

end InOrder

def Change.stored (change : Change) (m : Memory) : List Version :=
  match change with
  | addDocumentWithVersion new first now => [m.firstVersion (new.row m.nextId now) first now]
  | addVersion new now => [m.nextVersion new now]
  | _ => []

theorem Change.versions_on (change : Change) (m : Memory) :
    (change.on m).tables.versions = m.tables.versions ++ change.stored m := by
  cases change with
  | know user =>
    rw [on, (m.kept_know user).tables]
    exact (List.append_nil _).symm
  | addDocumentWithVersion new first now => rfl
  | addVersion new now => rfl
  | _ => exact (List.append_nil _).symm

theorem versionsOf_append {t t' : Tables} {added : List Version}
    (h : t'.versions = t.versions ++ added) (document : Int) :
    t'.versionsOf document =
      t.versionsOf document ++ added.filter fun v => v.document == document := by
  rw [Tables.versionsOf, h, List.filter_append]
  rfl

/-- The versions of every document are in order, and no document has versions before it has a
number. -/
structure Memory.Chronicled (m : Memory) : Prop where
  inOrder : ∀ document, InOrder (m.tables.versionsOf document)
  filed : ∀ v ∈ m.tables.versions, v.document ≤ m.lastId

namespace Memory.Chronicled

variable {m m' : Memory}

theorem lastNumber (h : m.Chronicled) (document : Int) :
    m.tables.lastNumber document = (m.tables.versionsOf document).length := by
  rw [Tables.lastNumber, h.inOrder document, foldl_max_upTo]

theorem versionsOf_next (h : m.Chronicled) : m.tables.versionsOf m.nextId = [] := by
  refine List.filter_eq_nil_iff.mpr fun v hv same => ?_
  have filed := h.filed v hv
  have next : v.document = m.nextId := beq_iff_eq.mp same
  simp only [nextId] at next
  omega

theorem same (h : m.Chronicled) (rows : m'.tables.versions = m.tables.versions)
    (counted : m.lastId ≤ m'.lastId) : m'.Chronicled := by
  refine ⟨fun document => ?_, fun v hv => ?_⟩
  · rw [Tables.versionsOf, rows]
    exact h.inOrder document
  · have filed := h.filed v (rows ▸ hv)
    omega

theorem kept {used : Nat} (h : m.Chronicled) (kept : m.Kept used m') : m'.Chronicled :=
  h.same (congrArg Tables.versions kept.tables) (kept.lastId ▸ Nat.le_add_right _ _)

theorem snoc (h : m.Chronicled) {v : Version} (rows : m'.tables.versions = m.tables.versions ++ [v])
    (counted : m.lastId ≤ m'.lastId) (filed : v.document ≤ m'.lastId)
    (number : v.number = m.tables.lastNumber v.document + 1) : m'.Chronicled := by
  refine ⟨fun document => ?_, fun u hu => ?_⟩
  · rw [versionsOf_append rows]
    by_cases same : v.document = document
    · have picked : [v].filter (fun u => u.document == document) = [v] := by simp [same]
      rw [picked]
      refine (h.inOrder document).snoc ?_
      rw [number, h.lastNumber, same]
    · have passed : [v].filter (fun u => u.document == document) = [] := by simp [same]
      rw [passed, List.append_nil]
      exact h.inOrder document
  · rw [rows] at hu
    rcases List.mem_append.mp hu with hu | hu
    · have bound := h.filed u hu
      omega
    · cases List.mem_singleton.mp hu
      exact filed

theorem change (h : m.Chronicled) (numbered : m.Numbered) {change : Change}
    (fits : change.Fits m) : (change.on m).Chronicled := by
  have rows := change.versions_on m
  cases change with
  | know user => exact h.kept (m.kept_know user)
  | addWorkspace new now => exact h.same rfl (Nat.le_succ _)
  | addDocument new now => exact h.same rfl (Nat.le_succ _)
  | addDocumentWithVersion new first now =>
    refine h.snoc rows (Nat.le_add_right _ 2) ?_ rfl
    exact Int.ofNat_le.mpr (Nat.le_succ (m.lastId + 1))
  | addVersion new now =>
    obtain ⟨d, found⟩ := fits.1
    have stored := Tables.document_mem_ids (List.mem_of_find?_eq_some found)
    have bound := (numbered.inRange _ stored).2
    rw [key_of_find found] at bound
    refine h.snoc rows (Nat.le_succ _) ?_ rfl
    exact bound.trans (Int.ofNat_le.mpr (Nat.le_succ _))
  | addShare new now => exact h.same rfl (Nat.le_succ _)
  | _ => exact h.same rfl (Nat.le_refl _)

end Memory.Chronicled

end DiagramShare.Repository

namespace DiagramShare.Service

open DiagramShare.Access
open DiagramShare.Repository (Memory Call Change)
open DiagramShare.Time (Instant)

variable {c : Conditions} {w w' : World Memory} {caller : Caller} {op : Operation} {m : Memory}

theorem serve_chronicled (numbered : w.store.Numbered) (h : w.store.Chronicled)
    {r : Except Failure Answer} (ends : (serve caller op).Ends inMemory c w w' r) :
    w'.store.Chronicled := by
  rcases serve_cases numbered ends with ⟨_, _, _, kept⟩ | ⟨_, m, change, _, effect⟩
  · exact h.kept kept
  · rw [effect.result]
    exact (h.kept effect.kept).change (effect.kept.numbered numbered) effect.fits

theorem Reachable.chronicled (reached : Reachable m) : m.Chronicled := by
  induction reached with
  | empty => exact ⟨fun _ => rfl, nofun⟩
  | served before c caller op ih => exact serve_chronicled before.numbered ih (ends_run _ _)
  | failing _ fail ih => exact ⟨ih.inOrder, ih.filed⟩

theorem Effect.versions {change : Change} (effect : Effect c caller op w w' m change) :
    w'.store.tables.versions = w.store.tables.versions ++ change.stored m := by
  rw [effect.result, change.versions_on, effect.kept.tables]

theorem serve_versions (numbered : w.store.Numbered) {r : Except Failure Answer}
    (ends : (serve caller op).Ends inMemory c w w' r) :
    w.store.tables.versions <+: w'.store.tables.versions := by
  rcases serve_cases numbered ends with ⟨_, _, _, kept⟩ | ⟨_, m, change, _, effect⟩
  · exact kept.tables ▸ List.prefix_rfl
  · exact ⟨_, effect.versions.symm⟩

/-- Such a row is the next version of a document and the only one that is added. -/
structure Appended (t t' : Repository.Tables) (id : Int) (v : Version) : Prop where
  rows : t'.versions = t.versions ++ [v]
  document : v.document = id
  number : v.number = (t.versionsOf id).length + 1

theorem createVersion_appends (numbered : w.store.Numbered) (h : w.store.Chronicled)
    {request : VersionRequest} {id : Int} {v : Version}
    (ends : (createVersion caller id request).Ends inMemory c w w' (.ok v)) :
    Appended w.store.tables w'.store.tables id v ∧ v.content = request.content ∧
      v.author = caller.user := by
  obtain ⟨m, new, now, effect, rfl, content, author, rfl⟩ := createVersion_made numbered ends
  refine ⟨⟨effect.versions, rfl, ?_⟩, content, author⟩
  change m.tables.lastNumber new.document + 1 = _
  rw [effect.kept.tables, h.lastNumber]

theorem createDocument_appends (numbered : w.store.Numbered) (h : w.store.Chronicled)
    {request : DocumentRequest} {id : Int} {detail : DocumentDetail}
    (ends : (createDocument caller id request).Ends inMemory c w w' (.ok detail)) :
    detail.document ∈ w'.store.tables.documents ∧
      w'.store.tables.versionsOf detail.document.id = detail.latestVersion.toList ∧
      (detail.latestVersion.map fun v => (v.number, v.content, v.author)) =
        request.content.map fun content => (1, content, caller.user) := by
  obtain ⟨m, new, now, ⟨effect, empty, rfl⟩ | ⟨first, effect, content, author, rfl⟩⟩ :=
    createDocument_made numbered ends
  · have none_yet := (h.kept effect.kept).versionsOf_next
    rw [effect.result]
    refine ⟨List.mem_append_right _ (List.mem_singleton_self _), none_yet, ?_⟩
    rw [empty]
    rfl
  · have none_yet := (h.kept effect.kept).versionsOf_next
    have first_number : m.tables.lastNumber m.nextId = 0 := by
      rw [(h.kept effect.kept).lastNumber, none_yet]
      rfl
    refine ⟨?_, ?_, ?_⟩
    · rw [effect.result]
      exact List.mem_append_right _ (List.mem_singleton_self _)
    · rw [effect.result, Repository.versionsOf_append (Change.versions_on _ m)]
      change m.tables.versionsOf m.nextId ++ _ = _
      rw [none_yet]
      simp [Change.stored, Memory.firstVersion, Memory.nextVersion, NewVersion.row,
        FirstVersion.of]
    · have number : (m.firstVersion (new.row m.nextId now) first now).number =
          m.tables.lastNumber m.nextId + 1 := rfl
      simp only [content, Option.map_some, number, first_number, ← author]
      rfl

theorem lookUp_calm (what : String) (call : Call β) {g : Repository.Tables → Option β}
    (calm : c.Calm)
    (reads : ∀ now, Memory.answer now call = Memory.read fun t => Repository.orNotFound (g t))
    (w : World Memory) :
    (Program.lookUp what call).Ends inMemory c w w.tick
      ((g w.store.tables).elim (.error (.notFound what)) .ok) := by
  refine ends_ask.mpr ⟨_, _, answers_calm calm reads w, ?_⟩
  cases g w.store.tables <;> simp [Repository.orNotFound, Failure.ofLookup]

/-- What readers of a document are told: each version by its number, the latest one, and all of them
from the last to the first. -/
structure Told (c : Conditions) (caller : Caller) (w : World Memory) (d : Document) : Prop where
  single : ∀ (i : Nat) v, (w.store.tables.versionsOf d.id)[i]? = some v →
    ((serve caller (.getVersion d.id (i + 1))).run inMemory c w).2.1 = .ok (.version v)
  missing : ∀ k : Int, ¬ (1 ≤ k ∧ k ≤ (w.store.tables.versionsOf d.id).length) →
    ((serve caller (.getVersion d.id k)).run inMemory c w).2.1 = .error (.notFound "version")
  latest : ((serve caller (.getDocument d.id)).run inMemory c w).2.1 =
    .ok (.detail ⟨d, (w.store.tables.versionsOf d.id).getLast?⟩)
  listed : ∀ query, ((serve caller (.listVersions d.id query)).run inMemory c w).2.1 =
    .ok (.versions ⟨((w.store.tables.versionsOf d.id).reverse.drop
        query.normalize.offset.toNat).take query.normalize.limit.toNat,
      (w.store.tables.versionsOf d.id).length, query.normalize⟩)

theorem version_eq_find (t : Repository.Tables) (document number : Int) :
    t.version? document number =
      (t.versionsOf document).find? fun v => v.number == number := by
  rw [Repository.Tables.version?, Repository.Tables.versionsOf, List.find?_filter]
  simp only [Bool.decide_and, Bool.decide_eq_true]

theorem latestVersion_eq (h : m.Chronicled) (document : Int) :
    m.tables.latestVersion? document = (m.tables.versionsOf document).getLast? := by
  rw [Repository.Tables.latestVersion?, h.lastNumber, List.getLast?_eq_getElem?]
  cases counted : (m.tables.versionsOf document).length with
  | zero => rw [List.length_eq_zero_iff.mp counted]; rfl
  | succ n => exact (h.inOrder document).find_number n

theorem getVersion_reply (calm : c.Calm) {d : Document} {ws : Workspace}
    {v : World Memory} (reader : (documentFor caller d.id .read).Ends inMemory c w v (.ok (d, ws)))
    (k : Int) :
    (getVersion caller d.id k).Ends inMemory c w v.tick
      (((w.store.tables.versionsOf d.id).find? fun v => v.number == k).elim
        (.error (.notFound "version")) .ok) := by
  have same : v.store = w.store := (documentFor_only _ _ _).same reader
  refine ends_then reader ?_
  rw [← same, ← version_eq_find]
  exact lookUp_calm "version" (.findVersion d.id k) (g := fun t => t.version? d.id k) calm
    (fun _ => rfl) v

theorem told (h : w.store.Chronicled) (calm : c.Calm) {d : Document} {ws : Workspace}
    {v : World Memory} (reader : (documentFor caller d.id .read).Ends inMemory c w v (.ok (d, ws))) :
    Told c caller w d := by
  have same : v.store = w.store := (documentFor_only _ _ _).same reader
  have inOrder := h.inOrder d.id
  refine ⟨?_, ?_, ?_, ?_⟩
  · intro i row at_
    have found := getVersion_reply calm reader (i + 1)
    rw [inOrder.find_number, at_] at found
    exact (ends_as.mpr ⟨_, found, rfl⟩).2
  · intro k out
    have missed := getVersion_reply calm reader k
    rw [inOrder.find_none out] at missed
    exact (ends_as.mpr ⟨_, missed, rfl⟩).2
  · have looked : (Program.query (.latestVersion d.id)).Ends inMemory c v v.tick
        (.ok ((w.store.tables.versionsOf d.id).getLast?)) := by
      rw [← latestVersion_eq h, ← same]
      exact query_calm (g := fun t => t.latestVersion? d.id) calm (fun _ => rfl) v
    have ends : (getDocument caller d.id).Ends inMemory c w v.tick
        (.ok ⟨d, (w.store.tables.versionsOf d.id).getLast?⟩) := by
      refine ends_then reader (ends_then looked ?_)
      exact ends_pure.mpr ⟨rfl, rfl⟩
    exact (ends_as.mpr ⟨_, ends, rfl⟩).2
  · intro query
    have paged : (Program.query (.findVersions d.id query.normalize.limit
        query.normalize.offset)).Ends inMemory c v v.tick
        (.ok (((w.store.tables.versionsOf d.id).reverse.drop
          query.normalize.offset.toNat).take query.normalize.limit.toNat)) := by
      rw [← Repository.window_page, ← inOrder.sorted, ← same]
      exact query_calm
        (g := fun t => t.versionPage d.id query.normalize.limit query.normalize.offset) calm
        (fun _ => rfl) v
    have counted : (Program.query (.countVersions d.id)).Ends inMemory c v.tick v.tick.tick
        (.ok (w.store.tables.versionsOf d.id).length) := by
      rw [← same]
      exact query_calm (g := fun t => (t.versionsOf d.id).length) calm (fun _ => rfl) v.tick
    have ends : (listVersions caller d.id query).Ends inMemory c w v.tick.tick
        (.ok ⟨((w.store.tables.versionsOf d.id).reverse.drop
            query.normalize.offset.toNat).take query.normalize.limit.toNat,
          (w.store.tables.versionsOf d.id).length, query.normalize⟩) := by
      refine ends_then reader (ends_then paged (ends_then counted ?_))
      exact ends_pure.mpr ⟨rfl, rfl⟩
    exact (ends_as.mpr ⟨_, ends, rfl⟩).2

/-- In every state that requests lead to, the versions of each document are numbered from one in the
order of their addition. No operation changes or removes a version. A new version gets the next
number and a new document at most the first, with the content that was given and the caller as
author. Who may read a document is told just these versions, whichever way they are asked for. -/
theorem Reachable.history (reached : Reachable w.store) (c : Conditions) (caller : Caller) :
    let t := w.store.tables
    (∀ d ∈ t.documents, (t.versionsOf d.id).map Version.number =
      Repository.upTo (t.versionsOf d.id).length) ∧
    (∀ op w' r, (serve caller op).Ends inMemory c w w' r →
      t.versions <+: w'.store.tables.versions) ∧
    (∀ id request w' a, (serve caller (.createVersion id request)).Ends inMemory c w w' (.ok a) →
      ∃ v, a = .version v ∧ Appended t w'.store.tables id v ∧ v.content = request.content ∧
        v.author = caller.user) ∧
    (∀ id request w' a, (serve caller (.createDocument id request)).Ends inMemory c w w' (.ok a) →
      ∃ detail, a = .detail detail ∧ detail.document ∈ w'.store.tables.documents ∧
        w'.store.tables.versionsOf detail.document.id = detail.latestVersion.toList ∧
        (detail.latestVersion.map fun v => (v.number, v.content, v.author)) =
          request.content.map fun content => (1, content, caller.user)) ∧
    (∀ d ws v, c.Calm → (documentFor caller d.id .read).Ends inMemory c w v (.ok (d, ws)) →
      Told c caller w d) := by
  intro t
  have numbered := reached.numbered
  have chronicled := reached.chronicled
  refine ⟨fun d _ => chronicled.inOrder d.id, fun _ _ _ => serve_versions numbered, ?_, ?_, ?_⟩
  · intro id request w' a ends
    obtain ⟨v, made, rfl⟩ := ends_as_ok ends
    exact ⟨v, rfl, createVersion_appends numbered chronicled made⟩
  · intro id request w' a ends
    obtain ⟨detail, made, rfl⟩ := ends_as_ok ends
    exact ⟨detail, rfl, createDocument_appends numbered chronicled made⟩
  · intro d ws v calm reader
    exact told chronicled calm reader

/-- Whoever presents the token of the sample's share finds one version of its document. -/
theorem sample_history :
    ∃ d, d.id = 2 ∧ Told steady ⟨none, some "a"⟩ sample d ∧
      (sample.store.tables.versionsOf 2).map Version.number = [1] := by
  obtain ⟨numbers, _, _, _, reads⟩ :=
    sample_reachable.history steady ⟨none, some "a"⟩
  have opened : ∃ d ∈ sample.store.tables.documents, ∃ ws ∈ sample.store.tables.workspaces,
      d.id = 2 ∧ ((documentFor ⟨none, some "a"⟩ d.id .read).run inMemory steady
        sample).2.1.toOption = some (d, ws) := by decide +kernel
  obtain ⟨d, stored, ws, _, number, opened⟩ := opened
  have ends := ends_run (s := inMemory) (c := steady) (documentFor ⟨none, some "a"⟩ d.id .read)
    sample
  cases result : ((documentFor ⟨none, some "a"⟩ d.id .read).run inMemory steady sample).2.1 with
  | error e => simp [result, Except.toOption] at opened
  | ok pair =>
    rw [result] at ends
    obtain rfl : pair = (d, ws) := by simpa [result, Except.toOption] using opened
    have one : (sample.store.tables.versionsOf 2).length = 1 := by decide +kernel
    have numbers := numbers d stored
    rw [number, one] at numbers
    exact ⟨d, number, reads d ws _ (fun _ => rfl) ends, numbers⟩

end DiagramShare.Service
