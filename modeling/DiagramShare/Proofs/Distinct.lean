import DiagramShare.Proofs.History
import DiagramShare.Proofs.Lifetime
import DiagramShare.Proofs.Unique

/-! What is used once in the store in memory, whatever is asked of it: numbers of rows, names,
slugs, numbers of versions, bound users and tokens. -/
namespace DiagramShare.Repository

open DiagramShare.Time (Instant)

namespace Memory

def numberIn (number : α → Int) (result : Except Failure α) : List Int :=
  result.toOption.toList.map number

/-- The numbers that a call gives to rows, in their order. A document that is taken out again has
had a number too. -/
def given (now : Instant) : Call β → Memory → List Int
  | .createWorkspace new, m => numberIn Workspace.id (createWorkspace new now m).2
  | .createDocument new, m => numberIn Document.id (createDocument new now m).2
  | .createDocumentWithVersion new first, m =>
    match createDocument new now m, first with
    | (m', .ok d), some first =>
      d.id :: numberIn Version.id (createNextVersion (first.of d.id) now m').2
    | (_, result), _ => numberIn Document.id result
  | .createNextVersion new, m => numberIn Version.id (createNextVersion new now m).2
  | .createShare new, m => numberIn Share.id (createShare new now m).2
  | _, _ => []

/-- Some calls in a row, whoever makes them, with the numbers that they give. Between calls, the
writing of versions may begin to fail or work again. -/
inductive Leads (start : Memory) : List Int → Memory → Prop where
  | here : Leads start [] start
  | called {given : List Int} {m : Memory} (before : Leads start given m) (call : Call β)
      (now : Instant) : Leads start (given ++ m.given now call) (answer now call m).1
  | failing {given : List Int} {m : Memory} (before : Leads start given m) (fail : Bool) :
      Leads start given { m with failVersions := fail }

section Given

variable {m : Memory} {now : Instant}

theorem upTo_next (m : Memory) : upTo m.lastId ++ [m.nextId] = upTo (m.lastId + 1) :=
  (upTo_succ m.lastId).symm

theorem upTo_numberIn {result : Memory × Except Failure α} {number : α → Int} {t : Tables} {row : α}
    (cases_ : (∃ e, result = (m, .error e)) ∨ result = (m.take t, .ok row))
    (next : number row = m.nextId) :
    upTo m.lastId ++ numberIn number result.2 = upTo result.1.lastId := by
  rcases cases_ with ⟨e, he⟩ | hok
  · rw [he]
    exact List.append_nil _
  · rw [hok]
    change upTo m.lastId ++ [number row] = upTo (m.lastId + 1)
    rw [next, upTo_next]

theorem createDocument_given (new : NewDocument) (now : Instant) (m : Memory) :
    upTo m.lastId ++ numberIn Document.id (createDocument new now m).2 =
      upTo (createDocument new now m).1.lastId :=
  upTo_numberIn ((createDocument_cases new now m).imp_right And.right) rfl

theorem createNextVersion_given (new : NewVersion) (now : Instant) (m : Memory) :
    upTo m.lastId ++ numberIn Version.id (createNextVersion new now m).2 =
      upTo (createNextVersion new now m).1.lastId :=
  upTo_numberIn ((createNextVersion_cases new now m).imp_right And.right) rfl

theorem createDocumentWithVersion_given (new : NewDocument) (first : Option FirstVersion)
    (now : Instant) (m : Memory) :
    upTo m.lastId ++ m.given now (.createDocumentWithVersion new first) =
      upTo (createDocumentWithVersion new first now m).1.lastId := by
  have made := createDocument_given new now m
  rcases result : createDocument new now m with ⟨m', e | d⟩ <;> rw [result] at made
  · simp only [given, createDocumentWithVersion, result]
    exact made
  · cases first with
    | none =>
      simp only [given, createDocumentWithVersion, result]
      exact made
    | some f =>
      have stored := createNextVersion_given (f.of d.id) now m'
      have counted : (createDocumentWithVersion new (some f) now m).1.lastId =
          (createNextVersion (f.of d.id) now m').1.lastId := by
        simp only [createDocumentWithVersion, result]
        rcases createNextVersion (f.of d.id) now m' with ⟨m'', e | v⟩ <;> rfl
      rw [counted, ← stored, ← made]
      simp only [given, result]
      exact List.append_cons _ _ _

theorem lastId_same {result : Memory × Except Failure α}
    (cases_ : (∃ e, result = (m, .error e)) ∨ ∃ t r, result = ({ m with tables := t }, r)) :
    upTo m.lastId ++ [] = upTo result.1.lastId := by
  rw [List.append_nil]
  rcases cases_ with ⟨e, he⟩ | ⟨t, r, hok⟩
  · rw [he]
  · rw [hok]

theorem upTo_given (call : Call β) (now : Instant) (m : Memory) :
    upTo m.lastId ++ m.given now call = upTo (answer now call m).1.lastId := by
  by_cases keeps : call.keepsRows = true
  · have silent : m.given now call = [] := by
      cases call <;> first | rfl | cases keeps
    have kept : m.Kept 0 (answer now call m).1 := answer_keepsRows keeps
    rw [silent, kept.lastId, List.append_nil, Nat.add_zero]
  · cases call with
    | createWorkspace new =>
      exact upTo_numberIn ((createWorkspace_cases new now m).imp_right And.right) rfl
    | createDocument new => exact createDocument_given new now m
    | createDocumentWithVersion new first => exact createDocumentWithVersion_given new first now m
    | createNextVersion new => exact createNextVersion_given new now m
    | createShare new =>
      exact upTo_numberIn ((createShare_cases new now m).imp_right And.right) rfl
    | updateWorkspace id changes =>
      refine lastId_same ((updateWorkspace_cases id changes now m).imp_right ?_)
      rintro ⟨w, _, _, hok⟩
      exact ⟨_, _, hok⟩
    | deleteWorkspace id time =>
      refine lastId_same ((deleteWorkspace_cases id time m).imp_right ?_)
      rintro ⟨w, summary, _, _, hok⟩
      exact ⟨_, _, hok⟩
    | updateDocument id changes =>
      refine lastId_same ((updateDocument_cases id changes now m).imp_right ?_)
      rintro ⟨d, _, _, hok⟩
      exact ⟨_, _, hok⟩
    | deleteDocument id time =>
      refine lastId_same ((deleteDocument_cases id time m).imp_right ?_)
      rintro ⟨d, summary, _, _, hok⟩
      exact ⟨_, _, hok⟩
    | updateShare id changes =>
      refine lastId_same ((updateShare_cases id changes now m).imp_right ?_)
      rintro ⟨s, _, _, hok⟩
      exact ⟨_, _, hok⟩
    | deleteShare id time =>
      refine lastId_same ((deleteShare_cases id time m).imp_right ?_)
      rintro ⟨s, _, _, hok⟩
      exact ⟨_, _, hok⟩
    | _ => exact absurd rfl keeps

end Given

end Memory

def Change.newShares (change : Change) (m : Memory) : List Share :=
  match change with
  | addShare new now => [new.row m.nextId now]
  | _ => []

theorem Change.shares_on (change : Change) (m : Memory) : (change.on m).tables.shares =
    m.tables.shares.map (change.onShare m.tables) ++ change.newShares m := by
  have idle : m.tables.shares.map (fun s => s) = m.tables.shares := List.map_id' _
  cases change with
  | know user =>
    rw [on, (m.kept_know user).tables]
    exact (idle.symm).trans (List.append_nil _).symm
  | addShare new now => exact congrArg (· ++ [new.row m.nextId now]) idle.symm
  | setShare r changes now => exact (List.append_nil _).symm
  | deleteShare r time => exact (List.append_nil _).symm
  | deleteDocument d time => exact (List.append_nil _).symm
  | deleteWorkspace w time => exact (List.append_nil _).symm
  | _ => exact (idle.symm).trans (List.append_nil _).symm

namespace Memory

structure Bound (m : Memory) : Prop where
  users : Apart (fun s => s.isLive && s.user.isSome) (fun s => (s.document, s.user)) Share.id
    m.tables.shares
  tokens : (m.tables.shares.map Share.token).Nodup

theorem bound_empty : Memory.empty.Bound :=
  ⟨fun _ ha => absurd ha List.not_mem_nil, List.nodup_nil⟩

variable {m m' : Memory} {change : Change}

/-- What stays of a share through every change. -/
structure Stays (s s' : Share) : Prop where
  id : s'.id = s.id
  document : s'.document = s.document
  user : s'.user = s.user
  token : s'.token = s.token
  dead : s.isLive = false → s'.isLive = false

theorem Stays.refl (s : Share) : Stays s s := ⟨rfl, rfl, rfl, rfl, fun dead => dead⟩

theorem Stays.trans {r s t : Share} (h : Stays r s) (k : Stays s t) : Stays r t :=
  ⟨k.id.trans h.id, k.document.trans h.document, k.user.trans h.user, k.token.trans h.token,
    fun dead => k.dead (h.dead dead)⟩

theorem stays_tombstone (s : Share) (time : Instant) : Stays s (s.tombstone time) :=
  ⟨rfl, rfl, rfl, rfl, fun _ => rfl⟩

theorem onShare_stays (numbered : m.Numbered) (fits : change.Fits m) {s : Share}
    (stored : s ∈ m.tables.shares) : Stays s (change.onShare m.tables s) := by
  have read : ∀ {r : Share}, m.tables.share? r.id = some r → (s.id == r.id) = true → r = s := by
    intro r found same
    exact eq_of_key numbered.shares (List.mem_of_find?_eq_some found) stored
      (beq_iff_eq.mp same).symm
  cases change with
  | setShare r changes now =>
    simp only [Change.onShare]
    split
    · rename_i same
      obtain rfl := read fits same
      exact ⟨rfl, rfl, rfl, rfl, fun dead => dead⟩
    · exact .refl s
  | deleteShare r time =>
    simp only [Change.onShare]
    split
    · rename_i same
      obtain rfl := read fits same
      exact stays_tombstone r time
    · exact .refl s
  | deleteDocument d time =>
    simp only [Change.onShare]
    split
    · exact stays_tombstone s time
    · exact .refl s
  | deleteWorkspace w time =>
    simp only [Change.onShare]
    split
    · exact stays_tombstone s time
    · exact .refl s
  | _ => exact .refl s

theorem Bound.users_map (h : m.Bound) {f : Share → Share}
    (same : ∀ s ∈ m.tables.shares, Stays s (f s)) :
    Apart (fun s => s.isLive && s.user.isSome) (fun s => (s.document, s.user)) Share.id
      (m.tables.shares.map f) := by
  have lived : ∀ s ∈ m.tables.shares, (f s).isLive && (f s).user.isSome →
      (s.isLive && s.user.isSome) = true := by
    intro s hs live
    rw [Bool.and_eq_true, (same s hs).user] at live
    rw [Bool.and_eq_true]
    refine ⟨?_, live.2⟩
    by_contra dead
    rw [(same s hs).dead (Bool.not_eq_true _ ▸ dead)] at live
    cases live.1
  intro a ha b hb liveA liveB label
  obtain ⟨r, hr, rfl⟩ := List.mem_map.mp ha
  obtain ⟨s, hs, rfl⟩ := List.mem_map.mp hb
  simp only [(same r hr).user, (same s hs).user, (same r hr).document,
    (same s hs).document] at label
  rw [(same r hr).id, (same s hs).id]
  exact h.users r hr s hs (lived r hr liveA) (lived s hs liveB) label

theorem Bound.on (h : m.Bound) (numbered : m.Numbered) (fits : change.Fits m) :
    (change.on m).Bound := by
  have same : ∀ s ∈ m.tables.shares, Stays s (change.onShare m.tables s) :=
    fun s hs => onShare_stays numbered fits hs
  have users := h.users_map same
  have tokens : (m.tables.shares.map (change.onShare m.tables)).map Share.token =
      m.tables.shares.map Share.token := by
    rw [List.map_map]
    exact List.map_congr_left fun s hs => (same s hs).token
  have rows := change.shares_on m
  cases change with
  | addShare new now =>
    obtain ⟨unheld, unused⟩ := fits
    constructor
    · refine h.users.snoc fun a ha live label => ?_
      simp only [NewShare.row, Prod.mk.injEq] at label
      simp only [Bool.and_eq_true] at live
      obtain ⟨user, named⟩ := Option.isSome_iff_exists.mp live.2
      have missed := List.find?_eq_none.mp (unheld user (label.2 ▸ named)).2 a ha
      simp [live.1, label.1, named] at missed
    · have other : new.token ∉ m.tables.shares.map Share.token := by
        intro used
        obtain ⟨s, hs, carried⟩ := List.mem_map.mp used
        have missed := List.any_eq_false.mp unused s hs
        exact missed (beq_iff_eq.mpr carried)
      rw [rows, List.map_append, tokens]
      exact List.nodup_append.mpr ⟨h.tokens, List.nodup_singleton _, by
        intro a ha b hb
        cases List.mem_singleton.mp hb
        rintro rfl
        exact other ha⟩
  | _ =>
    constructor
    · rw [rows]
      exact (List.append_nil _).symm ▸ users
    · rw [rows, List.map_append, tokens]
      exact (List.append_nil _).symm ▸ h.tokens

/-- Every row of one state is a row of the other, with its number and in its place; versions are
there as they were, and shares are for the same user and document and have the same token. -/
structure Onward (m m' : Memory) : Prop where
  workspaces : m.tables.workspaces.map Workspace.id <+: m'.tables.workspaces.map Workspace.id
  documents : m.tables.documents.map Document.id <+: m'.tables.documents.map Document.id
  versions : m.tables.versions <+: m'.tables.versions
  shares : m.tables.shares.map Share.id <+: m'.tables.shares.map Share.id
  kept : ∀ s ∈ m.tables.shares, ∃ s' ∈ m'.tables.shares, Stays s s'

theorem Onward.refl (m : Memory) : m.Onward m :=
  ⟨List.prefix_rfl, List.prefix_rfl, List.prefix_rfl, List.prefix_rfl,
    fun s hs => ⟨s, hs, .refl s⟩⟩

theorem Onward.trans {m'' : Memory} (h : m.Onward m') (k : m'.Onward m'') : m.Onward m'' := by
  constructor
  · exact h.workspaces.trans k.workspaces
  · exact h.documents.trans k.documents
  · exact h.versions.trans k.versions
  · exact h.shares.trans k.shares
  · intro s hs
    obtain ⟨s', hs', same⟩ := h.kept s hs
    obtain ⟨s'', hs'', same'⟩ := k.kept s' hs'
    exact ⟨s'', hs'', same.trans same'⟩

theorem Onward.of_tables (same : m'.tables = m.tables) : m.Onward m' := by
  have here := Onward.refl m
  constructor
  · exact same ▸ here.workspaces
  · exact same ▸ here.documents
  · exact same ▸ here.versions
  · exact same ▸ here.shares
  · exact same ▸ here.kept

theorem prefix_updateWhere {p : α → Bool} {f : α → α} {rows : List α} {key : α → Int}
    (kept : ∀ r ∈ rows, p r = true → key (f r) = key r) :
    rows.map key <+: (updateWhere p f rows).map key :=
  (map_updateWhere kept) ▸ List.prefix_rfl

theorem workspaces_on (change : Change) (m : Memory) :
    m.tables.workspaces.map Workspace.id <+: (change.on m).tables.workspaces.map Workspace.id := by
  cases change with
  | know user => exact (m.kept_know user).tables ▸ List.prefix_rfl
  | addWorkspace new now => exact (List.prefix_append _ _).map _
  | setWorkspace w changes now =>
    exact prefix_updateWhere fun v _ h => (beq_iff_eq.mp h).symm
  | deleteWorkspace w time =>
    exact prefix_updateWhere fun v _ h => (beq_iff_eq.mp h).symm
  | _ => exact List.prefix_rfl

theorem documents_on (change : Change) (m : Memory) :
    m.tables.documents.map Document.id <+: (change.on m).tables.documents.map Document.id := by
  cases change with
  | know user => exact (m.kept_know user).tables ▸ List.prefix_rfl
  | addDocument new now => exact (List.prefix_append _ _).map _
  | addDocumentWithVersion new first now => exact (List.prefix_append _ _).map _
  | setDocument d changes now =>
    exact prefix_updateWhere fun e _ h => (beq_iff_eq.mp h).symm
  | deleteDocument d time =>
    exact prefix_updateWhere fun e _ h => (beq_iff_eq.mp h).symm
  | deleteWorkspace w time => exact prefix_updateWhere fun _ _ _ => rfl
  | _ => exact List.prefix_rfl

theorem onward_on (numbered : m.Numbered) (fits : change.Fits m) : m.Onward (change.on m) := by
  have same : ∀ s ∈ m.tables.shares, Stays s (change.onShare m.tables s) :=
    fun s hs => onShare_stays numbered fits hs
  constructor
  · exact workspaces_on change m
  · exact documents_on change m
  · exact ⟨_, (change.versions_on m).symm⟩
  · have ids : (m.tables.shares.map (change.onShare m.tables)).map Share.id =
        m.tables.shares.map Share.id := by
      rw [List.map_map]
      exact List.map_congr_left fun s hs => (same s hs).id
    rw [change.shares_on, List.map_append, ids]
    exact List.prefix_append _ _
  · intro s hs
    exact ⟨_, onShare_mem hs, same s hs⟩

structure Orderly (m : Memory) : Prop where
  numbered : m.Numbered
  chronicled : m.Chronicled
  unique : m.Unique
  bound : m.Bound

theorem orderly_empty : Memory.empty.Orderly :=
  ⟨numbered_empty, ⟨fun _ => rfl, nofun⟩, unique_empty, bound_empty⟩

theorem Orderly.used (h : m.Orderly) (n : Nat) :
    ({ m with lastId := m.lastId + n } : Memory).Orderly := by
  have kept := m.kept_used n
  exact ⟨kept.numbered h.numbered, h.chronicled.kept kept, h.unique.kept kept, h.bound.users,
    h.bound.tokens⟩

theorem Orderly.on (h : m.Orderly) (fits : change.Fits m) : (change.on m).Orderly :=
  ⟨change.numbered h.numbered, h.chronicled.change h.numbered fits, h.unique.change fits,
    h.bound.on h.numbered fits⟩

theorem Orderly.answer (h : m.Orderly) (call : Call β) (now : Instant) :
    (answer now call m).1.Orderly ∧ m.Onward (answer now call m).1 := by
  rcases answer_cases h.numbered call now with ⟨used, e, _, he⟩ | ⟨change, a, fits, hok⟩
  · rw [he]
    exact ⟨h.used used, .of_tables rfl⟩
  · rw [hok]
    exact ⟨h.on fits, onward_on h.numbered fits⟩

variable {start : Memory} {given : List Int}

namespace Leads

theorem orderly (h : start.Orderly) (leads : start.Leads given m) : m.Orderly ∧ start.Onward m := by
  induction leads with
  | here => exact ⟨h, .refl start⟩
  | called before call now ih =>
    have next := ih.1.answer call now
    exact ⟨next.1, ih.2.trans next.2⟩
  | failing before fail ih =>
    obtain ⟨⟨numbered, chronicled, unique, bound⟩, onward⟩ := ih
    exact ⟨⟨⟨numbered.distinct, numbered.inRange⟩, ⟨chronicled.inOrder, chronicled.filed⟩,
      ⟨unique.names, unique.slugs⟩, ⟨bound.users, bound.tokens⟩⟩, onward.trans (.of_tables rfl)⟩

/-- Numbers are given one after the other, from where the counter stood. -/
theorem counted (leads : start.Leads given m) : upTo start.lastId ++ given = upTo m.lastId := by
  induction leads with
  | here => exact List.append_nil _
  | called before call now ih =>
    rw [← List.append_assoc, ih]
    exact upTo_given call now _
  | failing before fail ih => exact ih

end Leads

theorem mem_upTo {n : Nat} {i : Int} : i ∈ upTo n ↔ 0 < i ∧ i ≤ n := by
  simp only [upTo, List.mem_map, List.mem_range]
  constructor
  · rintro ⟨k, hk, rfl⟩
    omega
  · rintro ⟨pos, le⟩
    exact ⟨(i - 1).toNat, by omega, by omega⟩

/-- No two rows have what only one row may have. -/
structure Distinct (m : Memory) : Prop where
  numbers : m.tables.ids.Nodup
  names : ∀ v ∈ m.tables.workspaces, ∀ w ∈ m.tables.workspaces, v.isLive = true →
    w.isLive = true → v.owner = w.owner → v.name = w.name → v = w
  slugs : ∀ d ∈ m.tables.documents, ∀ e ∈ m.tables.documents, d.isLive = true →
    e.isLive = true → d.workspace = e.workspace → d.slug = e.slug → d = e
  versions : ∀ u ∈ m.tables.versions, ∀ v ∈ m.tables.versions, u.document = v.document →
    u.number = v.number → u = v
  users : ∀ r ∈ m.tables.shares, ∀ s ∈ m.tables.shares, r.isLive = true → s.isLive = true →
    r.document = s.document → r.user = s.user → r.user ≠ none → r = s
  tokens : ∀ r ∈ m.tables.shares, ∀ s ∈ m.tables.shares, r.token = s.token → r = s

theorem Orderly.distinct (h : m.Orderly) : m.Distinct := by
  have numbered := h.numbered
  constructor
  · exact numbered.distinct
  · intro v hv w hw liveV liveW owner name
    have same := h.unique.names v hv w hw liveV liveW (Prod.ext owner name)
    exact eq_of_key numbered.workspaces hv hw same
  · intro d hd e he liveD liveE workspace slug
    have same := h.unique.slugs d hd e he liveD liveE (Prod.ext workspace slug)
    exact eq_of_key numbered.documents hd he same
  · intro u hu v hv document number
    have once : ((m.tables.versionsOf v.document).map Version.number).Nodup := by
      rw [h.chronicled.inOrder]
      exact (upTo_rising _).imp fun below same => absurd same (ne_of_lt below)
    have filedU : u ∈ m.tables.versionsOf v.document :=
      List.mem_filter.mpr ⟨hu, beq_iff_eq.mpr document⟩
    have filedV : v ∈ m.tables.versionsOf v.document :=
      List.mem_filter.mpr ⟨hv, beq_iff_eq.mpr rfl⟩
    exact eq_of_key once filedU filedV number
  · intro r hr s hs liveR liveS document user bound
    have named : r.user.isSome = true := Option.isSome_iff_ne_none.mpr bound
    have namedS : s.user.isSome = true := user ▸ named
    have same := h.bound.users r hr s hs (by simp [liveR, named]) (by simp [liveS, namedS])
      (Prod.ext document user)
    exact eq_of_key numbered.shares hr hs same
  · intro r hr s hs token
    exact eq_of_key h.bound.tokens hr hs token

/-- In every state that calls lead to from the empty store, numbers are positive and are given once,
also those of documents that were taken out again, and what only one row may have no two rows have.
In every later state the rows are still there, and a token is that of the share which it was made
for; once this share is deleted, it stays deleted. -/
theorem Leads.never_twice (leads : Memory.empty.Leads given m) :
    (given.Nodup ∧ ∀ i ∈ given, 0 < i) ∧ (∀ i ∈ m.tables.ids, i ∈ given) ∧ m.Distinct ∧
    ∀ more m', m.Leads more m' → (given ++ more).Nodup ∧ m.Onward m' ∧
      ∀ s ∈ m.tables.shares, ∀ s' ∈ m'.tables.shares, s'.token = s.token → Stays s s' := by
  obtain ⟨orderly, _⟩ := leads.orderly orderly_empty
  have once : ∀ n, (upTo n).Nodup := fun n =>
    (upTo_rising n).imp fun below same => absurd same (ne_of_lt below)
  have counted : given = upTo m.lastId := leads.counted
  refine ⟨⟨counted ▸ once _, fun i hi => ?_⟩, fun i hi => ?_, orderly.distinct, ?_⟩
  · rw [counted] at hi
    exact (mem_upTo.mp hi).1
  · rw [counted]
    exact mem_upTo.mpr (orderly.numbered.inRange i hi)
  · intro more m' later
    obtain ⟨orderly', onward⟩ := later.orderly orderly
    refine ⟨?_, onward, fun s hs s' hs' token => ?_⟩
    · rw [counted, later.counted]
      exact once _
    · obtain ⟨r, hr, same⟩ := onward.kept s hs
      have one : r = s' := eq_of_key orderly'.bound.tokens hr hs' (same.token.trans token.symm)
      exact one ▸ same

def undone : Memory :=
  let known := (answer (.ofSeconds 0) (.ensureUser 1) empty).1
  let team := (answer (.ofSeconds 1) (.createWorkspace ⟨"Team", none, 1, false⟩) known).1
  (answer (.ofSeconds 2) (.createDocumentWithVersion ⟨1, "Flow", .mermaid, "flow", false⟩
    (some ⟨"a-->b", some 1, none⟩)) { team with failVersions := true }).1

theorem undone_leads : ∃ given, empty.Leads given undone ∧ given = [1, 2] := by
  have known := (Leads.here : empty.Leads [] empty).called (.ensureUser 1) (.ofSeconds 0)
  have team := known.called (.createWorkspace ⟨"Team", none, 1, false⟩) (.ofSeconds 1)
  have failing := team.failing true
  have last := failing.called (.createDocumentWithVersion ⟨1, "Flow", .mermaid, "flow", false⟩
    (some ⟨"a-->b", some 1, none⟩)) (.ofSeconds 2)
  exact ⟨_, last, by decide +kernel⟩

/-- The document is gone, and the next one gets another number. -/
theorem undone_number :
    let next := (answer (.ofSeconds 3) (.createDocument ⟨1, "Flow", .mermaid, "flow", false⟩)
      undone).1
    undone.tables.ids = [1] ∧ undone.Distinct ∧ next.tables.ids = [1, 3] ∧ undone.Onward next := by
  intro next
  obtain ⟨given, leads, numbers⟩ := undone_leads
  obtain ⟨_, _, distinct, onward⟩ := leads.never_twice
  have later := (Leads.here : undone.Leads [] undone).called
    (.createDocument ⟨1, "Flow", .mermaid, "flow", false⟩) (.ofSeconds 3)
  have gone : undone.tables.ids = [1] := by decide +kernel
  have other : next.tables.ids = [1, 3] := by decide +kernel
  exact ⟨gone, distinct, other, (onward _ next later).2.1⟩

end Memory

end DiagramShare.Repository
