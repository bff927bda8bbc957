import DiagramShare.Proofs.Decision
import DiagramShare.Proofs.Effect
import DiagramShare.Proofs.Sequences

/-! What a deletion does. It makes tombstones of the rows that it picks out and counts them; it leaves
all other rows alone; and there is nothing left for a second one. Memory deletes the documents of a
workspace before their shares, the database the shares before the documents, which it finds again by
their numbers. Both come to the same. -/
namespace DiagramShare.Repository

open DiagramShare.Time (Instant)

/-- Which rows are to be deleted together. -/
structure Picked where
  workspace : Workspace → Bool
  document : Document → Bool
  share : Share → Bool

/-- The tables after the picked rows were deleted at an instant. Nothing else of any row differs. -/
def Tables.without (t : Tables) (picked : Picked) (time : Instant) : Tables where
  workspaces := updateWhere picked.workspace (fun w => w.tombstone time) t.workspaces
  documents := updateWhere picked.document (fun d => d.tombstone time) t.documents
  versions := t.versions
  shares := updateWhere picked.share (fun s => s.tombstone time) t.shares

def Picked.summary (picked : Picked) (t : Tables) : CascadeSummary :=
  ⟨t.documents.countP picked.document, t.shares.countP picked.share⟩

/-- A live workspace, its live documents and the live shares of these. -/
def Tables.withWorkspace (t : Tables) (id : Int) : Picked where
  workspace w := w.id == id && w.isLive
  document d := d.workspace == id && d.isLive
  share s := s.isLive && t.documents.any fun d => d.id == s.document && d.workspace == id && d.isLive

def Tables.withDocument (_ : Tables) (id : Int) : Picked where
  workspace _ := false
  document d := d.id == id && d.isLive
  share s := s.isLive && s.document == id

theorem updateWhere_false {f : α → α} (rows : List α) : updateWhere (fun _ => false) f rows = rows :=
  List.map_id' rows

theorem updateWhere_found {rows : List α} {key : α → Int} {live : α → Bool} {f : α → α}
    (distinct : (rows.map key).Nodup) {r : α} (stored : r ∈ rows) (alive : live r = true) :
    updateWhere (fun x => key x == key r) (fun _ => f r) rows =
      updateWhere (fun x => key x == key r && live x) f rows := by
  refine updateWhere_congr (fun x hx => ?_) fun x hx hit => ?_
  · by_cases same : key x = key r
    · rw [eq_of_key distinct hx stored same, alive, Bool.and_true]
    · rw [beq_eq_false_iff_ne.mpr same, Bool.false_and]
  · rw [Bool.and_eq_true, beq_iff_eq] at hit
    rw [eq_of_key distinct hx stored hit.1]

theorem countP_found {rows : List α} {key : α → Int} {live : α → Bool}
    (distinct : (rows.map key).Nodup) {r : α} (stored : r ∈ rows) (alive : live r = true) :
    rows.countP (fun x => key x == key r && live x) = 1 := by
  apply Nat.le_antisymm
  · calc rows.countP (fun x => key x == key r && live x)
        ≤ rows.countP (fun x => key x == key r) := by
          refine List.countP_mono_left fun x _ hit => ?_
          exact (Bool.and_eq_true _ _ ▸ hit).1
      _ = (rows.map key).count (key r) := by rw [List.count, List.countP_map]; rfl
      _ ≤ 1 := List.nodup_iff_count_le_one.mp distinct _
  · exact List.countP_pos_iff.mpr ⟨r, stored, by simp [alive]⟩

namespace Tables

variable {t t' : Tables} {id : Int} {time : Instant} {summary : CascadeSummary}

theorem withWorkspace_share (t : Tables) (id : Int) :
    (fun s : Share => ((t.documentsOf id).map Document.id).contains s.document && s.isLive) =
      (t.withWorkspace id).share := by
  funext s
  rw [Bool.eq_iff_iff]
  simp only [withWorkspace, documentsOf, Bool.and_eq_true, List.contains_iff_mem, List.mem_map,
    List.mem_filter, List.any_eq_true, beq_iff_eq]
  constructor
  · rintro ⟨⟨d, ⟨stored, inside, live⟩, on⟩, alive⟩
    exact ⟨alive, d, stored, ⟨on, inside⟩, live⟩
  · rintro ⟨alive, d, stored, ⟨on, inside⟩, live⟩
    exact ⟨⟨d, ⟨stored, inside, live⟩, on⟩, alive⟩

theorem withDocument_share (t : Tables) (id : Int) :
    (fun s : Share => [id].contains s.document && s.isLive) = (t.withDocument id).share := by
  funext s
  rw [Bool.eq_iff_iff]
  simp [withDocument, and_comm]

theorem deleteWorkspace_without (distinct : (t.workspaces.map Workspace.id).Nodup)
    (deleted : t.deleteWorkspace id time = some (t', summary)) :
    (∃ w ∈ t.workspaces, w.id = id ∧ w.isLive = true) ∧
      t' = t.without (t.withWorkspace id) time ∧ summary = (t.withWorkspace id).summary t := by
  unfold deleteWorkspace at deleted
  split at deleted
  · cases deleted
  · rename_i w found
    obtain rfl := key_of_find found
    have alive : w.isLive = true := also_of_find found
    have stored := List.mem_of_find?_eq_some found
    cases deleted
    refine ⟨⟨w, stored, rfl, alive⟩, ?_, ?_⟩
    · have workspaces := updateWhere_found (f := fun w => w.tombstone time) distinct stored alive
      have shares := congrArg (fun p => updateWhere p (fun s => s.tombstone time) t.shares)
        (t.withWorkspace_share w.id)
      exact congrArg₂ (fun ws ss => Tables.mk ws _ t.versions ss) workspaces shares
    · have documents := List.countP_eq_length_filter (p := (t.withWorkspace w.id).document)
        (l := t.documents)
      have shares := congrArg (fun p => t.shares.countP p) (t.withWorkspace_share w.id)
      exact congrArg₂ CascadeSummary.mk documents.symm shares

theorem deleteDocument_without (distinct : (t.documents.map Document.id).Nodup)
    (deleted : t.deleteDocument id time = some (t', summary)) :
    (∃ d ∈ t.documents, d.id = id ∧ d.isLive = true) ∧
      t' = t.without (t.withDocument id) time ∧ summary = (t.withDocument id).summary t := by
  unfold deleteDocument at deleted
  split at deleted
  · cases deleted
  · rename_i d found
    obtain rfl := key_of_find found
    have alive : d.isLive = true := also_of_find found
    have stored := List.mem_of_find?_eq_some found
    cases deleted
    refine ⟨⟨d, stored, rfl, alive⟩, ?_, ?_⟩
    · have workspaces := updateWhere_false (f := fun w => w.tombstone time) t.workspaces
      have documents := updateWhere_found (f := fun d => d.tombstone time) distinct stored alive
      have shares := congrArg (fun p => updateWhere p (fun s => s.tombstone time) t.shares)
        (t.withDocument_share d.id)
      rw [without, show (t.withDocument d.id).workspace = fun _ => false from rfl, workspaces]
      exact congrArg₂ (fun ds ss => Tables.mk t.workspaces ds t.versions ss) documents shares
    · have documents := countP_found distinct stored alive
      have shares := congrArg (fun p => t.shares.countP p) (t.withDocument_share d.id)
      exact congrArg₂ CascadeSummary.mk documents.symm shares

theorem deleteWorkspace_missing (absent : t.workspace? id = none) :
    t.deleteWorkspace id time = none := by
  rw [deleteWorkspace, absent]

theorem deleteWorkspace_found (distinct : (t.workspaces.map Workspace.id).Nodup) {w : Workspace}
    (found : t.workspace? id = some w) :
    t.deleteWorkspace id time =
      some (t.without (t.withWorkspace id) time, (t.withWorkspace id).summary t) := by
  cases deleted : t.deleteWorkspace id time with
  | none => simp [deleteWorkspace, found] at deleted
  | some pair =>
    obtain ⟨_, rows, summary⟩ := deleteWorkspace_without distinct deleted
    rw [← rows, ← summary]

theorem deleteDocument_found (distinct : (t.documents.map Document.id).Nodup) {d : Document}
    (found : t.document? id = some d) :
    t.deleteDocument id time =
      some (t.without (t.withDocument id) time, (t.withDocument id).summary t) := by
  cases deleted : t.deleteDocument id time with
  | none => simp [deleteDocument, found] at deleted
  | some pair =>
    obtain ⟨_, rows, summary⟩ := deleteDocument_without distinct deleted
    rw [← rows, ← summary]

theorem find_updateWhere {rows : List α} {key : α → Int} {live : α → Bool} {f : α → α}
    (dead : ∀ r, live (f r) = false) :
    ((updateWhere (fun r => key r == id && live r) f rows).find? fun r => key r == id && live r) =
      none := by
  rw [List.find?_eq_none]
  refine forall_updateWhere (fun r _ _ => ?_) fun r _ kept => ?_
  · simp [dead]
  · simp [kept]

theorem without_workspace : (t.without (t.withWorkspace id) time).workspace? id = none :=
  find_updateWhere fun _ => rfl

theorem without_document : (t.without (t.withDocument id) time).document? id = none :=
  find_updateWhere fun _ => rfl

end Tables

theorem Relational.eraseWorkspace_missing {t : Tables} {id : Int} {time : Instant}
    (absent : t.workspace? id = none) : eraseWorkspace t id time = none := by
  rw [eraseWorkspace, absent]

def Memory.withTables (m : Memory) (t : Tables) : Memory := { m with tables := t }

def Relational.withTables (r : Relational) (t : Tables) : Relational := { r with tables := t }

end DiagramShare.Repository

namespace DiagramShare.Service

open DiagramShare.Access
open DiagramShare.Repository (Memory Relational Tables Call Picked orNotFound)
open DiagramShare.Time (Instant)

variable {σ : Type} {s : Store σ} {rows : σ → Tables} {put : σ → Tables → σ}
  {keep : Instant → Instant} {c : Conditions} {w w' : World σ} {caller : Caller} {id : Int}

structure Finds (s : Store σ) (rows : σ → Tables) : Prop where
  reads : ∀ {β} {call : Call β}, call.isRead = true → ∀ now m, (s.answer now call m).1 = m
  workspace : ∀ now id m,
    (s.answer now (.findWorkspace id) m).2 = orNotFound ((rows m).workspace? id)
  document : ∀ now id m, (s.answer now (.findDocument id) m).2 = orNotFound ((rows m).document? id)

def Erases (s : Store σ) (rows : σ → Tables) (put : σ → Tables → σ) (keep : Instant → Instant)
    (call : Instant → Call CascadeSummary)
    (erase : Tables → Instant → Option (Tables × CascadeSummary)) : Prop :=
  ∀ now time m, (∃ e, s.answer now (call time) m = (m, .error e)) ∨
    ∃ t summary, erase (rows m) (keep time) = some (t, summary) ∧
      s.answer now (call time) m = (put m t, .ok summary)

theorem inMemory_finds : Finds inMemory Memory.tables :=
  ⟨fun read _ _ => Memory.answer_isRead read, fun _ _ _ => rfl, fun _ _ _ => rfl⟩

theorem inDatabase_finds : Finds inDatabase Relational.tables := by
  refine ⟨fun read _ _ => ?_, fun _ _ _ => rfl, fun _ _ _ => rfl⟩
  rename_i call _ _
  cases call <;> first | rfl | contradiction

theorem erases_of_match {call : Instant → Call CascadeSummary}
    {erase : Tables → Instant → Option (Tables × CascadeSummary)}
    (same : ∀ now time m, (∃ e, s.answer now (call time) m = (m, .error e)) ∨
      s.answer now (call time) m = match erase (rows m) (keep time) with
        | none => (m, .error .notFound)
        | some (t, summary) => (put m t, .ok summary)) : Erases s rows put keep call erase := by
  intro now time m
  rcases same now time m with refused | same
  · exact .inl refused
  · rw [same]
    cases erase (rows m) (keep time) with
    | none => exact .inl ⟨_, rfl⟩
    | some pair => exact .inr ⟨pair.1, pair.2, rfl, rfl⟩

theorem inMemory_erasesWorkspace (id : Int) :
    Erases inMemory Memory.tables Memory.withTables (fun t => t) (.deleteWorkspace id)
      fun t time => t.deleteWorkspace id time :=
  erases_of_match fun _ _ _ => .inr rfl

theorem inMemory_erasesDocument (id : Int) :
    Erases inMemory Memory.tables Memory.withTables (fun t => t) (.deleteDocument id)
      fun t time => t.deleteDocument id time :=
  erases_of_match fun _ _ _ => .inr rfl

theorem sent_cases {α : Type} (time : Instant) (r : Relational)
    (f : Instant → Relational × Except Repository.Failure α) :
    (∃ e, (match Relational.sendInstant time with
      | .error e => (r, .error e)
      | .ok time => f time) = (r, .error e)) ∨
    (match Relational.sendInstant time with
      | .error e => (r, .error e)
      | .ok time => f time) = f (Relational.keep time) := by
  by_cases out : Relational.micros time < Relational.firstMicros
  · rw [Relational.sendInstant, if_pos out]
    exact .inl ⟨_, rfl⟩
  · rw [Relational.sendInstant, if_neg out]
    exact .inr rfl

theorem inDatabase_erasesWorkspace (id : Int) :
    Erases inDatabase Relational.tables Relational.withTables Relational.keep (.deleteWorkspace id)
      fun t time => Relational.eraseWorkspace t id time :=
  erases_of_match fun _ time r => sent_cases time r _

theorem inDatabase_erasesDocument (id : Int) :
    Erases inDatabase Relational.tables Relational.withTables Relational.keep (.deleteDocument id)
      fun t time => t.deleteDocument id time :=
  erases_of_match fun _ time r => sent_cases time r _

theorem Program.Only.still {α : Type} (finds : Finds s rows) {p : Program α} (only : p.Only reading)
    {r : Except Failure α} (h : p.Ends s c w w' r) : w'.store = w.store :=
  only.keeps (R := fun m m' => m' = m) (fun _ => rfl) (fun _ _ _ first second => second.trans first)
    (fun _ read now m => finds.reads read now m) h

theorem answers_erases {call : Instant → Call CascadeSummary}
    {erase : Tables → Instant → Option (Tables × CascadeSummary)}
    (erases : Erases s rows put keep call erase) {time : Instant}
    {answer : Except Repository.Failure CascadeSummary}
    (asked : w.Answers s c (call time) w' answer) :
    (w'.store = w.store ∧ ∃ e, answer = .error e) ∨
    ∃ t summary, erase (rows w.store) (keep time) = some (t, summary) ∧ w'.store = put w.store t ∧
      answer = .ok summary := by
  obtain ⟨rfl, rfl⟩ := asked
  unfold World.ask
  split
  · exact .inl ⟨rfl, _, rfl⟩
  · rcases erases (c.clock w.readings) time w.store with ⟨e, refused⟩ | ⟨t, summary, erased, done⟩
    · rw [refused]
      exact .inl ⟨rfl, e, rfl⟩
    · rw [done]
      exact .inr ⟨t, summary, erased, rfl, rfl⟩

def erasing (target : Program α) (what : String) (call : Instant → Call CascadeSummary)
    (text : CascadeSummary → String) : Program CascadeSummary := do
  let _ ← target
  let now ← Program.clock
  let summary ← Program.lookUp what (call now)
  Program.note .info (text summary)
  return summary

/-- It fails and leaves the store as it was, or it has deleted at the instant that it read. -/
theorem erasing_cases {α : Type} (finds : Finds s rows) {target : Program α}
    (only : target.Only reading) {call : Instant → Call CascadeSummary}
    {erase : Tables → Instant → Option (Tables × CascadeSummary)}
    (erases : Erases s rows put keep call erase) {what : String} {text : CascadeSummary → String}
    {r : Except Failure CascadeSummary} (h : (erasing target what call text).Ends s c w w' r) :
    (w'.store = w.store ∧ ∃ e, r = .error e) ∨
    ∃ time t summary, Shown c w w' time ∧ erase (rows w.store) (keep time) = some (t, summary) ∧
      w'.store = put w.store t ∧ r = .ok summary := by
  rcases ends_bind.mp h with ⟨e, refused, rfl⟩ | ⟨v, a, found, h⟩
  · exact .inl ⟨only.still finds refused, e, rfl⟩
  have same : v.store = w.store := only.still finds found
  have seen : w.readings ≤ v.readings := readings_le found
  rcases ends_bind.mp h with ⟨e, clock, rfl⟩ | ⟨_, now, clock, h⟩
  · simp at clock
  obtain ⟨rfl, read⟩ := ends_clock.mp clock
  cases read
  have looked : w'.readings > v.readings := Nat.lt_of_succ_le (readings_le h)
  rw [← same]
  rcases ends_bind.mp h with ⟨e, refused, rfl⟩ | ⟨u, summary, done, h⟩
  · obtain ⟨u, answer, asked, h⟩ := ends_ask.mp refused
    rcases answers_erases erases asked with ⟨kept, e, rfl⟩ | ⟨t, summary, _, _, rfl⟩
    · exact .inl ⟨(ends_fail.mp h).1 ▸ kept, _, rfl⟩
    · simp at h
  · rcases answers_erases erases (ends_lookUp_ok.mp done) with
      ⟨_, e, failed⟩ | ⟨t, _, erased, kept, counted⟩
    · cases failed
    · cases counted
      obtain ⟨rfl, rfl⟩ : w' = u ∧ r = .ok summary := by simpa [ends_bind] using h
      exact .inr ⟨_, t, _, ⟨v.readings, seen, looked, rfl⟩, erased, kept, rfl⟩

section Missing

variable {kind : Kind} {β : Type}

theorem find_missing {call : Call β} (calm : c.Calm)
    (absent : (s.answer (c.clock w.readings) call w.store).2 = .error .notFound) :
    (Program.find? call).Ends s c w (w.ask s c call).1 (.ok none) := by
  have missed : (w.ask s c call).2.1 = .error .notFound := by rw [ask_calm calm]; exact absent
  refine ends_ask.mpr ⟨_, _, ⟨rfl, rfl⟩, ?_⟩
  rw [missed]
  exact ends_done.mpr ⟨rfl, rfl⟩

theorem workspaceFor_missing (finds : Finds s rows) (calm : c.Calm)
    (absent : (rows w.store).workspace? id = none) :
    ∃ v, (workspaceFor caller id kind).Ends s c w v (.error (.notFound "workspace")) := by
  have answered : (s.answer (c.clock w.readings) (.findWorkspace id) w.store).2 =
      .error .notFound := by
    rw [finds.workspace, absent]
    rfl
  have missing := find_missing calm answered
  exact ⟨_, ends_then missing (letThrough_ends _ _ _ _ _)⟩

theorem documentFor_missing (finds : Finds s rows) (calm : c.Calm)
    (absent : (rows w.store).document? id = none) :
    ∃ v, (documentFor caller id kind).Ends s c w v (.error (.notFound "document")) := by
  have answered : (s.answer (c.clock w.readings) (.findDocument id) w.store).2 =
      .error .notFound := by
    rw [finds.document, absent]
    rfl
  have missing := find_missing calm answered
  have alone : (workspaceOf none).Ends s c (w.ask s c (.findDocument id)).1 _ (.ok none) :=
    ends_done.mpr ⟨rfl, rfl⟩
  have unshared : (grantsFor caller (both none none)).Ends s c
      (w.ask s c (.findDocument id)).1 _ (.ok []) := ends_done.mpr ⟨rfl, rfl⟩
  exact ⟨_, ends_then missing (ends_then alone (ends_then unshared (letThrough_ends _ _ _ _ _)))⟩

end Missing

/-- An operation that deletes, told of the store that it meets. If it succeeds, its target was there,
it has deleted exactly the picked rows at an instant that the clock showed, and it counts them. Whoever
asks for it again finds nothing, and nothing changes. -/
structure DeletesExactly (s : Store σ) (rows : σ → Tables) (put : σ → Tables → σ)
    (keep : Instant → Instant) (op : Operation) (what : String) (there : Tables → Prop)
    (picked : Tables → Picked) (w : World σ) : Prop where
  done : ∀ {c caller w' answer}, (serve caller op).Ends s c w w' (.ok answer) →
    there (rows w.store) ∧ answer = .summary ((picked (rows w.store)).summary (rows w.store)) ∧
      ∃ time, Shown c w w' time ∧
        w'.store = put w.store ((rows w.store).without (picked (rows w.store)) (keep time))
  again : ∀ {c caller w' answer}, (serve caller op).Ends s c w w' (.ok answer) →
    ∀ {c' caller' v v' r}, v.store = w'.store → (serve caller' op).Ends s c' v v' r →
      v'.store = w'.store ∧ (∀ a, r ≠ .ok a) ∧ (c'.Calm → r = .error (.notFound what))

theorem erasing_exact {α : Type} (finds : Finds s rows) {op : Operation} {what : String}
    (target : Caller → Program α) {call : Instant → Call CascadeSummary}
    {erase : Tables → Instant → Option (Tables × CascadeSummary)} {there : Tables → Prop}
    (gone : Tables → Prop) {picked : Tables → Picked} (erases : Erases s rows put keep call erase)
    (written : ∀ m t, rows (put m t) = t)
    (served : ∀ caller, ∃ text,
      serve caller op = (erasing (target caller) what call text).as .summary)
    (only : ∀ caller, (target caller).Only reading)
    (exact : ∀ {t' summary time}, erase (rows w.store) time = some (t', summary) →
      there (rows w.store) ∧ t' = (rows w.store).without (picked (rows w.store)) time ∧
        summary = (picked (rows w.store)).summary (rows w.store))
    (buried : ∀ time, gone ((rows w.store).without (picked (rows w.store)) time))
    (erased : ∀ {t time}, gone t → erase t time = none)
    (missing : ∀ {c v} caller, c.Calm → gone (rows v.store) →
      ∃ u, (target caller).Ends s c v u (.error (.notFound what))) :
    DeletesExactly s rows put keep op what there picked w := by
  have effect {c caller w' answer} (h : (serve caller op).Ends s c w w' (.ok answer)) :
      there (rows w.store) ∧ answer = .summary ((picked (rows w.store)).summary (rows w.store)) ∧
        ∃ time, Shown c w w' time ∧
          w'.store = put w.store ((rows w.store).without (picked (rows w.store)) (keep time)) := by
    obtain ⟨text, program⟩ := served caller
    rw [program] at h
    obtain ⟨r, ended, answered⟩ := ends_as.mp h
    rcases erasing_cases finds (only caller) erases ended with
      ⟨_, e, rfl⟩ | ⟨time, t, summary, shown, found, kept, rfl⟩
    · cases answered
    · cases answered
      obtain ⟨was, rfl, rfl⟩ := exact found
      exact ⟨was, rfl, time, shown, kept⟩
  refine ⟨effect, fun {_ _ _ _} h {c' caller' v v' r} same again => ?_⟩
  obtain ⟨_, _, time, _, kept⟩ := effect h
  have absent : gone (rows v.store) := by
    rw [same, kept, written]
    exact buried _
  obtain ⟨text, program⟩ := served caller'
  rw [program] at again
  obtain ⟨r', ended, rfl⟩ := ends_as.mp again
  rcases erasing_cases finds (only caller') erases ended with
    ⟨unchanged, e, rfl⟩ | ⟨_, _, _, _, found, _⟩
  · refine ⟨unchanged.trans same, (fun a answered => by cases answered), fun calm => ?_⟩
    obtain ⟨u, refused⟩ := missing caller' calm absent
    have ends : (erasing (target caller') what call text).Ends s c' v u (.error (.notFound what)) :=
      ends_bind.mpr (.inl ⟨_, refused, rfl⟩)
    rw [← ended.2, ends.2]
    rfl
  · rw [erased absent] at found
    cases found

theorem deleteWorkspace_exact (finds : Finds s rows)
    {erase : Tables → Instant → Option (Tables × CascadeSummary)}
    (erases : Erases s rows put keep (.deleteWorkspace id) erase)
    (written : ∀ m t, rows (put m t) = t)
    (alike : ∀ time, erase (rows w.store) time = (rows w.store).deleteWorkspace id time)
    (missing : ∀ {t time}, t.workspace? id = none → erase t time = none)
    (distinct : ((rows w.store).workspaces.map Workspace.id).Nodup) :
    DeletesExactly s rows put keep (.deleteWorkspace id) "workspace"
      (fun t => ∃ ws ∈ t.workspaces, ws.id = id ∧ ws.isLive = true) (fun t => t.withWorkspace id)
      w := by
  refine erasing_exact finds (fun caller => workspaceFor caller id .manage)
    (fun t => t.workspace? id = none) erases written (fun caller => ⟨_, rfl⟩)
    (fun _ => workspaceFor_only _ _ _) (fun found => ?_) (fun _ => Tables.without_workspace)
    missing fun _ calm absent => workspaceFor_missing finds calm absent
  exact Tables.deleteWorkspace_without distinct (alike _ ▸ found)

theorem deleteDocument_exact (finds : Finds s rows)
    (erases : Erases s rows put keep (.deleteDocument id) fun t time => t.deleteDocument id time)
    (written : ∀ m t, rows (put m t) = t)
    (distinct : ((rows w.store).documents.map Document.id).Nodup) :
    DeletesExactly s rows put keep (.deleteDocument id) "document"
      (fun t => ∃ d ∈ t.documents, d.id = id ∧ d.isLive = true) (fun t => t.withDocument id) w := by
  refine erasing_exact finds (fun caller => documentFor caller id .write)
    (fun t => t.document? id = none) erases written (fun caller => ⟨_, rfl⟩)
    (fun _ => documentFor_only _ _ _) (fun found => Tables.deleteDocument_without distinct found)
    (fun _ => Tables.without_document) (fun absent => ?_)
    fun _ calm absent => documentFor_missing finds calm absent
  rw [Tables.deleteDocument, absent]

theorem erasing_ends {α : Type} {target : Program α} {v : World σ} {a : α} {what : String}
    (call : Instant → Call CascadeSummary) {text : CascadeSummary → String}
    {summary : CascadeSummary} (calm : c.Calm) (admitted : target.Ends s c w v (.ok a))
    (accepted : ∀ now time, (s.answer now (call time) v.store).2 = .ok summary) :
    ∃ w', (erasing target what call text).Ends s c w w' (.ok summary) := by
  let looked : World σ := { v with readings := v.readings + 1 }
  let time := c.clock v.readings
  have asked : looked.Answers s c (call time) (looked.ask s c (call time)).1 (.ok summary) :=
    ⟨rfl, by rw [ask_calm calm]; exact accepted _ _⟩
  refine ⟨(looked.ask s c (call time)).1, ends_then admitted ?_⟩
  refine ends_then (v := looked) (ends_clock.mpr ⟨rfl, rfl⟩) ?_
  refine ends_then (ends_lookUp_ok.mpr asked) ?_
  exact ends_then (ends_note.mpr ⟨rfl, rfl⟩) (ends_pure.mpr ⟨rfl, rfl⟩)

theorem bind_readings {α β : Type} {p : Program α} {f : α → Program β} {v : World σ}
    {r : Except Failure α} (h : p.Ends s c w v r) :
    v.readings ≤ ((p >>= f).run s c w).1.readings := by
  rcases ends_bind.mp (ends_run (s := s) (c := c) (p >>= f) w) with
    ⟨e, first, _⟩ | ⟨u, a, first, rest⟩
  · exact Nat.le_of_eq (congrArg World.readings (h.1.symm.trans first.1))
  · rw [show v = u from h.1.symm.trans first.1]
    exact readings_le rest

/-- Where the store in memory does not fail, a deletion by whoever may ask for it succeeds. For a
document this is decided at an instant that the clock shows. -/
structure GoesThrough (c : Conditions) (caller : Caller) (id : Int) (w : World Memory) : Prop where
  workspace : ∀ ws ∈ w.store.tables.workspaces, ws.id = id → ws.isLive = true →
    caller.user = some ws.owner →
    ∃ w' answer, (serve caller (.deleteWorkspace id)).Ends inMemory c w w' (.ok answer)
  document : ∃ now w' r, (serve caller (.deleteDocument id)).Ends inMemory c w w' r ∧
    Shown c w w' now ∧ (Allowed w.store.tables caller id .write now → ∃ answer, r = .ok answer)

theorem goesThrough {w : World Memory} (numbered : w.store.Numbered) (calm : c.Calm)
    (caller : Caller) (id : Int) : GoesThrough c caller id w := by
  constructor
  · intro ws stored number live own
    have found := numbered.workspace_iff.mpr ⟨stored, number, live⟩
    have owner : authorize (some (.workspace ws)) caller .manage [] (c.clock w.tick.readings) =
        .allowed := by
      simp [authorize, Resource.isPresent, Resource.owner, live, own]
    have checked : (letThrough caller .manage "workspace" id (some ws) .workspace []).Ends inMemory
        c w.tick _ (settle caller "workspace" (some ws) .allowed) :=
      owner ▸ letThrough_ends "workspace" (some ws) .workspace [] w.tick
    have looked : (Program.find? (.findWorkspace id)).Ends inMemory c w w.tick
        (.ok (w.store.tables.workspace? id)) :=
      find_calm (g := fun t => t.workspace? id) calm (fun _ => rfl) w
    rw [found] at looked
    have admitted : (workspaceFor caller id .manage).Ends inMemory c w _ (.ok ws) :=
      ends_then looked checked
    obtain ⟨w', done⟩ : ∃ w', (deleteWorkspace caller id).Ends inMemory c w w'
        (.ok ((w.store.tables.withWorkspace id).summary w.store.tables)) :=
      erasing_ends (.deleteWorkspace id) calm admitted fun now time => by
        change (Memory.deleteWorkspace id time w.store).2 = _
        rw [Memory.deleteWorkspace, Tables.deleteWorkspace_found numbered.workspaces found]
    exact ⟨w', _, ends_as.mpr ⟨_, done, rfl⟩⟩
  · obtain ⟨v, later, decided⟩ := documentFor_calm calm numbered caller id .write
    let run := (deleteDocument caller id).run inMemory c w
    have ended : (deleteDocument caller id).Ends inMemory c w run.1 run.2.1 := ends_run _ _
    have last : v.readings ≤ run.1.readings := bind_readings decided
    refine ⟨c.clock (v.readings - 1), run.1, _, ends_as.mpr ⟨_, ended, rfl⟩,
      ⟨v.readings - 1, by omega, by omega, rfl⟩, ?_⟩
    rintro ⟨d, ws, present, number, entitled⟩
    rw [(ruling_ok_iff numbered).mpr ⟨present, number, entitled⟩] at decided
    have found := numbered.document_iff.mpr ⟨present.document, number, present.documentLive⟩
    have same : v.store = w.store := (documentFor_only caller id .write).same decided
    obtain ⟨w', done⟩ : ∃ w', (deleteDocument caller id).Ends inMemory c w w'
        (.ok ((w.store.tables.withDocument id).summary w.store.tables)) :=
      erasing_ends (.deleteDocument id) calm decided fun now time => by
        change (Memory.deleteDocument id time v.store).2 = _
        rw [same, Memory.deleteDocument, Tables.deleteDocument_found numbered.documents found]
    exact ⟨_, congrArg (Except.map Answer.summary) done.2⟩

/-- A deletion does its part and no more. In every state that requests lead to, in memory or in a
database, a successful deletion of a workspace or of a document has made tombstones of the target and
of what was live below it, all at one instant; every other field, row and version is as it was; the
summary counts these rows; and a second deletion finds nothing and changes nothing. -/
theorem deletions_exact :
    (∀ w : World Memory, Reachable w.store → ∀ id,
      DeletesExactly inMemory Memory.tables Memory.withTables (fun t => t) (.deleteWorkspace id)
        "workspace" (fun t => ∃ ws ∈ t.workspaces, ws.id = id ∧ ws.isLive = true)
        (fun t => t.withWorkspace id) w ∧
      DeletesExactly inMemory Memory.tables Memory.withTables (fun t => t) (.deleteDocument id)
        "document" (fun t => ∃ d ∈ t.documents, d.id = id ∧ d.isLive = true)
        (fun t => t.withDocument id) w ∧
      ∀ c caller, c.Calm → GoesThrough c caller id w) ∧
    ∀ w : World Relational, Stored w.store → ∀ id,
      DeletesExactly inDatabase Relational.tables Relational.withTables Relational.keep
        (.deleteWorkspace id) "workspace"
        (fun t => ∃ ws ∈ t.workspaces, ws.id = id ∧ ws.isLive = true) (fun t => t.withWorkspace id)
        w ∧
      DeletesExactly inDatabase Relational.tables Relational.withTables Relational.keep
        (.deleteDocument id) "document" (fun t => ∃ d ∈ t.documents, d.id = id ∧ d.isLive = true)
        (fun t => t.withDocument id) w := by
  constructor
  · intro w reached id
    have numbered := reached.numbered
    refine ⟨?_, ?_, fun c caller calm => goesThrough numbered calm caller id⟩
    · exact deleteWorkspace_exact inMemory_finds (inMemory_erasesWorkspace id) (fun _ _ => rfl)
        (fun _ => rfl) Tables.deleteWorkspace_missing numbered.workspaces
    · exact deleteDocument_exact inMemory_finds (inMemory_erasesDocument id) (fun _ _ => rfl)
        numbered.documents
  · intro w stored id
    have keyed := stored.keyed
    constructor
    · exact deleteWorkspace_exact inDatabase_finds (inDatabase_erasesWorkspace id) (fun _ _ => rfl)
        (Relational.eraseWorkspace_eq keyed.documents.distinct id) Relational.eraseWorkspace_missing
        keyed.workspaces.distinct
    · exact deleteDocument_exact inDatabase_finds (inDatabase_erasesDocument id) (fun _ _ => rfl)
        keyed.documents.distinct

/-- The owner of the sample's workspace deletes it with the document in it and the share of that, and
then finds it no more. -/
theorem sample_deleted : ∃ w', (serve ⟨some 1, none⟩ (.deleteWorkspace 1)).Ends inMemory steady
      sample w' (.ok (.summary ⟨1, 1⟩)) ∧
    ∃ v', (serve ⟨some 1, none⟩ (.deleteWorkspace 1)).Ends inMemory steady w' v'
        (.error (.notFound "workspace")) ∧ v'.store = w'.store := by
  obtain ⟨exact, _, through⟩ := deletions_exact.1 sample sample_reachable 1
  obtain ⟨ws, stored, number, live, own⟩ : ∃ ws ∈ sample.store.tables.workspaces, ws.id = 1 ∧
      ws.isLive = true ∧ some 1 = some ws.owner := by
    decide +kernel
  obtain ⟨w', answer, ended⟩ := (through steady ⟨some 1, none⟩ fun _ => rfl).workspace ws stored
    number live own
  have counted : (sample.store.tables.withWorkspace 1).summary sample.store.tables = ⟨1, 1⟩ := by
    decide +kernel
  have told := (exact.done ended).2.1
  rw [counted] at told
  have second := ends_run (s := inMemory) (c := steady)
    (serve ⟨some 1, none⟩ (.deleteWorkspace 1)) w'
  obtain ⟨same, _, missing⟩ := exact.again ended rfl second
  refine ⟨w', told ▸ ended, _, ?_, same⟩
  rw [missing fun _ => rfl] at second
  exact second

end DiagramShare.Service
