import DiagramShare.Proofs.Columns
import DiagramShare.Proofs.Conflicts

/-! Changes to rows. A change that a caller is let through to is made just where the fields of its
request pass their checks and no other row is in the way. So it writes what the body of the request
gives and leaves every other row as it was, and two changes that are made one after the other can be
made at once. -/
namespace DiagramShare.Repository

theorem any_updateWhere {α : Type} {p q : α → Bool} {f : α → α} {rows : List α}
    (same : ∀ r, p r = true → q (f r) = q r) : (updateWhere p f rows).any q = rows.any q := by
  rw [updateWhere, List.any_map]
  apply List.any_congr rfl
  intro r
  by_cases h : p r = true
  · simp [h, same r h]
  · simp [h]

theorem find_updateWhere {α : Type} {key : α → Int} {row found : α} {rows : List α} {p : α → Bool}
    (there : (updateWhere (fun r => key r == key row) (fun _ => row) rows).find? p = some found)
    (number : key found = key row) : found = row := by
  obtain ⟨r, _, same⟩ := mem_updateWhere.mp (List.mem_of_find?_eq_some there)
  split at same
  · exact same.symm
  · rename_i other
    exact absurd (beq_iff_eq.mpr (same ▸ number)) other

namespace Tables

variable {t : Tables}

theorem nameExists_setWorkspace (ws : Workspace) (owner : Int) (name : String) :
    (t.setWorkspace ws).nameExists owner name (some ws.id) =
      t.nameExists owner name (some ws.id) := by
  apply any_updateWhere
  intro v same
  simp [beq_iff_eq.mp same]

theorem slugExists_setDocument (d : Document) (workspace : Int) (slug : String) :
    (t.setDocument d).slugExists workspace slug (some d.id) =
      t.slugExists workspace slug (some d.id) := by
  apply any_updateWhere
  intro e same
  simp [beq_iff_eq.mp same]

end Tables

namespace Memory

variable {m : Memory} {now : DiagramShare.Time.Instant}

theorem updateWorkspace_fits {ws : Workspace} {changes : WorkspaceChanges}
    (fits : (Change.setWorkspace ws changes now).Fits m) :
    updateWorkspace ws.id changes now m =
      ((Change.setWorkspace ws changes now).on m, .ok (ws.change changes now)) := by
  obtain ⟨found, free⟩ := fits
  have unclashed : (changes.name.any fun name =>
      m.tables.nameExists ws.owner name (some ws.id)) = false := by
    cases given : changes.name with
    | none => rfl
    | some name => exact free name given
  simp only [updateWorkspace, found, unclashed]
  rfl

theorem updateDocument_fits {d : Document} {changes : DocumentChanges}
    (fits : (Change.setDocument d changes now).Fits m) :
    updateDocument d.id changes now m =
      ((Change.setDocument d changes now).on m, .ok (d.change changes now)) := by
  obtain ⟨found, free⟩ := fits
  have unclashed : (changes.slug.any fun slug =>
      m.tables.slugExists d.workspace slug (some d.id)) = false := by
    cases given : changes.slug with
    | none => rfl
    | some slug => exact free slug given
  simp only [updateDocument, found, unclashed]
  rfl

theorem updateShare_fits {s : Share} {changes : ShareChanges}
    (fits : (Change.setShare s changes now).Fits m) :
    updateShare s.id changes now m =
      ((Change.setShare s changes now).on m, .ok (s.change changes now)) := by
  have found : m.tables.share? s.id = some s := fits
  simp only [updateShare, found]
  rfl

end Memory

end DiagramShare.Repository

namespace DiagramShare.Service

open DiagramShare.Access
open DiagramShare.Repository (Memory Tables Change)
open DiagramShare.Text (trim)
open DiagramShare.Time (Instant)

variable {c : Conditions} {w w' : World Memory} {caller : Caller} {id : Int}

section Checks

variable {α β : Type} {check : β → Except Invalid α} {f : Option β → Except Invalid (Option α)}

structure Lifts (check : β → Except Invalid α) (f : Option β → Except Invalid (Option α)) :
    Prop where
  absent : f none = .ok none
  present : ∀ b, f (some b) = (check b).map some

theorem Lifts.upon (lifts : Lifts check f) {x y : Option β} {a b : Option α} (first : f x = .ok a)
    (second : f y = .ok b) : f (y.or x) = .ok (b.or a) := by
  cases y with
  | none =>
    cases lifts.absent.symm.trans second
    exact first
  | some v =>
    rw [lifts.present] at second
    obtain ⟨b', passed, rfl⟩ := map_eq_ok.mp second
    rw [Option.some_or, Option.some_or, lifts.present, passed]
    rfl

theorem Lifts.eq_map (lifts : Lifts check f) {g : β → α}
    (plain : ∀ {b a}, check b = .ok a → a = g b) {x : Option β} {a : Option α}
    (checked : f x = .ok a) : a = x.map g := by
  cases x with
  | none => exact (Except.ok.inj (lifts.absent.symm.trans checked)).symm
  | some b =>
    rw [lifts.present] at checked
    obtain ⟨a', passed, rfl⟩ := map_eq_ok.mp checked
    rw [plain passed, Option.map_some]

end Checks

theorem newName_lifts : Lifts (fun name => requiredText "name" name maxNameLength) newName :=
  ⟨rfl, fun _ => rfl⟩

theorem newDescription_lifts :
    Lifts (fun text => optionalText "description" (some text) maxDescriptionLength)
      newDescription :=
  ⟨rfl, fun _ => rfl⟩

theorem newTitle_lifts : Lifts (fun title => requiredText "title" title maxNameLength) newTitle :=
  ⟨rfl, fun _ => rfl⟩

theorem newSlug_lifts : Lifts givenSlug newSlug := ⟨rfl, fun _ => rfl⟩

theorem requiredText_trims {field value text : String} {max : Nat}
    (h : requiredText field value max = .ok text) : text = trim value := by
  rw [requiredText] at h
  split at h
  · cases h
  · split at h
    · cases h
    · exact (Except.ok.inj h).symm

theorem optionalText_words {field value : String} {text : Option String} {max : Nat}
    (h : optionalText field (some value) max = .ok text) : text = worded value := by
  rw [optionalText] at h
  rw [worded]
  split at h
  · rename_i blank
    rw [if_pos blank, Except.ok.inj h]
  · rename_i given
    rw [if_neg given]
    split at h
    · cases h
    · exact (Except.ok.inj h).symm

theorem givenSlug_trims {given slug : String} (h : givenSlug given = .ok slug) :
    slug = trim given := by
  rw [givenSlug, Slug.accept] at h
  cases accepted : Slug.isSlug (trim given) with
  | false => simp [accepted] at h
  | true => simpa [accepted, eq_comm] using h

structure Renames (t : Tables) (u : WorkspaceUpdate) (ws : Workspace) : Prop where
  named : newName u.name = .ok u.changes.name
  described : newDescription u.description = .ok u.changes.description
  free : ∀ name, u.changes.name = some name →
    t.nameExists ws.owner name (some ws.id) = false

/-- What passes after an earlier change has passed would have passed together with it: the name of the
row itself is in nobody's way. -/
theorem Renames.upon {t : Tables} {earlier later : WorkspaceUpdate} {ws : Workspace} {now : Instant}
    (first : Renames t earlier ws)
    (second : Renames (t.setWorkspace (ws.change earlier.changes now)) later
      (ws.change earlier.changes now)) : Renames t (later.upon earlier) ws := by
  constructor <;> rw [WorkspaceUpdate.changes_upon]
  · exact newName_lifts.upon first.named second.named
  · exact newDescription_lifts.upon first.described second.described
  · intro name given
    rcases Option.or_eq_some_iff.mp given with given | ⟨_, given⟩
    · have beside := Tables.nameExists_setWorkspace (t := t) (ws.change earlier.changes now) ws.owner
        name
      exact beside.symm.trans (second.free name given)
    · exact first.free name given

theorem updateWorkspace_ok (orderly : w.store.Orderly) {u : WorkspaceUpdate} {row : Workspace}
    (h : (updateWorkspace caller id u).Ends inMemory c w w' (.ok row)) :
    ∃ ws v now, ws.id = id ∧ (workspaceFor caller ws.id .manage).Ends inMemory c w v (.ok ws) ∧
      Renames w.store.tables u ws ∧ row = ws.change u.changes now ∧
      w'.store = (Change.setWorkspace ws u.changes now).on w.store := by
  obtain ⟨v, ws, admitted, h⟩ := ends_bind_ok.mp h
  obtain ⟨_, name, named, h⟩ := ends_bind_ok.mp h
  obtain ⟨_, description, described, h⟩ := ends_bind_ok.mp h
  obtain ⟨t, _, passed, stored⟩ := ends_bind_ok.mp h
  obtain ⟨rfl, hname⟩ := ends_obey_ok.mp named
  obtain ⟨rfl, hdescription⟩ := ends_obey_ok.mp described
  obtain ⟨same, found, own⟩ := workspaceFor_ok (by decide) admitted
  obtain ⟨there, rfl, live⟩ := orderly.numbered.workspace_iff.mp found
  have same' : t.store = w.store := ((freeName_only _ _ _).same passed).trans same
  have free := freeName_ok (same ▸ orderly.unique) (same ▸ there) live passed
  obtain rfl := newName_lifts.eq_map requiredText_trims hname
  obtain rfl := newDescription_lifts.eq_map optionalText_words hdescription
  obtain ⟨x, number, fits, hok⟩ :=
    of_done (lookUp_done stored) (Memory.updateWorkspace_cases _ _ _ _)
  obtain rfl : ws = x := Option.some.inj (found.symm.trans (number ▸ same' ▸ fits.1))
  refine ⟨ws, _, _, rfl, admitted, ⟨hname, hdescription, same ▸ free⟩,
    done_answer hok (lookUp_done stored), same' ▸ done_eq hok (lookUp_done stored)⟩

theorem freeName_passes (calm : c.Calm) {ws : Workspace} {name : Option String}
    (free : ∀ n, name = some n → w.store.tables.nameExists ws.owner n (some ws.id) = false) :
    ∃ v, (freeName ws ws.id name).Ends inMemory c w v (.ok ()) := by
  cases name with
  | none => exact ⟨w, ends_done.mpr ⟨rfl, rfl⟩⟩
  | some n =>
    simp only [freeName]
    split
    · exact ⟨w, ends_done.mpr ⟨rfl, rfl⟩⟩
    · refine ⟨w.tick, ends_then ?_ (ends_refuseIf_ok.mpr ⟨rfl, free n rfl⟩)⟩
      exact query_calm (g := fun t => t.nameExists ws.owner n (some ws.id)) calm (fun _ => rfl) w

theorem updateWorkspace_passes (calm : c.Calm) {u : WorkspaceUpdate} {ws : Workspace}
    {v : World Memory} (admitted : (workspaceFor caller ws.id .manage).Ends inMemory c w v (.ok ws))
    (renames : Renames w.store.tables u ws) : ∃ w' now,
      (updateWorkspace caller ws.id u).Ends inMemory c w w' (.ok (ws.change u.changes now)) := by
  obtain ⟨same, found, _⟩ := workspaceFor_ok (by decide) admitted
  rw [← same] at found renames
  obtain ⟨t, passed⟩ := freeName_passes calm renames.free
  rw [← (freeName_only _ _ _).same passed] at found renames
  have stored : t.Answers inMemory c (.updateWorkspace ws.id u.changes) _
      (.ok (ws.change u.changes (c.clock t.readings))) :=
    answers_of calm (Memory.updateWorkspace_fits ⟨found, renames.free⟩)
  exact ⟨_, _, ends_then admitted <| ends_then (ends_obey_ok.mpr ⟨rfl, renames.named⟩) <|
    ends_then (ends_obey_ok.mpr ⟨rfl, renames.described⟩) <|
    ends_then passed (ends_lookUp_ok.mpr stored)⟩

theorem updateWorkspace_upon (calm : c.Calm) (orderly : w.store.Orderly)
    {earlier later : WorkspaceUpdate} {w₁ w₂ : World Memory} {row₁ row₂ : Workspace}
    (first : (updateWorkspace caller id earlier).Ends inMemory c w w₁ (.ok row₁))
    (second : (updateWorkspace caller id later).Ends inMemory c w₁ w₂ (.ok row₂)) :
    ∃ w' row, (updateWorkspace caller id (later.upon earlier)).Ends inMemory c w w' (.ok row) ∧
      row = { row₂ with updatedAt := row.updatedAt } := by
  have orderly₁ := ends_orderly first orderly
  obtain ⟨ws, v, now, rfl, admitted, renames, rfl, stored⟩ := updateWorkspace_ok orderly first
  obtain ⟨ws₁, v₁, now₁, number, admitted₁, renames₁, rfl, _⟩ :=
    updateWorkspace_ok orderly₁ second
  -- The later request finds the row as the earlier one has left it.
  obtain ⟨_, found, _⟩ := workspaceFor_ok (by decide) admitted₁
  rw [stored] at found renames₁
  obtain rfl : ws₁ = ws.change earlier.changes now := Repository.find_updateWhere found number
  obtain ⟨w', time, done⟩ := updateWorkspace_passes calm admitted (renames.upon renames₁)
  refine ⟨w', _, done, ?_⟩
  rw [WorkspaceUpdate.change_upon ws earlier later now time]
  rfl

def accessFor (u : DocumentUpdate) : Kind := if u.isPublic.isSome then .manage else .write

structure Retitles (t : Tables) (u : DocumentUpdate) (d : Document) : Prop where
  titled : newTitle u.title = .ok u.changes.title
  slugged : newSlug u.slug = .ok u.changes.slug
  free : ∀ slug, u.changes.slug = some slug →
    t.slugExists d.workspace slug (some d.id) = false

theorem Retitles.upon {t : Tables} {earlier later : DocumentUpdate} {d : Document} {now : Instant}
    (first : Retitles t earlier d)
    (second : Retitles (t.setDocument (d.change earlier.changes now)) later
      (d.change earlier.changes now)) : Retitles t (later.upon earlier) d := by
  constructor <;> rw [DocumentUpdate.changes_upon]
  · exact newTitle_lifts.upon first.titled second.titled
  · exact newSlug_lifts.upon first.slugged second.slugged
  · intro slug given
    rcases Option.or_eq_some_iff.mp given with given | ⟨_, given⟩
    · have beside := Tables.slugExists_setDocument (t := t) (d.change earlier.changes now) d.workspace
        slug
      exact beside.symm.trans (second.free slug given)
    · exact first.free slug given

theorem updateDocument_ok (orderly : w.store.Orderly) {u : DocumentUpdate} {row : Document}
    (h : (updateDocument caller id u).Ends inMemory c w w' (.ok row)) :
    ∃ d ws v now, d.id = id ∧
      (documentFor caller d.id (accessFor u)).Ends inMemory c w v (.ok (d, ws)) ∧
      Retitles w.store.tables u d ∧ row = d.change u.changes now ∧
      w'.store = (Change.setDocument d u.changes now).on w.store := by
  obtain ⟨v, ⟨d, ws⟩, admitted, h⟩ := ends_bind_ok.mp h
  obtain ⟨_, title, titled, h⟩ := ends_bind_ok.mp h
  obtain ⟨_, slug, slugged, h⟩ := ends_bind_ok.mp h
  obtain ⟨t, _, passed, stored⟩ := ends_bind_ok.mp h
  obtain ⟨rfl, htitle⟩ := ends_obey_ok.mp titled
  obtain ⟨rfl, hslug⟩ := ends_obey_ok.mp slugged
  obtain ⟨same, present, rfl, _⟩ := documentFor_ok orderly.numbered admitted
  have same' : t.store = w.store := ((freeNewSlug_only _ _ _).same passed).trans same
  have free := freeNewSlug_ok (same ▸ orderly.unique) (same ▸ present.document)
    present.documentLive passed
  obtain rfl := newTitle_lifts.eq_map requiredText_trims htitle
  obtain rfl := newSlug_lifts.eq_map givenSlug_trims hslug
  obtain ⟨x, number, fits, hok⟩ :=
    of_done (lookUp_done stored) (Memory.updateDocument_cases _ _ _ _)
  have found := present_found orderly.numbered present
  obtain rfl : d = x := Option.some.inj (found.symm.trans (number ▸ same' ▸ fits.1))
  refine ⟨d, ws, _, _, rfl, admitted, ⟨htitle, hslug, same ▸ free⟩,
    done_answer hok (lookUp_done stored), same' ▸ done_eq hok (lookUp_done stored)⟩

theorem freeNewSlug_passes (calm : c.Calm) {d : Document} {slug : Option String}
    (free : ∀ s, slug = some s → w.store.tables.slugExists d.workspace s (some d.id) = false) :
    ∃ v, (freeNewSlug d d.id slug).Ends inMemory c w v (.ok ()) := by
  cases slug with
  | none => exact ⟨w, ends_done.mpr ⟨rfl, rfl⟩⟩
  | some s =>
    simp only [freeNewSlug]
    split
    · exact ⟨w, ends_done.mpr ⟨rfl, rfl⟩⟩
    · refine ⟨w.tick, ends_then ?_ (ends_refuseIf_ok.mpr ⟨rfl, free s rfl⟩)⟩
      exact query_calm (g := fun t => t.slugExists d.workspace s (some d.id)) calm (fun _ => rfl) w

theorem updateDocument_passes (calm : c.Calm) (numbered : w.store.Numbered) {u : DocumentUpdate}
    {d : Document} {ws : Workspace} {v : World Memory}
    (admitted : (documentFor caller d.id (accessFor u)).Ends inMemory c w v (.ok (d, ws)))
    (retitles : Retitles w.store.tables u d) : ∃ w' now,
      (updateDocument caller d.id u).Ends inMemory c w w' (.ok (d.change u.changes now)) := by
  obtain ⟨same, present, _⟩ := documentFor_ok numbered admitted
  have found := present_found numbered present
  rw [← same] at found retitles
  obtain ⟨t, passed⟩ := freeNewSlug_passes calm retitles.free
  rw [← (freeNewSlug_only _ _ _).same passed] at found retitles
  have stored : t.Answers inMemory c (.updateDocument d.id u.changes) _
      (.ok (d.change u.changes (c.clock t.readings))) :=
    answers_of calm (Memory.updateDocument_fits ⟨found, retitles.free⟩)
  exact ⟨_, _, ends_then admitted <| ends_then (ends_obey_ok.mpr ⟨rfl, retitles.titled⟩) <|
    ends_then (ends_obey_ok.mpr ⟨rfl, retitles.slugged⟩) <|
    ends_then passed (ends_lookUp_ok.mpr stored)⟩

theorem documentFor_owner (calm : c.Calm) (numbered : w.store.Numbered) {d : Document}
    {ws : Workspace} (present : Present w.store.tables d ws) (own : caller.user = some ws.owner)
    (kind : Kind) : ∃ v, (documentFor caller d.id kind).Ends inMemory c w v (.ok (d, ws)) := by
  obtain ⟨v, _, done⟩ := documentFor_calm calm numbered caller d.id kind
  rw [(ruling_ok_iff numbered).mpr ⟨present, rfl, .owner own⟩] at done
  exact ⟨v, done⟩

theorem accessFor_upon (earlier later : DocumentUpdate) :
    accessFor (later.upon earlier) = accessFor earlier ∨ accessFor later = .manage := by
  unfold accessFor DocumentUpdate.upon
  cases later.isPublic with
  | none => exact .inl (by rw [Option.none_or])
  | some b => exact .inr rfl

theorem updateDocument_upon (calm : c.Calm) (orderly : w.store.Orderly)
    {earlier later : DocumentUpdate} {w₁ w₂ : World Memory} {row₁ row₂ : Document}
    (first : (updateDocument caller id earlier).Ends inMemory c w w₁ (.ok row₁))
    (second : (updateDocument caller id later).Ends inMemory c w₁ w₂ (.ok row₂)) :
    ∃ w' row, (updateDocument caller id (later.upon earlier)).Ends inMemory c w w' (.ok row) ∧
      row = { row₂ with updatedAt := row.updatedAt } := by
  have orderly₁ := ends_orderly first orderly
  obtain ⟨d, ws, v, now, rfl, admitted, retitles, rfl, stored⟩ := updateDocument_ok orderly first
  obtain ⟨d₁, ws₁, v₁, now₁, number, admitted₁, retitles₁, rfl, _⟩ :=
    updateDocument_ok orderly₁ second
  obtain ⟨_, present, _⟩ := documentFor_ok orderly.numbered admitted
  obtain ⟨_, present₁, _⟩ := documentFor_ok orderly₁.numbered admitted₁
  have found := present_found orderly₁.numbered present₁
  rw [stored] at found retitles₁
  obtain rfl : d₁ = d.change earlier.changes now := Repository.find_updateWhere found number
  obtain rfl : ws₁ = ws := by
    have listed := present₁.workspace
    rw [stored] at listed
    exact Repository.eq_of_key orderly.numbered.workspaces listed present.workspace
      (present₁.inside.symm.trans present.inside)
  have admitted' : ∃ v, (documentFor caller d.id (accessFor (later.upon earlier))).Ends inMemory c w
      v (.ok (d, ws₁)) := by
    rcases accessFor_upon earlier later with same | manage
    · exact ⟨v, same ▸ admitted⟩
    · rw [manage] at admitted₁
      obtain ⟨_, _, _, own⟩ := documentFor_manage orderly₁.numbered admitted₁
      exact documentFor_owner calm orderly.numbered present own _
  obtain ⟨v', admitted'⟩ := admitted'
  obtain ⟨w', time, done⟩ :=
    updateDocument_passes calm orderly.numbered admitted' (retitles.upon retitles₁)
  refine ⟨w', _, done, ?_⟩
  rw [DocumentUpdate.change_upon d earlier later now time]
  rfl

theorem futureExpiry_before {expiry : Option Instant} {now later : Instant} (le : now ≤ later)
    (future : futureExpiry expiry later = .ok ()) : futureExpiry expiry now = .ok () := by
  cases expiry with
  | none => rfl
  | some t =>
    rw [futureExpiry] at future ⊢
    split at future
    · cases future
    · rename_i ahead
      exact if_neg fun behind => ahead (Instant.le_trans behind le)

theorem updateShare_ok (orderly : w.store.Orderly) {document share : Int} {u : ShareUpdate}
    {row : Share} (h : (updateShare caller document share u).Ends inMemory c w w' (.ok row)) :
    ∃ s v t found now, s.id = share ∧ w.store.tables.share? s.id = some s ∧
      (documentFor caller document .manage).Ends inMemory c w v (.ok found) ∧
      (shareOf document s.id).Ends inMemory c v t (.ok s) ∧ t.readings ≤ w'.readings ∧
      futureExpiry (u.expiresAt.bind fun e => e) (c.clock t.readings) = .ok () ∧
      row = s.change u.changes now ∧
      w'.store = (Change.setShare s u.changes now).on w.store := by
  obtain ⟨v, ⟨d, ws⟩, admitted, h⟩ := ends_bind_ok.mp h
  obtain ⟨t, s, picked, h⟩ := ends_bind_ok.mp h
  obtain ⟨_, now, read, h⟩ := ends_bind_ok.mp h
  obtain ⟨_, _, future, stored⟩ := ends_bind_ok.mp h
  obtain ⟨rfl, timely⟩ := ends_obey_ok.mp future
  obtain ⟨rfl, showed⟩ := ends_clock.mp read
  cases showed
  obtain ⟨same, _⟩ := documentFor_ok orderly.numbered admitted
  obtain ⟨same', found, _⟩ := shareOf_ok picked
  obtain rfl := Repository.key_of_find found
  obtain ⟨x, number, fits, hok⟩ :=
    of_done (lookUp_done stored) (Memory.updateShare_cases _ _ _ _)
  have rows : t.store = w.store := same'.trans same
  have fits : t.store.tables.share? x.id = some x := fits
  rw [number, rows, ← same, found] at fits
  cases fits
  have done := done_eq hok (lookUp_done stored)
  have later := Nat.le_of_succ_le (readings_le stored)
  refine ⟨s, v, t, _, _, rfl, same ▸ found, admitted, picked, later, timely,
    done_answer hok (lookUp_done stored), ?_⟩
  rw [← rows]
  exact done

theorem updateShare_passes (calm : c.Calm) {document : Int} {u : ShareUpdate} {s : Share}
    {found : Document × Workspace} {v t : World Memory}
    (admitted : (documentFor caller document .manage).Ends inMemory c w v (.ok found))
    (picked : (shareOf document s.id).Ends inMemory c v t (.ok s))
    (timely : futureExpiry (u.expiresAt.bind fun e => e) (c.clock t.readings) = .ok ()) :
    ∃ w' now, (updateShare caller document s.id u).Ends inMemory c w w'
      (.ok (s.change u.changes now)) := by
  obtain ⟨same, there, _⟩ := shareOf_ok picked
  let read : World Memory := { t with readings := t.readings + 1 }
  rw [← same] at there
  have stored : read.Answers inMemory c (.updateShare s.id u.changes) _
      (.ok (s.change u.changes (c.clock read.readings))) :=
    answers_of calm (Memory.updateShare_fits there)
  exact ⟨_, _, ends_then admitted <| ends_then picked <| ends_then (ends_clock.mpr ⟨rfl, rfl⟩) <|
    ends_then (a := ()) (ends_obey_ok.mpr ⟨rfl, timely⟩) (ends_lookUp_ok.mpr stored)⟩

theorem updateShare_upon (calm : c.Calm) (rising : ∀ m n, m ≤ n → c.clock m ≤ c.clock n)
    (orderly : w.store.Orderly) {document share : Int} {earlier later : ShareUpdate}
    {w₁ w₂ : World Memory} {row₁ row₂ : Share}
    (first : (updateShare caller document share earlier).Ends inMemory c w w₁ (.ok row₁))
    (second : (updateShare caller document share later).Ends inMemory c w₁ w₂ (.ok row₂)) :
    ∃ w' row, (updateShare caller document share (later.upon earlier)).Ends inMemory c w w'
        (.ok row) ∧ row = { row₂ with updatedAt := row.updatedAt } := by
  have orderly₁ := ends_orderly first orderly
  obtain ⟨s, v, t, _, now, rfl, _, admitted, picked, before, timely, rfl, stored⟩ :=
    updateShare_ok orderly first
  obtain ⟨s₁, v₁, t₁, _, now₁, number, found, admitted₁, picked₁, _, timely₁, rfl, _⟩ :=
    updateShare_ok orderly₁ second
  rw [stored] at found
  obtain rfl : s₁ = s.change earlier.changes now := Repository.find_updateWhere found number
  have le : t.readings ≤ t₁.readings :=
    Nat.le_trans before (Nat.le_trans (readings_le admitted₁) (readings_le picked₁))
  have merged : futureExpiry ((later.upon earlier).expiresAt.bind fun e => e)
      (c.clock t.readings) = .ok () := by
    unfold ShareUpdate.upon
    cases given : later.expiresAt with
    | none => rwa [Option.none_or]
    | some e =>
      rw [given] at timely₁
      exact futureExpiry_before (rising _ _ le) timely₁
  obtain ⟨w', time, done⟩ := updateShare_passes calm admitted picked merged
  refine ⟨w', _, done, ?_⟩
  rw [ShareUpdate.change_upon s earlier later now time]
  rfl

/-- Where two requests succeed one after the other, they succeed at once as well, with the fields of
the later one before those of the earlier one, and the answer is alike. -/
def AtOnce (c : Conditions) (w : World Memory) (update : ρ → Program α) (upon : ρ → ρ → ρ)
    (alike : α → α → Prop) : Prop :=
  ∀ earlier later w₁ w₂ a₁ a₂, (update earlier).Ends inMemory c w w₁ (.ok a₁) →
    (update later).Ends inMemory c w₁ w₂ (.ok a₂) →
    ∃ w' a, (update (upon later earlier)).Ends inMemory c w w' (.ok a) ∧ alike a a₂

/-- In every state that requests lead to, a change writes what the body of its request gives: a field
that the body leaves out, or gives as null, keeps its value, and so does every other column but the
time of the change, and every other row; only an expiry is taken away by null. The row that is answered
is the one that is stored. Two changes of a row by one caller can be made at once. -/
theorem Reachable.partial_updates (reached : Reachable w.store) (c : Conditions) (caller : Caller)
    (id share : Int) :
    (∀ source u w' row, Json.Decode.ofSource WorkspaceUpdate.decode source = .ok u →
      (updateWorkspace caller id u).Ends inMemory c w w' (.ok row) →
      ∃ old ∈ w.store.tables.workspaces, old.id = id ∧ old.isLive = true ∧
        old.Rewritten (Json.Reading.ofSource source).1 row ∧
        w'.store = { w.store with tables := { w.store.tables with
          workspaces := w.store.tables.workspaces.map fun v => if v.id = id then row else v } }) ∧
    (∀ source u w' row, Json.Decode.ofSource DocumentUpdate.decode source = .ok u →
      (updateDocument caller id u).Ends inMemory c w w' (.ok row) →
      ∃ old ∈ w.store.tables.documents, old.id = id ∧ old.isLive = true ∧
        old.Rewritten (Json.Reading.ofSource source).1 row ∧
        w'.store = { w.store with tables := { w.store.tables with
          documents := w.store.tables.documents.map fun v => if v.id = id then row else v } }) ∧
    (∀ source u w' row, Json.Decode.ofSource ShareUpdate.decode source = .ok u →
      (updateShare caller id share u).Ends inMemory c w w' (.ok row) →
      ∃ old ∈ w.store.tables.shares, old.id = share ∧ old.document = id ∧ old.isLive = true ∧
        old.Rewritten (Json.Reading.ofSource source).1 row ∧
        w'.store = { w.store with tables := { w.store.tables with
          shares := w.store.tables.shares.map fun v => if v.id = share then row else v } }) ∧
    (c.Calm → (∀ m n, m ≤ n → c.clock m ≤ c.clock n) →
      AtOnce c w (updateWorkspace caller id) WorkspaceUpdate.upon
        (fun row row₂ => row = { row₂ with updatedAt := row.updatedAt }) ∧
      AtOnce c w (updateDocument caller id) DocumentUpdate.upon
        (fun row row₂ => row = { row₂ with updatedAt := row.updatedAt }) ∧
      AtOnce c w (updateShare caller id share) ShareUpdate.upon
        (fun row row₂ => row = { row₂ with updatedAt := row.updatedAt })) := by
  have orderly := reached.orderly
  refine ⟨fun source u w' row decoded done => ?_, fun source u w' row decoded done => ?_,
    fun source u w' row decoded done => ?_, fun calm rising => ⟨?_, ?_, ?_⟩⟩
  · obtain ⟨old, _, now, rfl, admitted, _, rfl, stored⟩ := updateWorkspace_ok orderly done
    obtain ⟨_, found, _⟩ := workspaceFor_ok (by decide) admitted
    obtain ⟨listed, _, live⟩ := orderly.numbered.workspace_iff.mp found
    have read := WorkspaceUpdate.readFrom_of_decode (Json.Decode.ofSource_ok decoded)
    refine ⟨old, listed, rfl, live, read.rewritten old now, stored.trans ?_⟩
    simp only [Change.on, Tables.setWorkspace, Repository.updateWhere, beq_iff_eq]
    rfl
  · obtain ⟨old, _, _, now, rfl, admitted, _, rfl, stored⟩ := updateDocument_ok orderly done
    obtain ⟨_, present, _⟩ := documentFor_ok orderly.numbered admitted
    have read := DocumentUpdate.readFrom_of_decode (Json.Decode.ofSource_ok decoded)
    refine ⟨old, present.document, rfl, present.documentLive, read.rewritten old now,
      stored.trans ?_⟩
    simp only [Change.on, Tables.setDocument, Repository.updateWhere, beq_iff_eq]
    rfl
  · obtain ⟨old, _, _, _, now, rfl, found, _, picked, _, _, rfl, stored⟩ :=
      updateShare_ok orderly done
    have read := ShareUpdate.readFrom_of_decode (Json.Decode.ofSource_ok decoded)
    refine ⟨old, List.mem_of_find?_eq_some found, rfl, (shareOf_ok picked).2.2,
      Repository.also_of_find found, read.rewritten old now, stored.trans ?_⟩
    simp only [Change.on, Tables.setShare, Repository.updateWhere, beq_iff_eq]
    rfl
  · exact fun _ _ _ _ _ _ first second => updateWorkspace_upon calm orderly first second
  · exact fun _ _ _ _ _ _ first second => updateDocument_upon calm orderly first second
  · exact fun _ _ _ _ _ _ first second => updateShare_upon calm rising orderly first second

def chartBody : Json.Source :=
  "\x7b\"title\": \" Chart \", \"slug\": null\x7d".toList.map some

/-- The new title does not move the slug, and a second change can be made together with it. -/
theorem sample_updated :
    Reachable sample.store ∧ steady.Calm ∧ ∃ u w₁ row,
      Json.Decode.ofSource DocumentUpdate.decode chartBody = .ok u ∧
      (updateDocument ⟨some 1, none⟩ 2 u).Ends inMemory steady sample w₁ (.ok row) ∧
      row.title = "Chart" ∧ row.slug = "flow" ∧
      ∃ w' both, (updateDocument ⟨some 1, none⟩ 2 ⟨some " Chart ", none, none, some true⟩).Ends
        inMemory steady sample w' (.ok both) := by
  have calm : steady.Calm := fun _ => rfl
  have rising : ∀ m n, m ≤ n → steady.clock m ≤ steady.clock n := by
    intro m n le
    simp only [steady, Instant.le_iff, Instant.ofSeconds]
    omega
  have decoded : (Json.Decode.ofSource DocumentUpdate.decode chartBody).toOption.map
      (fun u => (u.title, u.kind, u.slug, u.isPublic)) = some (some " Chart ", none, none, none) := by
    decide +kernel
  obtain ⟨⟨_, _, _, _⟩, decoded, same⟩ := Option.map_eq_some_iff.mp decoded
  cases same
  have decoded := ok_of_toOption decoded
  have first : ((updateDocument ⟨some 1, none⟩ 2 ⟨some " Chart ", none, none, none⟩).run inMemory
      steady sample).2.1.isOk = true := by decide +kernel
  have second : ((updateDocument ⟨some 1, none⟩ 2 ⟨none, none, none, some true⟩).run inMemory steady
      ((updateDocument ⟨some 1, none⟩ 2 ⟨some " Chart ", none, none, none⟩).run inMemory
        steady sample).1).2.1.isOk = true := by decide +kernel
  obtain ⟨row, first⟩ := exists_ok first
  obtain ⟨row₂, second⟩ := exists_ok second
  have first : Program.Ends inMemory steady _ _ _ _ := ⟨rfl, first⟩
  have second : Program.Ends inMemory steady _ _ _ _ := ⟨rfl, second⟩
  obtain ⟨_, documents, _, together⟩ :=
    sample_reachable.partial_updates steady ⟨some 1, none⟩ 2 4
  obtain ⟨old, listed, number, _, rewritten, _⟩ := documents _ _ _ _ decoded first
  obtain ⟨w', both, done, _⟩ := (together calm rising).2.1 _ _ _ _ _ _ first second
  refine ⟨sample_reachable, calm, _, _, row, decoded, first, ?_, ?_, w', both, done⟩
  · have given : (((Json.Reading.ofSource chartBody).1.given? DocumentUpdate.fields "title").bind
        fun r => r.text?.map trim) = some "Chart" := by decide +kernel
    obtain ⟨r, found, text⟩ := Option.bind_eq_some_iff.mp given
    exact Option.some.inj ((rewritten.title.taken r found).symm.trans text)
  · have slugs : ∀ d ∈ sample.store.tables.documents, d.id = 2 → d.slug = "flow" := by
      decide +kernel
    have given : ((Json.Reading.ofSource chartBody).1.given? DocumentUpdate.fields "slug").isNone =
        true := by decide +kernel
    rw [rewritten.slug.kept (Option.isNone_iff_eq_none.mp given), slugs old listed number]

end DiagramShare.Service
