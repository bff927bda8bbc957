import DiagramShare.Proofs.Decision
import DiagramShare.Proofs.Duplicates
import DiagramShare.Proofs.Folders
import DiagramShare.Proofs.Joint
import DiagramShare.Proofs.Results

/-! Requests and the storage. Only uploads and deletions of attachments change the storage, and only
for a caller who may write the document. Nothing but the last part needs to know the store. -/
namespace DiagramShare.Storage

def Call.isReading : Call α → Bool
  | .upload _ _ | .delete _ => false
  | _ => true

theorem Backend.answer_isReading {call : Call α} (reads : call.isReading = true) (number : Nat)
    (b : Backend) : (b.answer number call).1 = b := by
  cases call with
  | upload key content => cases reads
  | delete key => cases reads
  | _ => rfl

end DiagramShare.Storage

namespace DiagramShare.Service

open DiagramShare.Access
open DiagramShare.Storage (Backend Bytes Content)
open DiagramShare.Time (Instant)
open Duo.Agrees (filed)

variable {σ : Type} {s : Store σ} {c : Conditions} {w w' v : World σ} {α β : Type}

theorem ends_filed {call : Storage.Call β} {next : Except Storage.Failure β → Program α}
    {r : Except Failure α} : (Program.store call next).Ends s c w w' r ↔
      let out := w.backend.answer (c.staging w.uploads) call
      (next out.2.1).Ends s c (filed w out.1) w' r := Iff.rfl

theorem ends_storing {call : Storage.Call α} {r : Except Failure α} :
    (Program.storing call).Ends s c w w' r ↔
      let out := w.backend.answer (c.staging w.uploads) call
      w' = filed w out.1 ∧ r = out.2.1.mapError .ofStorage := by
  simp only [Program.storing, ends_filed]
  generalize w.backend.answer (c.staging w.uploads) call = out
  rcases out with ⟨b, _ | _, records⟩ <;> simp [Except.mapError]

/-- Whatever the answers are, a program changes nothing in the storage. -/
inductive Program.Sparing : Program α → Prop where
  | done (a : α) : Sparing (.done a)
  | fail (e : Failure) : Sparing (.fail e)
  | ask {β : Type} {call : Repository.Call β} {next : Except Repository.Failure β → Program α}
      (rest : ∀ r, Sparing (next r)) : Sparing (.ask call next)
  | store {β : Type} {call : Storage.Call β} {next : Except Storage.Failure β → Program α}
      (reads : call.isReading = true) (rest : ∀ r, Sparing (next r)) : Sparing (.store call next)
  | now {next : Instant → Program α} (rest : ∀ t, Sparing (next t)) : Sparing (.now next)
  | token {next : String → Program α} (rest : ∀ t, Sparing (next t)) : Sparing (.token next)
  | log {record : LogRecord} {next : Program α} (rest : Sparing next) : Sparing (.log record next)

namespace Program.Sparing

theorem backend {p : Program α} (sparing : p.Sparing) {r : Except Failure α}
    (ends : p.Ends s c w w' r) : w'.backend = w.backend := by
  induction sparing generalizing w with
  | done a => rw [(ends_done.mp ends).1]
  | fail e => rw [(ends_fail.mp ends).1]
  | @ask β call next rest ih =>
    obtain ⟨v, a, ⟨rfl, _⟩, later⟩ := ends_ask.mp ends
    rw [ih a later]
    unfold World.ask
    split <;> rfl
  | @store β call next reads rest ih =>
    rw [ih _ (ends_filed.mp ends), filed, Backend.answer_isReading reads]
  | now _ ih =>
    have later : w'.backend = _ := ih _ (ends_now.mp ends)
    exact later
  | token _ ih =>
    have later : w'.backend = _ := ih _ (ends_token.mp ends)
    exact later
  | log _ ih => exact ih (ends_log.mp ends)

@[simp] theorem pure (a : α) : (Pure.pure a : Program α).Sparing := .done a

@[simp] theorem bind {p : Program α} {f : α → Program β} (first : p.Sparing)
    (rest : ∀ a, (f a).Sparing) : (p >>= f).Sparing := by
  change (p.andThen f).Sparing
  induction first with
  | done a => exact rest a
  | fail e => exact .fail e
  | ask _ ih => exact .ask ih
  | store reads _ ih => exact .store reads ih
  | now _ ih => exact .now ih
  | token _ ih => exact .token ih
  | log _ ih => exact .log ih

attribute [simp] done fail

@[simp] theorem query (call : Repository.Call α) : (Program.query call).Sparing := by
  apply ask
  intro r
  cases r <;> simp

@[simp] theorem lookUp (what : String) (call : Repository.Call α) :
    (Program.lookUp what call).Sparing := by
  apply ask
  intro r
  cases r <;> simp

@[simp] theorem find? (call : Repository.Call α) : (Program.find? call).Sparing := by
  apply ask
  intro r
  rcases r with (_ | _ | _ | _) | _ <;> simp

theorem storing {call : Storage.Call α} (reads : call.isReading = true) :
    (Program.storing call).Sparing := by
  apply store reads
  intro r
  cases r <;> simp

@[simp] theorem clock : Program.clock.Sparing := .now .done

@[simp] theorem freshToken : Program.freshToken.Sparing := .token .done

@[simp] theorem note (level : Level) (text : String) : (Program.note level text).Sparing :=
  .log (.done ())

@[simp] theorem obey (checked : Except Invalid α) : (Program.obey checked).Sparing := by
  cases checked with
  | ok a => exact .done a
  | error e => exact .fail _

@[simp] theorem refuseIf (found : Bool) (clash : Clash) :
    (Program.refuseIf found clash).Sparing := by
  cases found with
  | false => exact .done ()
  | true => exact .fail _

end Program.Sparing

section Sparing

variable (caller : Caller) (kind : Kind) (id : Int)

@[simp] theorem letThrough_sparing (what : String) (found : Option α) (resource : α → Resource)
    (grants : List Share) : (letThrough caller kind what id found resource grants).Sparing := by
  unfold letThrough
  apply Program.Sparing.clock.bind
  intro now
  generalize authorize (found.map resource) caller kind grants now = decision
  have note : (noteDenial decision caller kind what id).Sparing := by
    unfold noteDenial
    split <;> simp
  have heed : (heed decision caller what).Sparing := by
    unfold heed
    split <;> simp
  cases found <;> simp [note, heed, present]

@[simp] theorem workspaceFor_sparing : (workspaceFor caller id kind).Sparing := by
  simp [workspaceFor]

@[simp] theorem documentFor_sparing : (documentFor caller id kind).Sparing := by
  unfold documentFor
  apply (Program.Sparing.find? _).bind
  intro d
  apply Program.Sparing.bind
  · cases d <;> simp [workspaceOf]
  intro w
  apply Program.Sparing.bind _ (by simp)
  rcases both d w with _ | ⟨d, w⟩
  · simp [grantsFor]
  · simp only [grantsFor]
    split <;> simp

@[simp] theorem allow_sparing : (allow caller id kind).Sparing := by simp [allow]

theorem describe_sparing (key : String) : (describe key).Sparing := by
  apply (Program.Sparing.storing rfl).bind
  intro size
  apply (Program.Sparing.storing rfl).bind
  simp

end Sparing

theorem freeSlug_sparing (workspace : Int) (slug : String) (except : Option Int) :
    (freeSlug workspace slug except).Sparing := by simp [freeSlug]

theorem allocate_sparing (document : Int) (request : ShareRequest) (attempt left : Nat) :
    (allocate document request attempt left).Sparing := by
  induction left generalizing attempt with
  | zero => exact .fail _
  | succ left ih =>
    apply Program.Sparing.freshToken.bind
    intro token
    apply Program.Sparing.ask
    intro r
    rcases r with (_ | index | _ | _) | share
    case error.duplicate =>
      simp only
      split <;> simp [ih]
    all_goals simp

theorem requireUser_sparing (d : Document) (w : Workspace) (user : Option Int) :
    (requireUser d w user).Sparing := by
  cases user with
  | none => exact .done ()
  | some user =>
    apply (Program.Sparing.obey _).bind
    intro _
    apply (Program.Sparing.obey _).bind
    simp

/-- What a request puts in the place of an attachment if it succeeds: the document, the name and the
content, or nothing where the request takes the attachment away. -/
def Operation.files? : Operation → Option (Int × String × Option Bytes)
  | .uploadAsset document name content => some (document, name, some content.bytes)
  | .deleteAsset document name => some (document, name, none)
  | _ => none

theorem serve_sparing (caller : Caller) {op : Operation} (other : op.files? = none) :
    (serve caller op).Sparing := by
  have user : (userOf caller).Sparing := by
    unfold userOf
    cases caller.user <;> simp
  have author : (ensureAuthor caller).Sparing := by
    unfold ensureAuthor
    cases caller.user <;> simp
  have name : ∀ w id name, (freeName w id name).Sparing := by
    intro w id name
    cases name with
    | none => exact .done ()
    | some name =>
      simp only [freeName]
      split <;> simp
  have slug : ∀ d id slug, (freeNewSlug d id slug).Sparing := by
    intro d id slug
    cases slug with
    | none => exact .done ()
    | some slug =>
      simp only [freeNewSlug]
      split <;> simp [freeSlug_sparing]
  have share : ∀ document share, (shareOf document share).Sparing := by
    intro document share
    apply (Program.Sparing.lookUp _ _).bind
    intro s
    split <;> simp
  have opening : ∀ key, (Program.storing (.open_ key)).Sparing := fun key => .storing rfl
  cases op with
  | uploadAsset document name content => cases other
  | deleteAsset document name => cases other
  | _ =>
    apply Program.Sparing.bind _ (by simp)
    simp only [ping, createWorkspace, getWorkspace, listWorkspaces, updateWorkspace,
      deleteWorkspace, createDocument, getDocument, listDocuments, updateDocument, deleteDocument,
      createVersion, listVersions, getVersion, shareDocument, listShares, updateShare, revokeShare,
      openAsset, assetUrl]
    repeat' first | with_reducible apply Program.Sparing.bind | intro _
    all_goals simp [user, author, name, slug, share, opening, freeSlug_sparing, allocate_sparing,
      requireUser_sparing, describe_sparing]

variable {caller : Caller} {kind : Kind} {document : Int} {name key : String} {content : Content}

theorem ends_backend {p : Program α} {r : Except Failure α} (ends : p.Ends s c w w' r) :
    w'.backend.settings = w.backend.settings ∧ w'.backend.root = w.backend.root := by
  induction p generalizing w with
  | done a => simp [(ends_done.mp ends).1]
  | fail e => simp [(ends_fail.mp ends).1]
  | ask call next ih =>
    obtain ⟨v, a, ⟨rfl, _⟩, later⟩ := ends_ask.mp ends
    have kept : (w.ask s c call).1.backend = w.backend := by
      unfold World.ask
      split <;> rfl
    rw [← kept]
    exact ih a later
  | store call next ih =>
    obtain ⟨settings, root⟩ := w.backend.answer_same (c.staging w.uploads) call
    rw [← settings, ← root]
    exact ih _ (ends_filed.mp ends)
  | now next ih =>
    have rest := ih _ (ends_now.mp ends)
    exact rest
  | token next ih =>
    have rest := ih _ (ends_token.mp ends)
    exact rest
  | log record next ih => exact ih (ends_log.mp ends)

def infoFor (b : Backend) (key : String) (length : Nat) : AssetInfo :=
  ⟨key, Storage.joinUrl b.settings.localStorage.publicUrl key, length⟩

theorem describe_ends {size : Nat} (isLocal : w.backend.driver = .local)
    (accepted : Storage.Key.normalize key = .ok key) (there : w.backend.size key = .ok size) :
    ∃ v, v.backend = w.backend ∧ v.readings = w.readings ∧
      (describe key).Ends s c w v (.ok (infoFor w.backend key size)) := by
  have url : w.backend.url key =
      .ok (Storage.joinUrl w.backend.settings.localStorage.publicUrl key) := by
    simp [Backend.url, isLocal, Storage.Local.url, Storage.Local.canonical, accepted,
      Except.mapError, Except.map]
  refine ⟨filed (filed w w.backend) w.backend, rfl, rfl, ?_⟩
  apply ends_then (a := size)
  · exact ends_storing.mpr ⟨rfl, (mapError_ok.mpr there).symm⟩
  apply ends_then
  · exact ends_storing.mpr ⟨rfl, (mapError_ok.mpr url).symm⟩
  exact ends_done.mpr ⟨rfl, rfl⟩

theorem uploadAsset_ends (isLocal : w.backend.driver = .local) (shelved : w.backend.disk.Shelved)
    (admitted : (allow caller document .write).Ends s c w v (.ok ())) :
    let out := Storage.Local.upload w.backend.root w.backend.disk
      (Storage.Key.ofAsset document name) (c.staging v.uploads) content
    ∃ u, u.backend = { w.backend with disk := out.1 } ∧ u.readings = v.readings ∧
      (uploadAsset caller document name content).Ends s c w u
        ((out.2.1.map fun key => infoFor w.backend key content.bytes.length).mapError .ofStorage) := by
  intro out
  have same : v.backend = w.backend := (allow_sparing _ _ _).backend admitted
  have answer : v.backend.answer (c.staging v.uploads)
      (.upload (Storage.Key.ofAsset document name) content) =
        ({ w.backend with disk := out.1 }, out.2) := by
    rw [same]
    exact Backend.upload_local isLocal _ _ _
  obtain ⟨refiled, whole⟩ :=
    shelved.upload w.backend.root document name (c.staging v.uploads) content
  let x : World σ := filed v { w.backend with disk := out.1 }
  have stored : (Program.storing (.upload (Storage.Key.ofAsset document name) content)).Ends s c v x
      (out.2.1.mapError .ofStorage) := by
    rw [ends_storing, answer]
    exact ⟨rfl, rfl⟩
  cases result : out.2.1 with
  | error e =>
    rw [result] at stored
    refine ⟨x, rfl, rfl, ?_⟩
    apply ends_then admitted
    exact ends_bind.mpr (.inl ⟨_, stored, rfl⟩)
  | ok key =>
    obtain rfl := whole key result
    rw [result] at stored
    have driver : x.backend.driver = .local := isLocal
    have shelved : x.backend.disk.Shelved := refiled.shelved
    have there : x.backend.disk.file?
        (Storage.Local.pathOf (Storage.Key.ofAsset document name)) = some content.bytes := by
      refine (refiled.files _).trans ?_
      change (if _ then (out.2.1.toOption.map _).getD _ else _) = _
      simp [result, Except.toOption]
    have size := (Backend.size_shelved driver shelved).mpr ⟨_, there, rfl⟩
    obtain ⟨y, kept, readings, described⟩ :=
      describe_ends (s := s) (c := c) driver (shelved.accepted there) size
    refine ⟨filed y y.backend, kept, readings, ?_⟩
    apply ends_then admitted
    apply ends_then stored
    apply ends_then described
    apply ends_then
    · exact ends_storing.mpr ⟨rfl, rfl⟩
    apply ends_then
    · exact ends_note.mpr ⟨rfl, rfl⟩
    exact ends_done.mpr ⟨rfl, rfl⟩

def absenceOk : Except Storage.Failure Unit → Except Failure Unit
  | .ok () => .ok ()
  | .error (.missing _) => .ok ()
  | .error e => .error (.ofStorage e)

theorem deleteAsset_ends (isLocal : w.backend.driver = .local)
    (admitted : (allow caller document .write).Ends s c w v (.ok ())) :
    let out := Storage.Local.delete w.backend.disk (Storage.Key.ofAsset document name)
    ∃ u, u.backend = { w.backend with disk := out.1 } ∧
      (deleteAsset caller document name).Ends s c w u (absenceOk out.2) := by
  intro out
  have same : v.backend = w.backend := (allow_sparing _ _ _).backend admitted
  have answer : v.backend.answer (c.staging v.uploads)
      (.delete (Storage.Key.ofAsset document name)) =
        ({ w.backend with disk := out.1 }, out.2, []) := by
    rw [same]
    simp only [Backend.answer, Backend.delete_local isLocal, out]
  refine ⟨filed v { w.backend with disk := out.1 }, rfl, ?_⟩
  apply ends_then admitted
  rw [ends_filed, answer]
  rcases out.2 with (_ | _ | _ | _ | _ | _) | _ <;> simp [absenceOk]

theorem refiled_of_write (shelved : w.backend.disk.Shelved) {op : Operation}
    {rest : Unit → Program α} {wrap : α → Answer} {value : Option Bytes}
    (program : serve caller op = (allow caller document .write >>= rest).as wrap)
    (written : ∀ v, (allow caller document .write).Ends s c w v (.ok ()) →
      ∃ u r, (allow caller document .write >>= rest).Ends s c w u r ∧
        w.backend.disk.Refiled document name (r.toOption.map fun _ => value) u.backend.disk)
    {r : Except Failure Answer} (ends : (serve caller op).Ends s c w w' r) :
    w.backend.disk.Refiled document name (r.toOption.map fun _ => value) w'.backend.disk ∧
      (w'.backend = w.backend ∨
        ∃ v, (allow caller document .write).Ends s c w v (.ok ()) ∧ v.readings ≤ w'.readings) := by
  rw [program] at ends
  obtain ⟨b, done, rfl⟩ := ends_as.mp ends
  rcases ends_bind.mp done with ⟨e, refused, rfl⟩ | ⟨v, _, admitted, later⟩
  · rw [(allow_sparing _ _ _).backend refused]
    exact ⟨shelved.unchanged, .inl rfl⟩
  · obtain ⟨u, r, done', refiled⟩ := written v admitted
    obtain ⟨rfl, rfl⟩ := ends_unique done' done
    constructor
    · cases r <;> exact refiled
    · exact .inr ⟨v, admitted, readings_le later⟩

/-- Requests change the storage only so, and only once their callers are let through to write. -/
theorem serve_refiled (isLocal : w.backend.driver = .local) (shelved : w.backend.disk.Shelved)
    {op : Operation} {value : Option Bytes} (files : op.files? = some (document, name, value))
    {r : Except Failure Answer} (ends : (serve caller op).Ends s c w w' r) :
    w.backend.disk.Refiled document name (r.toOption.map fun _ => value) w'.backend.disk ∧
      (w'.backend = w.backend ∨
        ∃ v, (allow caller document .write).Ends s c w v (.ok ()) ∧ v.readings ≤ w'.readings) := by
  cases op with
  | uploadAsset d n content =>
    cases files
    apply refiled_of_write shelved rfl _ ends
    intro v admitted
    obtain ⟨u, after, _, done⟩ := uploadAsset_ends isLocal shelved admitted
    obtain ⟨refiled, _⟩ :=
      shelved.upload w.backend.root document name (c.staging v.uploads) content
    refine ⟨u, _, done, ?_⟩
    rw [after]
    revert refiled
    generalize Storage.Local.upload _ _ _ _ _ = out
    rcases out with ⟨x, _ | key, records⟩ <;> exact id
  | deleteAsset d n =>
    cases files
    apply refiled_of_write shelved rfl _ ends
    intro v admitted
    obtain ⟨u, after, done⟩ := deleteAsset_ends isLocal admitted
    refine ⟨u, _, done, ?_⟩
    have refiled := shelved.delete document name
    rw [after]
    revert refiled
    generalize Storage.Local.delete _ _ = out
    rcases out with ⟨x, (_ | _ | _ | _ | _ | _) | _⟩ <;> exact id
  | _ => cases files

end DiagramShare.Service
