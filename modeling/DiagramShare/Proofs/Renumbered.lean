import DiagramShare.Proofs.StandIn

/-! One request, asked on both sides. The numbers in it stand for rows made by the same requests, and
so do the numbers in the two answers; what has been made on both sides is paired from then on. -/
namespace DiagramShare.Service

open DiagramShare.Access
open DiagramShare.Repository (Memory Relational)
open DiagramShare.Repository.Relational (isSendable)
open DiagramShare.Storage (Backend)
open DiagramShare.Time (Instant)
open List (Forall₂)

variable {c c' : Conditions} {π : Pairing} {K : Memory → Prop} {w : World Memory}
variable {w' : World Relational}

theorem InStep.filed (h : InStep c c' π w w') {b b' : Backend} (twin : b.Twin π.documents b') :
    InStep c c' π (Duo.Agrees.filed w b) (Duo.Agrees.filed w' b') :=
  ⟨h.readings, h.drawn, twin, h.coupled⟩

theorem InStep.fair (h : InStep c c' π w w') : Fair π.documents w.store.numbers.documents
    w'.store.sequences.documents :=
  h.coupled.paired.documents

theorem ofStorage_alike {e e' : Storage.Failure} (alike : e.Alike e') :
    (Failure.ofStorage e').code = (Failure.ofStorage e).code := by
  cases alike <;> rfl

theorem Parallel.storing {call : Storage.Call α} {call' : Storage.Call β}
    {P : Bond Memory Relational} {Q : α → β → Bond Memory Relational}
    (answers : ∀ w w', P w w' →
      let out := w.backend.answer (c.staging w.uploads) call
      let out' := w'.backend.answer (c'.staging w'.uploads) call'
      Meet (fun a b => Q a b (Duo.Agrees.filed w out.1) (Duo.Agrees.filed w' out'.1))
        (fun e e' => e.Alike e' ∧
          InStep c c' π (Duo.Agrees.filed w out.1) (Duo.Agrees.filed w' out'.1))
        out.2.1 out'.2.1) :
    Parallel c c' π P (Program.storing call) (Program.storing call') Q := by
  refine Duo.Agrees.store (D := sides c c') (S := fun r r' v v' => Meet (fun a b => Q a b v v')
    (fun e e' => e.Alike e' ∧ InStep c c' π v v') r r') answers fun r r' => ?_
  cases r with
  | ok a =>
    cases r' with
    | ok b => exact .done fun _ _ met => by cases met; assumption
    | error e' => exact fun _ _ _ _ _ _ met => nomatch met
  | error e =>
    cases r' with
    | ok b => exact fun _ _ _ _ _ _ met => nomatch met
    | error e' =>
      refine .fail fun _ _ met => ?_
      cases met with
      | error failed => exact ⟨ofStorage_alike failed.1, failed.2⟩

structure AssetInfo.Alike (π : Pairing) (a b : AssetInfo) : Prop where
  key : ∃ d d' name, (d, d') ∈ π.documents ∧ a.key = Storage.Key.ofAsset d name ∧
    b.key = Storage.Key.ofAsset d' name
  url : ∃ base, a.url = base ++ a.key ∧ b.url = base ++ b.key
  size : b.size = a.size

section Assets

variable {caller : Caller} {id id' : Int} (cmp : Comparable c c') (fair : π.OneToOne)
variable (token : ∀ s ∈ caller.token, isSendable s = true) (stand : Stand π.documents id id')

include cmp fair token stand in
theorem allow_parallel (kind : Kind) :
    Parallel c c' π (Beside c c' π K) (allow caller id kind) (allow caller id' kind)
      fun _ _ w w' => (id, id') ∈ π.documents ∧ InStep c c' π w w' := by
  refine (documentFor_parallel kind cmp fair token stand).bind fun a b => .given fun alike => ?_
  refine .done fun w w' holds => ⟨?_, holds.1⟩
  have here : a.1.id = id := Repository.key_of_find holds.2.1
  have there : b.1.id = id' := (stand _ alike.1.paired).mp here
  exact here ▸ there ▸ alike.1.paired

variable {name : String} (listed : (id, id') ∈ π.documents)
variable (matched : Storage.Key.Matched id id' name)

include listed matched

theorem describe_parallel :
    Parallel c c' π (InStep c c' π) (describe (Storage.Key.ofAsset id name))
      (describe (Storage.Key.ofAsset id' name))
      (Parallel.Grown c c' (AssetInfo.Alike π) fun _ _ => π) := by
  refine Duo.Agrees.bind (Q := fun n n' w w' =>
    n' = n ∧ InStep c c' π w w' ∧ w.backend.driver = .local) ?_ fun n n' => .given ?_
  · refine Parallel.storing fun w w' step => ?_
    have twin := step.backend
    exact (twin.size step.fair listed matched).mono (fun _ _ h => ⟨h.1, step.filed twin, h.2⟩)
      fun _ _ h => ⟨h, step.filed twin⟩
  rintro rfl
  refine Duo.Agrees.bind (Q := fun url url' w w' =>
    (∃ base, url = base ++ Storage.Key.ofAsset id name ∧
      url' = base ++ Storage.Key.ofAsset id' name) ∧ InStep c c' π w w') ?_ fun url url' => .given ?_
  · refine Parallel.storing fun w w' holds => ?_
    have twin := holds.1.backend
    exact (twin.url matched holds.2).mono (fun _ _ h => ⟨h, holds.1.filed twin⟩)
      fun _ _ h => ⟨h, holds.1.filed twin⟩
  · exact fun based => .done fun _ _ step => ⟨⟨⟨id, id', name, listed, rfl, rfl⟩, based, rfl⟩, step⟩

end Assets

section Assets

variable {caller : Caller} {id id' : Int} (cmp : Comparable c c') (fair : π.OneToOne)
variable (token : ∀ s ∈ caller.token, isSendable s = true) (stand : Stand π.documents id id')
variable {name : String} (matched : Storage.Key.Matched id id' name)

include cmp fair token stand matched

theorem uploadAsset_parallel (content : Storage.Content) :
    Parallel c c' π (Beside c c' π K) (uploadAsset caller id name content)
      (uploadAsset caller id' name content)
      (Parallel.Grown c c' (AssetInfo.Alike π) fun _ _ => π) := by
  refine (allow_parallel cmp fair token stand .write).bind fun _ _ => .given fun listed => ?_
  refine Duo.Agrees.bind (Q := fun key key' w w' => (key = Storage.Key.ofAsset id name ∧
    key' = Storage.Key.ofAsset id' name) ∧ InStep c c' π w w') ?_ fun key key' => .given ?_
  · refine Parallel.storing fun w w' step => ?_
    obtain ⟨twin, met⟩ := step.backend.upload step.fair listed matched (c.staging w.uploads)
      (c'.staging w'.uploads) content
    exact met.mono (fun _ _ h => ⟨h, step.filed twin⟩) fun _ _ h => ⟨h, step.filed twin⟩
  rintro ⟨rfl, rfl⟩
  refine (describe_parallel listed matched).bind fun info info' => .given fun alike => ?_
  refine Duo.Agrees.bind (Q := fun _ _ => InStep c c' π) ?_ fun _ _ => ?_
  · exact Parallel.storing fun w w' step => .ok (step.filed step.backend)
  · exact Duo.Agrees.note.bind fun _ _ => .done fun _ _ step => ⟨alike, step⟩

theorem openAsset_parallel :
    Parallel c c' π (Beside c c' π K) (openAsset caller id name) (openAsset caller id' name)
      (Parallel.Grown c c' (fun a b => b = a) fun _ _ => π) := by
  refine (allow_parallel cmp fair token stand .read).bind fun _ _ => .given fun listed => ?_
  refine Parallel.storing fun w w' step => ?_
  have twin := step.backend
  exact (twin.open_ step.fair listed matched).mono (fun _ _ h => ⟨h, step.filed twin⟩)
    fun _ _ h => ⟨h, step.filed twin⟩

theorem assetUrl_parallel :
    Parallel c c' π (Beside c c' π K) (assetUrl caller id name) (assetUrl caller id' name)
      (Parallel.Grown c c' (AssetInfo.Alike π) fun _ _ => π) :=
  (allow_parallel cmp fair token stand .read).bind fun _ _ => .given fun listed =>
    describe_parallel listed matched

theorem deleteAsset_parallel :
    Parallel c c' π (Beside c c' π K) (deleteAsset caller id name) (deleteAsset caller id' name)
      (Parallel.Grown c c' (fun _ _ => True) fun _ _ => π) := by
  refine (allow_parallel cmp fair token stand .write).bind fun _ _ => .given fun listed => ?_
  refine Duo.Agrees.store (D := sides c c') (S := fun r r' v v' =>
    Meet (fun _ _ => True) Storage.Failure.Alike r r' ∧ InStep c c' π v v')
    (fun w w' step => ?_) fun r r' => .given fun met => ?_
  · obtain ⟨twin, met⟩ := step.backend.delete step.fair listed matched
    exact ⟨met, step.filed twin⟩
  · cases met with
    | ok _ => exact .done fun _ _ step => ⟨trivial, step⟩
    | @error e e' alike =>
      cases alike with
      | missing key key' => exact Duo.Agrees.note.after fun _ _ _ _ step => ⟨trivial, step⟩
      | badKey fault fault' => exact .fail fun _ _ step => ⟨rfl, step⟩
      | same =>
        cases e with
        | missing key => exact Duo.Agrees.note.after fun _ _ _ _ step => ⟨trivial, step⟩
        | _ => exact .fail fun _ _ step => ⟨rfl, step⟩

end Assets

/-- One operation under the numbers of each side. -/
inductive Operation.Renumbered (π : Pairing) : Operation → Operation → Prop where
  | ping : Renumbered π .ping .ping
  | createWorkspace (request : WorkspaceRequest) :
    Renumbered π (.createWorkspace request) (.createWorkspace request)
  | getWorkspace {id id' : Int} (stand : Stand π.workspaces id id') :
    Renumbered π (.getWorkspace id) (.getWorkspace id')
  | listWorkspaces (query : PageQuery) : Renumbered π (.listWorkspaces query) (.listWorkspaces query)
  | updateWorkspace {id id' : Int} (stand : Stand π.workspaces id id')
    (request : WorkspaceUpdate) :
    Renumbered π (.updateWorkspace id request) (.updateWorkspace id' request)
  | deleteWorkspace {id id' : Int} (stand : Stand π.workspaces id id') :
    Renumbered π (.deleteWorkspace id) (.deleteWorkspace id')
  | createDocument {id id' : Int} (stand : Stand π.workspaces id id')
    (request : DocumentRequest) :
    Renumbered π (.createDocument id request) (.createDocument id' request)
  | getDocument {id id' : Int} (stand : Stand π.documents id id') :
    Renumbered π (.getDocument id) (.getDocument id')
  | listDocuments {id id' : Int} (stand : Stand π.workspaces id id') (query : PageQuery) :
    Renumbered π (.listDocuments id query) (.listDocuments id' query)
  | updateDocument {id id' : Int} (stand : Stand π.documents id id') (request : DocumentUpdate) :
    Renumbered π (.updateDocument id request) (.updateDocument id' request)
  | deleteDocument {id id' : Int} (stand : Stand π.documents id id') :
    Renumbered π (.deleteDocument id) (.deleteDocument id')
  | createVersion {id id' : Int} (stand : Stand π.documents id id') (request : VersionRequest) :
    Renumbered π (.createVersion id request) (.createVersion id' request)
  | listVersions {id id' : Int} (stand : Stand π.documents id id') (query : PageQuery) :
    Renumbered π (.listVersions id query) (.listVersions id' query)
  | getVersion {id id' : Int} (stand : Stand π.documents id id') (number : Int) :
    Renumbered π (.getVersion id number) (.getVersion id' number)
  | shareDocument {id id' : Int} (stand : Stand π.documents id id') (request : ShareRequest) :
    Renumbered π (.shareDocument id request) (.shareDocument id' request)
  | listShares {id id' : Int} (stand : Stand π.documents id id') (query : PageQuery) :
    Renumbered π (.listShares id query) (.listShares id' query)
  | updateShare {id id' share share' : Int} (stand : Stand π.documents id id')
    (same : Stand π.shares share share') (request : ShareUpdate) :
    Renumbered π (.updateShare id share request) (.updateShare id' share' request)
  | revokeShare {id id' share share' : Int} (stand : Stand π.documents id id')
    (same : Stand π.shares share share') :
    Renumbered π (.revokeShare id share) (.revokeShare id' share')
  | uploadAsset {id id' : Int} (stand : Stand π.documents id id') (name : String)
    (content : Storage.Content) :
    Renumbered π (.uploadAsset id name content) (.uploadAsset id' name content)
  | openAsset {id id' : Int} (stand : Stand π.documents id id') (name : String) :
    Renumbered π (.openAsset id name) (.openAsset id' name)
  | assetUrl {id id' : Int} (stand : Stand π.documents id id') (name : String) :
    Renumbered π (.assetUrl id name) (.assetUrl id' name)
  | deleteAsset {id id' : Int} (stand : Stand π.documents id id') (name : String) :
    Renumbered π (.deleteAsset id name) (.deleteAsset id' name)

def Operation.expiry? : Operation → Option Instant
  | .shareDocument _ request => request.expiresAt
  | .updateShare _ _ request => request.expiresAt.bind fun t => t
  | _ => none

def Operation.asset? : Operation → Option (Int × String)
  | .uploadAsset id name _ | .openAsset id name | .assetUrl id name | .deleteAsset id name =>
    some (id, name)
  | _ => none

/-- What both services are asked for: one operation under the numbers of each of them, by a user with
a positive number, without NUL characters and with expiries of whole microseconds. -/
structure Asked (π : Pairing) (caller : Caller) (op op' : Operation) : Prop where
  renumbered : op.Renumbered π op'
  positive : ∀ user ∈ caller.user, 0 < user
  plain : op.Plain caller
  whole : ∀ t ∈ op.expiry?, t.Whole

/-- What is asked for looks alike from both sides: both clocks pass an expiry at the same reading,
and the keys of an attachment are both short enough or both too long. -/
structure Matching (c c' : Conditions) (op op' : Operation) : Prop where
  passed : ∀ t ∈ op.expiry?, Agreed c c' t
  keys : ∀ a ∈ op.asset?, ∀ b ∈ op'.asset?, Storage.Key.Matched a.1 b.1 a.2

/-- Answers that say the same under paired numbers, dates apart. -/
inductive Answer.Alike (π : Pairing) : Answer → Answer → Prop where
  | nothing : Alike π .nothing .nothing
  | workspace {a b : Workspace} (alike : a.Alike π b) : Alike π (.workspace a) (.workspace b)
  | workspaces {a b : Listing Workspace} (alike : Listing.Alike (Workspace.Alike π) a b) :
    Alike π (.workspaces a) (.workspaces b)
  | summary (s : CascadeSummary) : Alike π (.summary s) (.summary s)
  | detail {a b : DocumentDetail} (alike : a.Alike π b) : Alike π (.detail a) (.detail b)
  | document {a b : Document} (alike : a.Alike π b) : Alike π (.document a) (.document b)
  | documents {a b : Listing Document} (alike : Listing.Alike (Document.Alike π) a b) :
    Alike π (.documents a) (.documents b)
  | version {a b : Version} (alike : a.Alike π b) : Alike π (.version a) (.version b)
  | versions {a b : Listing Version} (alike : Listing.Alike (Version.Alike π) a b) :
    Alike π (.versions a) (.versions b)
  | share {a b : Share} (alike : a.Alike π b) : Alike π (.share a) (.share b)
  | shares {a b : Listing Share} (alike : Listing.Alike (Share.Alike π) a b) :
    Alike π (.shares a) (.shares b)
  | asset {a b : AssetInfo} (alike : a.Alike π b) : Alike π (.asset a) (.asset b)
  | content (bytes : Except Storage.Failure Storage.Bytes) :
    Alike π (.content bytes) (.content bytes)

def Operation.extend (op : Operation) (π : Pairing) (r r' : Except Failure Answer) : Pairing :=
  match op, r, r' with
  | .createWorkspace _, .ok (.workspace a), .ok (.workspace b) => π.addWorkspace a b
  | .createDocument _ _, .ok (.detail a), .ok (.detail b) => paired π a b
  | .createVersion _ _, .ok (.version a), .ok (.version b) => π.addVersion a b
  | .shareDocument _ _, .ok (.share a), .ok (.share b) => π.addShare a b
  | _, _, _ => π

abbrev Replied (c c' : Conditions) (π : Pairing) (op : Operation) :
    Answer → Answer → Bond Memory Relational :=
  Parallel.Grown c c' (fun a b => a.Alike (op.extend π (.ok a) (.ok b)) b) fun a b =>
    op.extend π (.ok a) (.ok b)

theorem Parallel.as {p p' : Program α} {P : Bond Memory Relational} {F : α → α → Prop}
    {G : α → α → Pairing} {op : Operation} {wrap : α → Answer}
    (h : Parallel c c' π P p p' (Parallel.Grown c c' F G))
    (made : ∀ a b, op.extend π (.ok (wrap a)) (.ok (wrap b)) = G a b)
    (alike : ∀ a b, F a b → (wrap a).Alike (G a b) (wrap b)) :
    Parallel c c' π P (p.as wrap) (p'.as wrap) (Replied c c' π op) := by
  refine h.bind fun a b => .done fun w w' holds => ?_
  simp only [Parallel.Grown, made]
  exact ⟨alike a b holds.1, holds.2⟩

theorem serve_parallel (cmp : Comparable c c') (fair : π.OneToOne) {caller : Caller}
    {op op' : Operation} (asked : Asked π caller op op') (matching : Matching c c' op op') :
    Parallel c c' π (Beside c c' π fun _ => True) (serve caller op) (serve caller op')
      (Replied c c' π op) := by
  obtain ⟨renumbered, positive, ⟨texts, token⟩, whole⟩ := asked
  have optional : ∀ {text : Option String}, (∀ t ∈ text.toList, isSendable t = true) →
      ∀ t ∈ text, isSendable t = true := fun sendable t given =>
    sendable t (Option.mem_toList.mpr given)
  cases renumbered with
  | ping =>
    refine Parallel.as (F := fun _ _ => True) (G := fun _ _ => π) ?_ (fun _ _ => rfl)
      fun _ _ _ => .nothing
    exact (Parallel.query_same (f := fun _ => ()) (g := fun _ => ()) cmp (fun _ => rfl)
      (fun _ => rfl) (List.forall_mem_nil _) fun _ _ _ => rfl).after
      fun _ _ _ _ h => ⟨trivial, h.2.1⟩
  | createWorkspace request =>
    exact (createWorkspace_parallel cmp positive (texts _ (List.mem_cons_self ..))
      (optional fun t ht => texts t (List.mem_cons_of_mem _ ht))).as (fun _ _ => rfl)
      fun _ _ => .workspace
  | getWorkspace stand =>
    refine Parallel.as (F := Workspace.Alike π) (G := fun _ _ => π) ?_ (fun _ _ => rfl)
      fun _ _ => .workspace
    exact (workspaceFor_parallel .read cmp stand).after fun _ _ _ _ h => ⟨h.1.1, h.2.1⟩
  | listWorkspaces query =>
    exact (listWorkspaces_parallel cmp query).as (fun _ _ => rfl) fun _ _ => .workspaces
  | updateWorkspace stand request =>
    exact (updateWorkspace_parallel cmp stand
      (optional fun t ht => texts t (List.mem_append_left _ ht))
      (optional fun t ht => texts t (List.mem_append_right _ ht))).as (fun _ _ => rfl)
      fun _ _ => .workspace
  | deleteWorkspace stand =>
    refine (deleteWorkspace_parallel cmp stand).as (fun _ _ => rfl) ?_
    rintro _ _ rfl
    exact .summary _
  | createDocument stand request =>
    exact (createDocument_parallel cmp fair stand (texts _ (List.mem_cons_self ..))
      (optional fun t ht => texts t (List.mem_cons_of_mem _ ht))).as (fun _ _ => rfl)
      fun _ _ => .detail
  | getDocument stand =>
    exact (getDocument_parallel cmp fair token stand).as (fun _ _ => rfl) fun _ _ => .detail
  | listDocuments stand query =>
    exact (listDocuments_parallel cmp fair stand query).as (fun _ _ => rfl) fun _ _ => .documents
  | updateDocument stand request =>
    exact (updateDocument_parallel cmp fair token stand (optional texts)).as (fun _ _ => rfl)
      fun _ _ => .document
  | deleteDocument stand =>
    refine (deleteDocument_parallel cmp fair token stand).as (fun _ _ => rfl) ?_
    rintro _ _ rfl
    exact .summary _
  | createVersion stand request =>
    exact (createVersion_parallel cmp fair token stand positive (texts _ (List.mem_cons_self ..))
      (optional fun t ht => texts t (List.mem_cons_of_mem _ ht))).as (fun _ _ => rfl)
      fun _ _ => .version
  | listVersions stand query =>
    exact (listVersions_parallel cmp fair token stand query).as (fun _ _ => rfl)
      fun _ _ => .versions
  | getVersion stand number =>
    exact (getVersion_parallel cmp fair token stand number).as (fun _ _ => rfl)
      fun _ _ => .version
  | shareDocument stand request =>
    exact (shareDocument_parallel cmp fair token stand whole matching.passed).as (fun _ _ => rfl)
      fun _ _ => .share
  | listShares stand query =>
    exact (listShares_parallel cmp fair token stand query).as (fun _ _ => rfl) fun _ _ => .shares
  | updateShare stand same request =>
    have given : ∀ t ∈ request.expiresAt, ∀ at_ ∈ t, at_ ∈ request.expiresAt.bind fun t => t :=
      fun t ht at_ there => Option.bind_eq_some_iff.mpr ⟨t, ht, there⟩
    exact (updateShare_parallel cmp fair token stand same
      (fun t ht at_ there => whole at_ (given t ht at_ there))
      fun t ht at_ there => matching.passed at_ (given t ht at_ there)).as (fun _ _ => rfl)
      fun _ _ => .share
  | revokeShare stand same =>
    exact (revokeShare_parallel cmp fair token stand same).as (fun _ _ => rfl)
      fun _ _ _ => .nothing
  | uploadAsset stand name content =>
    exact (uploadAsset_parallel cmp fair token stand (matching.keys _ rfl _ rfl) content).as
      (fun _ _ => rfl) fun _ _ => .asset
  | openAsset stand name =>
    refine (openAsset_parallel cmp fair token stand (matching.keys _ rfl _ rfl)).as
      (fun _ _ => rfl) ?_
    rintro _ _ rfl
    exact .content _
  | assetUrl stand name =>
    exact (assetUrl_parallel cmp fair token stand (matching.keys _ rfl _ rfl)).as (fun _ _ => rfl)
      fun _ _ => .asset
  | deleteAsset stand name =>
    exact (deleteAsset_parallel cmp fair token stand (matching.keys _ rfl _ rfl)).as
      (fun _ _ => rfl) fun _ _ _ => .nothing

end DiagramShare.Service
