import DiagramShare.Proofs.Blind

/-! What no operation shows. A caller who is kept out of what lies behind a veil, whatever operation
the caller asks for, is answered as if the other store were there. An operation first finds its
target, and what it asks from then on stays with the target. -/
namespace DiagramShare.Service

open DiagramShare.Access
open DiagramShare.Repository (Memory Tables Over)
open DiagramShare.Time (Instant)

variable {V : Veil} {c : Conditions} {K : Tables → Prop} {w v : World Memory}
variable {caller : Caller} {kind : Kind} {id : Int}

structure SeenWorkspace (V : Veil) (kind : Kind) (ws : Workspace) : Prop where
  seen : V.shut ws.id = false
  own : kind ≠ .read → V.user = some ws.owner

structure SeenDocument (V : Veil) (kind : Kind) (id : Int) (d : Document) : Prop where
  number : d.id = id
  seen : V.closed d.id = false
  inside : V.shut d.workspace = false
  own : kind = .manage → ¬ V.secret d.id

theorem workspaceFor_seen (own : Veil.For V caller) {ws : Workspace} (numbered : w.store.Numbered)
    (hides : Over V w.store.tables)
    (out : ∀ now, Shown c w v now → KeptOut V caller w.store.tables now)
    (h : (workspaceFor caller id kind).Ends inMemory c w v (.ok ws)) :
    SeenWorkspace V kind ws ∧ ∀ row ∈ v.store.tables.workspaces, row.id = id → row = ws := by
  have same := (workspaceFor_only caller id kind).same h
  obtain ⟨u, row, found, h⟩ := ends_bind_ok.mp h
  have before := readings_le found
  obtain ⟨rfl, rfl, allowed⟩ := letThrough_ok h
  have there := found_row (g := fun t => t.workspace? id) (fun _ => rfl) found
  obtain ⟨stored, rfl, _⟩ := numbered.workspace_iff.mp there
  have shown : Shown c w { u with readings := u.readings + 1 } (c.clock u.readings) :=
    ⟨u.readings, before, Nat.lt_succ_self _, rfl⟩
  have mine : kind ≠ .read → V.user = some ws.owner := fun changing =>
    own.user.trans (authorize_workspace_allowed changing allowed)
  refine ⟨⟨?_, mine⟩, ?_⟩
  · by_contra shut
    have shut : V.shut ws.id = true := Bool.not_eq_false _ ▸ shut
    by_cases reading : kind = .read
    · exact (out _ shown).workspaces ws stored shut (reading ▸ allowed)
    · exact hides.foreign ws stored shut (mine reading)
  · intro row there number
    rw [same] at there
    exact Repository.eq_of_key numbered.workspaces there stored number

theorem entitled_read {shares : List Share} {now : Instant} {d : Document} {ws : Workspace}
    (entitled : Entitled shares caller kind now d ws) : Entitled shares caller .read now d ws := by
  rcases entitled with own | ⟨_, shown⟩ | ⟨s, stored, on, inForce, _⟩
  · exact .owner own
  · exact .visible rfl shown
  · exact .share s stored on inForce trivial

theorem documentFor_seen (own : Veil.For V caller) {d : Document} {ws : Workspace}
    (numbered : w.store.Numbered) (hides : Over V w.store.tables)
    (out : ∀ now, Shown c w v now → KeptOut V caller w.store.tables now)
    (h : (documentFor caller id kind).Ends inMemory c w v (.ok (d, ws))) :
    SeenDocument V kind id d ∧ V.shut ws.id = false := by
  obtain ⟨_, present, number, now, shown, entitled⟩ := documentFor_ok numbered h
  have seen : V.closed d.id = false := by
    by_contra closed
    have allowed : Allowed w.store.tables caller d.id .read now :=
      ⟨d, ws, present, rfl, entitled_read entitled⟩
    exact (out now shown).documents d.id (Bool.not_eq_false _ ▸ closed) allowed
  have inside : V.shut d.workspace = false := by
    rw [← hides.inside d present.document, seen]
  refine ⟨⟨number, seen, inside, ?_⟩, present.inside ▸ inside⟩
  · rintro rfl secret
    obtain ⟨e, storedE, vs, storedV, same, placed, foreign⟩ := hides.others d.id secret
    obtain rfl := Repository.eq_of_key numbered.documents storedE present.document same
    obtain rfl := Repository.eq_of_key numbered.workspaces storedV present.workspace
      (placed.symm.trans present.inside)
    exact foreign (own.user.trans (entitled_manage entitled))

theorem workspaceFor_guarded {f : Workspace → Program β} (own : Veil.For V caller)
    (rest : ∀ ws, SeenWorkspace V kind ws →
      (f ws).Blind V c fun t => ∀ row ∈ t.workspaces, row.id = id → row = ws) :
    (workspaceFor caller id kind >>= f).Guarded V c caller := by
  refine .of_admission workspaceFor_veiled ?_ fun ws => .given (rest ws)
  intro w v a b numbered hides out ends row
  have seen := workspaceFor_seen own numbered hides out ends
  exact ⟨row.eq seen.1.seen, seen⟩

theorem documentFor_guarded {f : Document × Workspace → Program β} (own : Veil.For V caller)
    (rest : ∀ d ws, SeenDocument V kind id d → (f (d, ws)).Blind V c anywhere) :
    (documentFor caller id kind >>= f).Guarded V c caller := by
  refine .of_admission (documentFor_veiled own) ?_ fun a => .given (rest a.1 a.2)
  intro w v a b numbered hides out ends row
  obtain ⟨seen, inside⟩ := documentFor_seen own numbered hides out ends
  exact ⟨Prod.ext (row.1.eq seen.seen) (row.2.eq inside), seen, trivial⟩

theorem userOf_blind {f : Int → Program β}
    (rest : ∀ user, caller.user = some user → (f user).Blind V c K) :
    (userOf caller >>= f).Blind V c K := by
  unfold userOf
  cases shown : caller.user with
  | none => exact .fail _
  | some user => exact rest user shown

theorem createWorkspace_blind (own : Veil.For V caller) (request : WorkspaceRequest) :
    (createWorkspace caller request).Blind V c K := by
  refine userOf_blind fun owner user => ?_
  have mine : V.user = some owner := own.user.trans user
  refine .bind (.obey _) fun name => ?_
  refine .bind (.obey _) fun description => ?_
  refine .bind (.query fun _ _ => trivial) fun _ => ?_
  refine .bind (.query fun _ _ => mine) fun taken => ?_
  refine .bind (.refuseIf _ _) fun _ => ?_
  refine .bind (.query fun _ _ => mine) fun row => ?_
  exact .bind (.note _ _) fun _ => .done row

theorem listWorkspaces_blind (own : Veil.For V caller) (query : PageQuery) :
    (listWorkspaces caller query).Blind V c K := by
  refine userOf_blind fun owner user => ?_
  have mine : V.user = some owner := own.user.trans user
  refine .bind (.query fun _ _ => mine) fun data => ?_
  exact .bind (.query fun _ _ => mine) fun total => .done _

theorem freeName_blind {ws : Workspace} (mine : V.user = some ws.owner) (id : Int)
    (name : Option String) : (freeName ws id name).Blind V c K := by
  cases name with
  | none => exact .done ()
  | some name =>
    simp only [freeName]
    split
    · exact .done ()
    · exact .bind (.query fun _ _ => mine) fun taken => .refuseIf _ _

theorem updateWorkspace_guarded (own : Veil.For V caller) (id : Int) (request : WorkspaceUpdate) :
    (updateWorkspace caller id request).Guarded V c caller := by
  refine workspaceFor_guarded own fun ws seen => ?_
  have mine : V.user = some ws.owner := seen.own (by decide)
  refine .andThen (.obey _) (.obey _) fun name => ?_
  refine .andThen (.obey _) (.obey _) fun description => ?_
  refine .andThen (freeName_blind mine _ _) (freeName_only _ _ _).keepsRows fun _ => ?_
  refine .lookUp fun t rows row stored number => ?_
  rw [rows row stored number]
  exact mine

theorem deleteWorkspace_guarded (own : Veil.For V caller) (id : Int) :
    (deleteWorkspace caller id).Guarded V c caller := by
  refine workspaceFor_guarded own fun _ _ => ?_
  refine .bind .clock fun now => ?_
  refine .bind (.lookUp fun _ _ => trivial) fun summary => ?_
  exact .bind (.note _ _) fun _ => .done summary

theorem freeSlug_blind {workspace : Int} (seen : V.shut workspace = false) (slug : String)
    (except : Option Int) : (freeSlug workspace slug except).Blind V c K :=
  .bind (.query fun _ _ => seen) fun _ => .refuseIf _ _

theorem createDocument_guarded (own : Veil.For V caller) (workspace : Int)
    (request : DocumentRequest) : (createDocument caller workspace request).Guarded V c caller := by
  refine workspaceFor_guarded own fun ws seen => ?_
  refine .bind (.obey _) fun title => ?_
  refine .bind (.obey _) fun slug => ?_
  refine .bind (freeSlug_blind seen.seen _ _) fun _ => ?_
  refine .bind (.query fun _ _ => seen.seen) fun stored => ?_
  exact .bind (.note _ _) fun _ => .done _

theorem getDocument_guarded (own : Veil.For V caller) (id : Int) :
    (getDocument caller id).Guarded V c caller := by
  refine documentFor_guarded own fun d _ seen => ?_
  exact .bind (.query fun _ _ => seen.seen) fun version => .done _

theorem listDocuments_guarded (own : Veil.For V caller) (workspace : Int) (query : PageQuery) :
    (listDocuments caller workspace query).Guarded V c caller := by
  refine workspaceFor_guarded own fun ws seen => ?_
  refine .bind (.query fun _ _ => seen.seen) fun data => ?_
  exact .bind (.query fun _ _ => seen.seen) fun total => .done _

theorem freeNewSlug_blind {d : Document} (inside : V.shut d.workspace = false) (id : Int)
    (slug : Option String) : (freeNewSlug d id slug).Blind V c K := by
  cases slug with
  | none => exact .done ()
  | some slug =>
    simp only [freeNewSlug]
    split
    · exact .done ()
    · exact freeSlug_blind inside _ _

theorem updateDocument_guarded (own : Veil.For V caller) (id : Int) (request : DocumentUpdate) :
    (updateDocument caller id request).Guarded V c caller := by
  refine documentFor_guarded own fun d _ seen => ?_
  refine .bind (.obey _) fun title => ?_
  refine .bind (.obey _) fun slug => ?_
  refine .bind (freeNewSlug_blind seen.inside _ _) fun _ => ?_
  exact .lookUp fun _ _ => seen.number ▸ seen.seen

theorem deleteDocument_guarded (own : Veil.For V caller) (id : Int) :
    (deleteDocument caller id).Guarded V c caller := by
  refine documentFor_guarded own fun _ _ _ => ?_
  refine .bind .clock fun now => ?_
  refine .bind (.lookUp fun _ _ => trivial) fun summary => ?_
  exact .bind (.note _ _) fun _ => .done summary

theorem ensureAuthor_blind (caller : Caller) : (ensureAuthor caller).Blind V c K := by
  unfold ensureAuthor
  split
  · exact .query fun _ _ => trivial
  · exact .done ()

theorem createVersion_guarded (own : Veil.For V caller) (document : Int)
    (request : VersionRequest) : (createVersion caller document request).Guarded V c caller := by
  refine documentFor_guarded own fun d _ seen => ?_
  refine .bind (.obey _) fun note => ?_
  refine .bind (ensureAuthor_blind _) fun _ => ?_
  exact .lookUp fun _ _ => seen.seen

theorem listVersions_guarded (own : Veil.For V caller) (document : Int) (query : PageQuery) :
    (listVersions caller document query).Guarded V c caller := by
  refine documentFor_guarded own fun d _ seen => ?_
  refine .bind (.query fun _ _ => seen.seen) fun data => ?_
  exact .bind (.query fun _ _ => seen.seen) fun total => .done _

theorem getVersion_guarded (own : Veil.For V caller) (document number : Int) :
    (getVersion caller document number).Guarded V c caller := by
  refine documentFor_guarded own fun d _ seen => ?_
  exact .lookUp fun _ _ => seen.seen

theorem requireUser_blind {d : Document} (seen : ¬ V.secret d.id) (ws : Workspace)
    (user : Option Int) : (requireUser d ws user).Blind V c K := by
  cases user with
  | none => exact .done ()
  | some user =>
    refine .bind (.obey _) fun _ => ?_
    refine .bind (.obey _) fun _ => ?_
    refine .bind (.query fun _ _ => trivial) fun _ => ?_
    exact .bind (.query fun _ _ => seen) fun held => .refuseIf _ _

theorem allocate_blind {document : Int} (seen : ¬ V.secret document) (request : ShareRequest)
    (attempt left : Nat) : (allocate document request attempt left).Blind V c K := by
  induction left generalizing attempt K with
  | zero => exact .fail _
  | succ left ih =>
    refine .drawing fun token known => ?_
    refine .ask (fun _ _ => ⟨seen, known⟩) fun r => ?_
    cases r with
    | ok s => exact .bind (.note _ _) fun _ => .done s
    | error e =>
      cases e with
      | duplicate index =>
        dsimp only
        split
        · exact .bind (.note _ _) fun _ => ih (attempt + 1)
        · exact .fail _
      | _ => exact .fail _

theorem shareDocument_guarded (own : Veil.For V caller) (document : Int) (request : ShareRequest) :
    (shareDocument caller document request).Guarded V c caller := by
  refine documentFor_guarded own fun d ws seen => ?_
  refine .bind .clock fun now => ?_
  refine .bind (.obey _) fun _ => ?_
  refine .bind (requireUser_blind (seen.own rfl) _ _) fun _ => ?_
  exact allocate_blind (seen.own rfl) _ _ _

theorem listShares_guarded (own : Veil.For V caller) (document : Int) (query : PageQuery) :
    (listShares caller document query).Guarded V c caller := by
  refine documentFor_guarded own fun d _ seen => ?_
  refine .bind (.query fun _ _ => seen.own rfl) fun data => ?_
  exact .bind (.query fun _ _ => seen.own rfl) fun total => .done _

theorem shareOf_blind {document share : Int} (seen : ¬ V.secret document) :
    (shareOf document share).Blind V c anywhere := by
  refine Duo.Agrees.bind (Q := fun a b w w' => a.Veiled V b ∧ Behind V c anywhere w w') ?_
    fun s s' => .given fun row => ?_
  · refine Alongside.ask (S := Meet (Share.Veiled V) fun e e' => e = e') (fun e => .error rfl) ?_
      (fun _ _ => trivial) fun r r' met => ?_
    · intro now m m' veiled _ _ _
      exact ⟨meet_orNotFound (veiled.tables.share share), veiled, trivial⟩
    · cases met with
      | ok row => exact .done fun _ _ h => ⟨row, h⟩
      | error same =>
        cases same
        exact .fail fun _ _ h => ⟨rfl, h.1⟩
  · rw [row.document]
    split
    · rename_i on
      exact .done fun _ _ h => ⟨row.eq (on ▸ seen), h.1⟩
    · exact .fail fun _ _ h => ⟨rfl, h.1⟩

theorem updateShare_guarded (own : Veil.For V caller) (document share : Int)
    (request : ShareUpdate) : (updateShare caller document share request).Guarded V c caller := by
  refine documentFor_guarded own fun d _ seen => ?_
  have visible : ¬ V.secret document := seen.number ▸ seen.own rfl
  refine .learn (F := fun s t => t.share? s.id = some s ∧ s.document = document)
    (shareOf_blind visible) ?_ fun s => ?_
  · intro w v s _ ends
    obtain ⟨same, found, on⟩ := shareOf_ok ends
    obtain rfl := Repository.key_of_find found
    exact ⟨same ▸ found, on⟩
  · refine .andThen .clock .clock fun now => ?_
    refine .andThen (.obey _) (.obey _) fun _ => ?_
    refine .lookUp fun t there row found => ?_
    obtain rfl := Option.some.inj (there.1.symm.trans found)
    exact there.2 ▸ visible

theorem revokeShare_guarded (own : Veil.For V caller) (document share : Int) :
    (revokeShare caller document share).Guarded V c caller := by
  refine documentFor_guarded own fun d _ seen => ?_
  refine .bind (shareOf_blind (seen.number ▸ seen.own rfl)) fun s => ?_
  refine .bind .clock fun now => ?_
  refine .bind (.lookUp fun _ _ => trivial) fun _ => ?_
  exact .note _ _

theorem allow_blind (own : Veil.For V caller) (document : Int) (kind : Kind) :
    (allow caller document kind).Blind V c anywhere :=
  Duo.Agrees.bind (documentFor_veiled own) fun _ _ => .done fun _ _ h => ⟨rfl, h.2⟩

theorem describe_blind (key : String) : (describe key).Blind V c K :=
  .bind (.storing _) fun _ => .bind (.storing _) fun _ => .done _

theorem uploadAsset_blind (own : Veil.For V caller) (document : Int) (name : String)
    (content : Storage.Content) :
    (uploadAsset caller document name content).Blind V c anywhere := by
  refine .bind (allow_blind own _ _) fun _ => ?_
  refine .bind (.storing _) fun key => ?_
  refine .bind (describe_blind _) fun info => ?_
  refine .bind (.storing _) fun driver => ?_
  exact .bind (.note _ _) fun _ => .done info

theorem openAsset_blind (own : Veil.For V caller) (document : Int) (name : String) :
    (openAsset caller document name).Blind V c anywhere :=
  .bind (allow_blind own _ _) fun _ => .storing _

theorem assetUrl_blind (own : Veil.For V caller) (document : Int) (name : String) :
    (assetUrl caller document name).Blind V c anywhere :=
  .bind (allow_blind own _ _) fun _ => describe_blind _

theorem deleteAsset_blind (own : Veil.For V caller) (document : Int) (name : String) :
    (deleteAsset caller document name).Blind V c anywhere := by
  refine .bind (allow_blind own _ _) fun _ => .store fun r => ?_
  split
  · exact .done ()
  · exact .note _ _
  · exact .fail _

theorem ping_blind : ping.Blind V c K := .query fun _ _ => trivial

theorem serve_guarded (own : Veil.For V caller) (op : Operation) :
    (serve caller op).Guarded V c caller := by
  cases op with
  | ping => exact .as ping_blind.guarded _
  | createWorkspace request => exact .as (createWorkspace_blind own _).guarded _
  | getWorkspace id => exact workspaceFor_guarded own fun ws _ => .done _
  | listWorkspaces query => exact .as (listWorkspaces_blind own _).guarded _
  | updateWorkspace id request => exact (updateWorkspace_guarded own _ _).as _
  | deleteWorkspace id => exact (deleteWorkspace_guarded own _).as _
  | createDocument workspace request => exact (createDocument_guarded own _ _).as _
  | getDocument id => exact (getDocument_guarded own _).as _
  | listDocuments workspace query => exact (listDocuments_guarded own _ _).as _
  | updateDocument id request => exact (updateDocument_guarded own _ _).as _
  | deleteDocument id => exact (deleteDocument_guarded own _).as _
  | createVersion document request => exact (createVersion_guarded own _ _).as _
  | listVersions document query => exact (listVersions_guarded own _ _).as _
  | getVersion document number => exact (getVersion_guarded own _ _).as _
  | shareDocument document request => exact (shareDocument_guarded own _ _).as _
  | listShares document query => exact (listShares_guarded own _ _).as _
  | updateShare document share request => exact (updateShare_guarded own _ _ _).as _
  | revokeShare document share => exact (revokeShare_guarded own _ _).as _
  | uploadAsset document name content => exact .as (uploadAsset_blind own _ _ _).guarded _
  | openAsset document name => exact .as (openAsset_blind own _ _).guarded _
  | assetUrl document name => exact .as (assetUrl_blind own _ _).guarded _
  | deleteAsset document name => exact .as (deleteAsset_blind own _ _).guarded _

end DiagramShare.Service
