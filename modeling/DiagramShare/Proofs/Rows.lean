import DiagramShare.Proofs.Keys
import DiagramShare.Proofs.Printed
import DiagramShare.Proofs.Results
import DiagramShare.Proofs.Timestamps
import DiagramShare.Records.Json

/-!
Rows that are written and read back. Every field of a row has its entry in the object that is
written, apart from a deletion time that is not there, and what is decoded from an entry is what
was written in it. Times that were themselves read are read as they are written.
-/
namespace DiagramShare.Json

open DiagramShare.Storage.Key (Fits64)

def Fits32 (k : Int) : Prop := -2147483648 ≤ k ∧ k ≤ 2147483647

theorem Number.isWhole_ofInt {n : Int} (fits : Fits64 n) : (Number.ofInt n).IsWhole := by
  obtain ⟨lo, hi⟩ := fits
  unfold Number.ofInt
  split
  · exact .natural (by simp only [Number.naturalEnd]; omega)
  · exact .negative lo (by omega)

theorem Fits32.fits64 {n : Int} (fits : Fits32 n) : Fits64 n := by
  simp only [Fits32, Fits64] at *
  omega

namespace Decode

open DiagramShare.Time (Instant)

structure Keeps (decode : Decoder α) (v : Value) (a : α) : Prop where
  plain : v.IsPlain
  reads : ∀ o, decode o v.reading = .ok a

theorem Keeps.ofText {decode : Decoder α} {v : Value} {a : α} (kept : Keeps decode v a) :
    ofText decode v.text = .ok a := by
  have read : Reading.ofSource (v.text.toList.map some) = (v.reading, some []) :=
    kept.plain.ofText_text
  simp only [Decode.ofText, ofSource, read, kept.reads .text]
  rfl

theorem ofSource_ok {decode : Decoder α} {s : Source} {a : α} (h : ofSource decode s = .ok a) :
    decode .text (Reading.ofSource s).1 = .ok a := by
  unfold ofSource at h
  generalize Reading.ofSource s = read at h ⊢
  obtain ⟨a', decoded, last⟩ := bind_ok h
  split at last
  · cases last
    exact decoded
  · cases last

theorem integer_ofInt {lo hi n : Int} (within : lo ≤ n ∧ n ≤ hi) (expected : String) (o : Origin) :
    integer lo hi expected o (Value.int n).reading = .ok n := by
  unfold Value.int Number.ofInt
  split
  · rename_i natural
    simp only [Value.reading, integer, integer.bounded, Int.toNat_of_nonneg natural,
      if_pos within]
  · simp only [Value.reading, integer, integer.bounded, if_pos within]

theorem keeps_int64 {n : Int} (fits : Fits64 n) : Keeps int64 (.int n) n :=
  ⟨.number (Number.isWhole_ofInt fits), integer_ofInt fits _⟩

theorem keeps_int32 {n : Int} (fits : Fits32 n) : Keeps int32 (.int n) n :=
  ⟨.number (Number.isWhole_ofInt fits.fits64), integer_ofInt fits _⟩

theorem keeps_string (s : String) : Keeps string (.string s) s :=
  ⟨.string s, fun _ => rfl⟩

theorem keeps_boolean (b : Bool) : Keeps boolean (.boolean b) b :=
  ⟨.boolean b, fun _ => rfl⟩

def Settled (t : Instant) : Prop := Instant.ofText? t.toText = some t

instance (t : Instant) : Decidable (Settled t) := inferInstanceAs (Decidable (_ = _))

theorem keeps_instant {t : Instant} (settled : Settled t) : Keeps instant (writeInstant t) t := by
  refine ⟨.string _, fun o => ?_⟩
  rw [Settled] at settled
  simp only [writeInstant, Value.reading, instant, settled]

theorem settled_of_instant {o : Origin} {r : Reading} {t : Instant} (h : instant o r = .ok t) :
    Settled t := by
  unfold instant at h
  split at h
  · split at h
    · rename_i read
      cases h
      exact Instant.ofText?_toText (Instant.isReal_of_ofText? read)
    · cases h
  · unfold reject at h
    split at h <;> cases h

theorem keeps_kind (k : DocumentKind) : Keeps DocumentKind.decode (.string k.name) k :=
  ⟨.string _, fun _ => by cases k <;> rfl⟩

theorem keeps_permission (p : Permission) : Keeps Permission.decode (.string p.name) p :=
  ⟨.string _, fun _ => by cases p <;> rfl⟩

theorem keeps_optional {decode : Decoder α} {write : α → Value} {x : Option α}
    (each : ∀ a ∈ x, Keeps decode (write a) a) (present : ∀ a, (write a).reading ≠ .null) :
    Keeps (nullable decode) (.optional write x) x := by
  cases x with
  | none => exact ⟨.null, fun _ => rfl⟩
  | some a =>
    obtain ⟨plain, reads⟩ := each a rfl
    refine ⟨plain, fun o => ?_⟩
    change nullable decode o (write a).reading = _
    unfold nullable
    split
    · rename_i null
      exact absurd null (present a)
    · rw [reads]
      rfl

inductive Written : List Field → List (String × Value) → Prop
  | nil : Written [] []
  | entry {f : Field} {v : Value} {fields : List Field} {es : List (String × Value)}
      (plain : v.IsPlain) (checked : ∀ o, f.check o v.reading = .ok ())
      (more : Written fields es) : Written (f :: fields) ((f.name, v) :: es)
  | leftOut {f : Field} {fields : List Field} {es : List (String × Value)}
      (more : Written fields es) : Written (f :: fields) es

theorem Written.kept {name : String} {decode : Decoder α} {v : Value} {a : α}
    {fields : List Field} {es : List (String × Value)} (kept : Keeps decode v a)
    (more : Written fields es) : Written (field name decode :: fields) ((name, v) :: es) := by
  refine .entry kept.plain (fun o => ?_) more
  simp only [field, kept.reads o]
  rfl

theorem Written.plain {fields : List Field} {es : List (String × Value)}
    (written : Written fields es) : (Value.object es).IsPlain := by
  refine .object ?_
  induction written with
  | nil => exact fun e he => nomatch he
  | entry plain _ _ ih =>
    intro e he
    rcases List.mem_cons.mp he with rfl | he
    · exact plain
    · exact ih e he
  | leftOut _ ih => exact ih

def readings (es : List (String × Value)) : List (String × Reading) :=
  es.map fun e => (e.1, e.2.reading)

theorem find?_name {fields : List Field} (distinct : (fields.map Field.name).Nodup) {f : Field}
    (among : f ∈ fields) : fields.find? (fun g => g.name == f.name) = some f := by
  induction fields with
  | nil => cases among
  | cons g fields ih =>
    rw [List.map_cons, List.nodup_cons] at distinct
    rcases List.mem_cons.mp among with rfl | among
    · simp
    · have other : (g.name == f.name) = false := by
        rw [beq_eq_false_iff_ne]
        intro same
        exact distinct.1 (same ▸ List.mem_map_of_mem among)
      rw [List.find?_cons, other, ih distinct.2 among]

theorem entries_eq {shape : Shape} (distinct : (shape.fields.map Field.name).Nodup) (o : Origin)
    {fields : List Field} {es : List (String × Value)} (written : Written fields es)
    (among : ∀ f ∈ fields, f ∈ shape.fields) (seen : List String)
    (fresh : ∀ f ∈ fields, f.name ∉ seen) (apart : (fields.map Field.name).Nodup) :
    shape.entries o seen (Value.entryReadings es) = .ok (readings es) := by
  induction written generalizing seen with
  | nil => rfl
  | @entry f v fields es plain checked more ih =>
    rw [List.map_cons, List.nodup_cons] at apart
    have known := find?_name distinct (among f List.mem_cons_self)
    have unseen : seen.contains f.name = false := by
      simpa using fresh f List.mem_cons_self
    have later : ∀ g ∈ fields, g.name ∉ f.name :: seen := by
      intro g hg
      rw [List.mem_cons, not_or]
      refine ⟨fun same => apart.1 (same ▸ List.mem_map_of_mem hg), ?_⟩
      exact fresh g (List.mem_cons_of_mem f hg)
    have others := ih (fun g hg => among g (List.mem_cons_of_mem f hg)) (f.name :: seen) later
      apart.2
    simp only [Value.entryReadings, Value.entryReading, Shape.entries, known, unseen, checked o,
      others]
    rfl
  | leftOut more ih =>
    rw [List.map_cons, List.nodup_cons] at apart
    exact ih (fun g hg => among g (List.mem_cons_of_mem _ hg)) seen
      (fun g hg => fresh g (List.mem_cons_of_mem _ hg)) apart.2

theorem parts_eq {shape : Shape} (distinct : (shape.fields.map Field.name).Nodup)
    {es : List (String × Value)} (written : Written shape.fields es) (o : Origin) :
    shape.parts o (Value.object es).reading = .ok ⟨o, readings es⟩ := by
  have entries := entries_eq distinct o written (fun _ hf => hf) []
    (fun _ _ => List.not_mem_nil) distinct
  simp only [Value.reading, Shape.parts, entries]
  rfl

theorem required_eq_ok {parts : Parts} {name : String} {decode : Decoder α} {a : α} :
    parts.required name decode = .ok a ↔
      ∃ r, parts.value? name = some r ∧ decode parts.origin r = .ok a := by
  unfold Parts.required
  cases parts.value? name <;> simp [mapError_ok]

theorem optional_eq_ok {parts : Parts} {name : String} {decode : Decoder α} {x : Option α} :
    parts.optional name decode = .ok x ↔
      (parts.value? name = none ∧ x = none) ∨
        ∃ r, parts.value? name = some r ∧ nullable decode parts.origin r = .ok x := by
  unfold Parts.optional
  cases parts.value? name with
  | none => simp [eq_comm]
  | some r => simp [mapError_ok]

theorem integer_within {lo hi n : Int} {expected : String} {o : Origin} {r : Reading}
    (h : integer lo hi expected o r = .ok n) : lo ≤ n ∧ n ≤ hi := by
  have bounded : ∀ {k : Int}, integer.bounded lo hi expected k = .ok n → lo ≤ n ∧ n ≤ hi := by
    intro k h
    unfold integer.bounded at h
    split at h
    · cases h
      assumption
    · cases h
  unfold integer at h
  split at h
  · exact bounded h
  · exact bounded h
  · unfold reject at h
    split at h <;> cases h

theorem required_all {parts : Parts} {name : String} {decode : Decoder α} {P : α → Prop} {a : α}
    (each : ∀ {o r b}, decode o r = .ok b → P b) (h : parts.required name decode = .ok a) :
    P a := by
  obtain ⟨r, -, read⟩ := required_eq_ok.mp h
  exact each read

theorem optional_all {parts : Parts} {name : String} {decode : Decoder α} {P : α → Prop}
    {x : Option α} (each : ∀ {o r b}, decode o r = .ok b → P b)
    (h : parts.optional name decode = .ok x) : ∀ a ∈ x, P a := by
  rcases optional_eq_ok.mp h with ⟨-, rfl⟩ | ⟨r, -, read⟩
  · exact nofun
  · unfold nullable at read
    split at read
    · cases read
      exact nofun
    · obtain ⟨b, decoded, rfl⟩ := map_eq_ok.mp read
      rintro _ ⟨⟩
      exact each decoded

theorem required_fits64 {parts : Parts} {name : String} {n : Int}
    (h : parts.required name int64 = .ok n) : Fits64 n :=
  required_all integer_within h

theorem required_fits32 {parts : Parts} {name : String} {n : Int}
    (h : parts.required name int32 = .ok n) : Fits32 n :=
  required_all integer_within h

theorem optional_fits64 {parts : Parts} {name : String} {x : Option Int}
    (h : parts.optional name int64 = .ok x) : ∀ n ∈ x, Fits64 n :=
  optional_all integer_within h

theorem required_settled {parts : Parts} {name : String} {t : Instant}
    (h : parts.required name instant = .ok t) : Settled t :=
  required_all settled_of_instant h

theorem optional_settled {parts : Parts} {name : String} {x : Option Instant}
    (h : parts.optional name instant = .ok x) : ∀ t ∈ x.toList, Settled t := by
  intro t ht
  exact optional_all settled_of_instant h t (Option.mem_toList.mp ht)

theorem required_kept {parts : Parts} {name : String} {decode : Decoder α} {v : Value} {a : α}
    (kept : Keeps decode v a) (there : parts.value? name = some v.reading) :
    parts.required name decode = .ok a :=
  required_eq_ok.mpr ⟨_, there, kept.reads _⟩

theorem optional_kept {parts : Parts} {name : String} {decode : Decoder α} {v : Value}
    {x : Option α} (kept : Keeps (nullable decode) v x)
    (there : parts.value? name = some v.reading) : parts.optional name decode = .ok x :=
  optional_eq_ok.mpr (.inr ⟨_, there, kept.reads _⟩)

end Decode

end DiagramShare.Json

namespace DiagramShare

open DiagramShare.Json DiagramShare.Json.Decode
open DiagramShare.Storage.Key (Fits64)
open DiagramShare.Time (Instant)

theorem keeps_text (x : Option String) : Keeps (nullable string) (.optional .string x) x :=
  keeps_optional (fun s _ => keeps_string s) (fun _ => nofun)

theorem keeps_key {x : Option Int} (fits : ∀ n ∈ x, Fits64 n) :
    Keeps (nullable int64) (.optional .int x) x :=
  keeps_optional (fun n hn => keeps_int64 (fits n hn)) (fun _ => nofun)

theorem keeps_time {x : Option Instant} (settled : ∀ t ∈ x, Settled t) :
    Keeps (nullable instant) (.optional writeInstant x) x :=
  keeps_optional (fun t ht => keeps_instant (settled t ht)) (fun _ => nofun)

theorem written_deletion {x : Option Instant} (settled : ∀ t ∈ x, Settled t) :
    Written [field "deleted_at" (nullable instant)] (deletionEntry x) := by
  cases x with
  | none => exact .leftOut .nil
  | some t => exact .kept (keeps_time settled) .nil

theorem optional_deletion {parts : Parts} {x : Option Instant} (settled : ∀ t ∈ x, Settled t)
    (there : parts.value? "deleted_at" = x.map fun t => (writeInstant t).reading) :
    parts.optional "deleted_at" instant = .ok x := by
  cases x with
  | none => exact optional_eq_ok.mpr (.inl ⟨there, rfl⟩)
  | some t => exact optional_kept (keeps_time settled) there

namespace Workspace

structure ReadFrom (w : Workspace) (parts : Parts) : Prop where
  id : parts.required "id" int64 = .ok w.id
  name : parts.required "name" string = .ok w.name
  description : parts.optional "description" string = .ok w.description
  owner : parts.required "owner_id" int64 = .ok w.owner
  isPublic : parts.required "is_public" boolean = .ok w.isPublic
  createdAt : parts.required "created_at" instant = .ok w.createdAt
  updatedAt : parts.required "updated_at" instant = .ok w.updatedAt
  deletedAt : parts.optional "deleted_at" instant = .ok w.deletedAt

theorem decode_eq_ok {o : Origin} {r : Reading} {w : Workspace} :
    decode o r = .ok w ↔ ∃ parts, shape.parts o r = .ok parts ∧ w.ReadFrom parts := by
  simp only [decode, bind_eq_ok]
  constructor
  · rintro ⟨parts, found, id, h1, name, h2, description, h3, owner, h4, isPublic, h5, createdAt, h6,
      updatedAt, h7, deletedAt, h8, h⟩
    cases h
    exact ⟨parts, found, h1, h2, h3, h4, h5, h6, h7, h8⟩
  · rintro ⟨parts, found, h⟩
    exact ⟨parts, found, _, h.id, _, h.name, _, h.description, _, h.owner, _, h.isPublic, _,
      h.createdAt, _, h.updatedAt, _, h.deletedAt, rfl⟩

/-- Whether the integers of a workspace are those of its columns. -/
structure Fits (w : Workspace) : Prop where
  id : Fits64 w.id
  owner : Fits64 w.owner

def times (w : Workspace) : List Instant := w.createdAt :: w.updatedAt :: w.deletedAt.toList

theorem fits_of_decode {o : Origin} {r : Reading} {w : Workspace} (h : decode o r = .ok w) :
    w.Fits := by
  obtain ⟨parts, -, found⟩ := decode_eq_ok.mp h
  exact ⟨required_fits64 found.id, required_fits64 found.owner⟩

theorem settled_of_decode {o : Origin} {r : Reading} {w : Workspace} (h : decode o r = .ok w) :
    ∀ t ∈ w.times, Settled t := by
  obtain ⟨parts, -, found⟩ := decode_eq_ok.mp h
  exact List.forall_mem_cons.mpr ⟨required_settled found.createdAt,
    List.forall_mem_cons.mpr ⟨required_settled found.updatedAt, optional_settled found.deletedAt⟩⟩

theorem keeps {w : Workspace} (fits : w.Fits) (settled : ∀ t ∈ w.times, Settled t) :
    Keeps decode w.toValue w := by
  have created : Settled w.createdAt := settled _ (by simp [times])
  have updated : Settled w.updatedAt := settled _ (by simp [times])
  have deleted : ∀ t ∈ w.deletedAt, Settled t := fun t ht => settled t (by simp_all [times])
  have written : Written shape.fields _ :=
    .kept (keeps_int64 fits.id) <| .kept (keeps_string w.name) <|
    .kept (keeps_text w.description) <| .kept (keeps_int64 fits.owner) <|
    .kept (keeps_boolean w.isPublic) <| .kept (keeps_instant created) <|
    .kept (keeps_instant updated) <| written_deletion deleted
  refine ⟨written.plain, fun o => decode_eq_ok.mpr ⟨_, parts_eq (by decide) written o, ?_⟩⟩
  exact {
    id := required_kept (keeps_int64 fits.id) rfl
    name := required_kept (keeps_string _) rfl
    description := optional_kept (keeps_text _) rfl
    owner := required_kept (keeps_int64 fits.owner) rfl
    isPublic := required_kept (keeps_boolean _) rfl
    createdAt := required_kept (keeps_instant created) rfl
    updatedAt := required_kept (keeps_instant updated) rfl
    deletedAt := optional_deletion deleted (by cases w.deletedAt <;> rfl) }

end Workspace

namespace Document

structure ReadFrom (d : Document) (parts : Parts) : Prop where
  id : parts.required "id" int64 = .ok d.id
  workspace : parts.required "workspace_id" int64 = .ok d.workspace
  title : parts.required "title" string = .ok d.title
  kind : parts.required "type" DocumentKind.decode = .ok d.kind
  slug : parts.required "slug" string = .ok d.slug
  isPublic : parts.required "is_public" boolean = .ok d.isPublic
  createdAt : parts.required "created_at" instant = .ok d.createdAt
  updatedAt : parts.required "updated_at" instant = .ok d.updatedAt
  deletedAt : parts.optional "deleted_at" instant = .ok d.deletedAt

theorem decode_eq_ok {o : Origin} {r : Reading} {d : Document} :
    decode o r = .ok d ↔ ∃ parts, shape.parts o r = .ok parts ∧ d.ReadFrom parts := by
  simp only [decode, bind_eq_ok]
  constructor
  · rintro ⟨parts, found, id, h1, workspace, h2, title, h3, kind, h4, slug, h5, isPublic, h6,
      createdAt, h7, updatedAt, h8, deletedAt, h9, h⟩
    cases h
    exact ⟨parts, found, h1, h2, h3, h4, h5, h6, h7, h8, h9⟩
  · rintro ⟨parts, found, h⟩
    exact ⟨parts, found, _, h.id, _, h.workspace, _, h.title, _, h.kind, _, h.slug, _,
      h.isPublic, _, h.createdAt, _, h.updatedAt, _, h.deletedAt, rfl⟩

structure Fits (d : Document) : Prop where
  id : Fits64 d.id
  workspace : Fits64 d.workspace

def times (d : Document) : List Instant := d.createdAt :: d.updatedAt :: d.deletedAt.toList

theorem fits_of_decode {o : Origin} {r : Reading} {d : Document} (h : decode o r = .ok d) :
    d.Fits := by
  obtain ⟨parts, -, found⟩ := decode_eq_ok.mp h
  exact ⟨required_fits64 found.id, required_fits64 found.workspace⟩

theorem settled_of_decode {o : Origin} {r : Reading} {d : Document} (h : decode o r = .ok d) :
    ∀ t ∈ d.times, Settled t := by
  obtain ⟨parts, -, found⟩ := decode_eq_ok.mp h
  exact List.forall_mem_cons.mpr ⟨required_settled found.createdAt,
    List.forall_mem_cons.mpr ⟨required_settled found.updatedAt, optional_settled found.deletedAt⟩⟩

theorem keeps {d : Document} (fits : d.Fits) (settled : ∀ t ∈ d.times, Settled t) :
    Keeps decode d.toValue d := by
  have created : Settled d.createdAt := settled _ (by simp [times])
  have updated : Settled d.updatedAt := settled _ (by simp [times])
  have deleted : ∀ t ∈ d.deletedAt, Settled t := fun t ht => settled t (by simp_all [times])
  have written : Written shape.fields _ :=
    .kept (keeps_int64 fits.id) <| .kept (keeps_int64 fits.workspace) <|
    .kept (keeps_string d.title) <| .kept (keeps_kind d.kind) <| .kept (keeps_string d.slug) <|
    .kept (keeps_boolean d.isPublic) <| .kept (keeps_instant created) <|
    .kept (keeps_instant updated) <| written_deletion deleted
  refine ⟨written.plain, fun o => decode_eq_ok.mpr ⟨_, parts_eq (by decide) written o, ?_⟩⟩
  exact {
    id := required_kept (keeps_int64 fits.id) rfl
    workspace := required_kept (keeps_int64 fits.workspace) rfl
    title := required_kept (keeps_string _) rfl
    kind := required_kept (keeps_kind _) rfl
    slug := required_kept (keeps_string _) rfl
    isPublic := required_kept (keeps_boolean _) rfl
    createdAt := required_kept (keeps_instant created) rfl
    updatedAt := required_kept (keeps_instant updated) rfl
    deletedAt := optional_deletion deleted (by cases d.deletedAt <;> rfl) }

end Document

namespace Version

structure ReadFrom (v : Version) (parts : Parts) : Prop where
  id : parts.required "id" int64 = .ok v.id
  document : parts.required "document_id" int64 = .ok v.document
  content : parts.required "content" string = .ok v.content
  number : parts.required "version_number" int32 = .ok v.number
  author : parts.optional "author_id" int64 = .ok v.author
  note : parts.optional "change_description" string = .ok v.note
  createdAt : parts.required "created_at" instant = .ok v.createdAt

theorem decode_eq_ok {o : Origin} {r : Reading} {v : Version} :
    decode o r = .ok v ↔ ∃ parts, shape.parts o r = .ok parts ∧ v.ReadFrom parts := by
  simp only [decode, bind_eq_ok]
  constructor
  · rintro ⟨parts, found, id, h1, document, h2, content, h3, number, h4, author, h5, note, h6,
      createdAt, h7, h⟩
    cases h
    exact ⟨parts, found, h1, h2, h3, h4, h5, h6, h7⟩
  · rintro ⟨parts, found, h⟩
    exact ⟨parts, found, _, h.id, _, h.document, _, h.content, _, h.number, _, h.author, _,
      h.note, _, h.createdAt, rfl⟩

structure Fits (v : Version) : Prop where
  id : Fits64 v.id
  document : Fits64 v.document
  number : Fits32 v.number
  author : ∀ n ∈ v.author, Fits64 n

def times (v : Version) : List Instant := [v.createdAt]

theorem fits_of_decode {o : Origin} {r : Reading} {v : Version} (h : decode o r = .ok v) :
    v.Fits := by
  obtain ⟨parts, -, found⟩ := decode_eq_ok.mp h
  exact ⟨required_fits64 found.id, required_fits64 found.document, required_fits32 found.number,
    optional_fits64 found.author⟩

theorem settled_of_decode {o : Origin} {r : Reading} {v : Version} (h : decode o r = .ok v) :
    ∀ t ∈ v.times, Settled t := by
  obtain ⟨parts, -, found⟩ := decode_eq_ok.mp h
  exact List.forall_mem_singleton.mpr (required_settled found.createdAt)

theorem keeps {v : Version} (fits : v.Fits) (settled : ∀ t ∈ v.times, Settled t) :
    Keeps decode v.toValue v := by
  have created : Settled v.createdAt := settled _ (by simp [times])
  have written : Written shape.fields _ :=
    .kept (keeps_int64 fits.id) <| .kept (keeps_int64 fits.document) <|
    .kept (keeps_string v.content) <| .kept (keeps_int32 fits.number) <|
    .kept (keeps_key fits.author) <| .kept (keeps_text v.note) <|
    .kept (keeps_instant created) .nil
  refine ⟨written.plain, fun o => decode_eq_ok.mpr ⟨_, parts_eq (by decide) written o, ?_⟩⟩
  exact {
    id := required_kept (keeps_int64 fits.id) rfl
    document := required_kept (keeps_int64 fits.document) rfl
    content := required_kept (keeps_string _) rfl
    number := required_kept (keeps_int32 fits.number) rfl
    author := optional_kept (keeps_key fits.author) rfl
    note := optional_kept (keeps_text _) rfl
    createdAt := required_kept (keeps_instant created) rfl }

end Version

namespace Share

structure ReadFrom (s : Share) (parts : Parts) : Prop where
  id : parts.required "id" int64 = .ok s.id
  document : parts.required "document_id" int64 = .ok s.document
  user : parts.optional "user_id" int64 = .ok s.user
  token : parts.required "access_token" string = .ok s.token
  permission : parts.required "permission" Permission.decode = .ok s.permission
  expiresAt : parts.optional "expires_at" instant = .ok s.expiresAt
  createdAt : parts.required "created_at" instant = .ok s.createdAt
  updatedAt : parts.required "updated_at" instant = .ok s.updatedAt
  deletedAt : parts.optional "deleted_at" instant = .ok s.deletedAt

theorem decode_eq_ok {o : Origin} {r : Reading} {s : Share} :
    decode o r = .ok s ↔ ∃ parts, shape.parts o r = .ok parts ∧ s.ReadFrom parts := by
  simp only [decode, bind_eq_ok]
  constructor
  · rintro ⟨parts, found, id, h1, document, h2, user, h3, token, h4, permission, h5, expiresAt, h6,
      createdAt, h7, updatedAt, h8, deletedAt, h9, h⟩
    cases h
    exact ⟨parts, found, h1, h2, h3, h4, h5, h6, h7, h8, h9⟩
  · rintro ⟨parts, found, h⟩
    exact ⟨parts, found, _, h.id, _, h.document, _, h.user, _, h.token, _, h.permission, _,
      h.expiresAt, _, h.createdAt, _, h.updatedAt, _, h.deletedAt, rfl⟩

structure Fits (s : Share) : Prop where
  id : Fits64 s.id
  document : Fits64 s.document
  user : ∀ n ∈ s.user, Fits64 n

def times (s : Share) : List Instant :=
  s.createdAt :: s.updatedAt :: (s.expiresAt.toList ++ s.deletedAt.toList)

theorem fits_of_decode {o : Origin} {r : Reading} {s : Share} (h : decode o r = .ok s) :
    s.Fits := by
  obtain ⟨parts, -, found⟩ := decode_eq_ok.mp h
  exact ⟨required_fits64 found.id, required_fits64 found.document, optional_fits64 found.user⟩

theorem settled_of_decode {o : Origin} {r : Reading} {s : Share} (h : decode o r = .ok s) :
    ∀ t ∈ s.times, Settled t := by
  obtain ⟨parts, -, found⟩ := decode_eq_ok.mp h
  exact List.forall_mem_cons.mpr ⟨required_settled found.createdAt,
    List.forall_mem_cons.mpr ⟨required_settled found.updatedAt, List.forall_mem_append.mpr
      ⟨optional_settled found.expiresAt, optional_settled found.deletedAt⟩⟩⟩

theorem keeps {s : Share} (fits : s.Fits) (settled : ∀ t ∈ s.times, Settled t) :
    Keeps decode s.toValue s := by
  have created : Settled s.createdAt := settled _ (by simp [times])
  have updated : Settled s.updatedAt := settled _ (by simp [times])
  have expires : ∀ t ∈ s.expiresAt, Settled t := fun t ht => settled t (by simp_all [times])
  have deleted : ∀ t ∈ s.deletedAt, Settled t := fun t ht => settled t (by simp_all [times])
  have written : Written shape.fields _ :=
    .kept (keeps_int64 fits.id) <| .kept (keeps_int64 fits.document) <|
    .kept (keeps_key fits.user) <| .kept (keeps_string s.token) <|
    .kept (keeps_permission s.permission) <| .kept (keeps_time expires) <|
    .kept (keeps_instant created) <| .kept (keeps_instant updated) <| written_deletion deleted
  refine ⟨written.plain, fun o => decode_eq_ok.mpr ⟨_, parts_eq (by decide) written o, ?_⟩⟩
  exact {
    id := required_kept (keeps_int64 fits.id) rfl
    document := required_kept (keeps_int64 fits.document) rfl
    user := optional_kept (keeps_key fits.user) rfl
    token := required_kept (keeps_string _) rfl
    permission := required_kept (keeps_permission _) rfl
    expiresAt := optional_kept (keeps_time expires) rfl
    createdAt := required_kept (keeps_instant created) rfl
    updatedAt := required_kept (keeps_instant updated) rfl
    deletedAt := optional_deletion deleted (by cases s.deletedAt <;> rfl) }

end Share

/-- How rows of a table are written and read, which of them are of the types of its columns, and the
times that they hold. -/
structure RowFormat (α : Type) where
  write : α → Value
  decode : Decoder α
  Fits : α → Prop
  times : α → List Instant
  isLive : α → Bool

def Workspace.format : RowFormat Workspace := ⟨toValue, decode, Fits, times, isLive⟩
def Document.format : RowFormat Document := ⟨toValue, decode, Fits, times, isLive⟩
def Share.format : RowFormat Share := ⟨toValue, decode, Fits, times, isLive⟩

def Version.format : RowFormat Version := ⟨toValue, decode, Fits, times, fun _ => true⟩

namespace RowFormat

variable {α : Type} {f : RowFormat α}

/-- What is written of a row is read as the row: of any row whose times are read as they are
written, and of every row that was itself read from a text. -/
structure ReadsBack (f : RowFormat α) : Prop where
  written : ∀ a, f.Fits a → (∀ t ∈ f.times a, Settled t) →
    Decode.ofText f.decode (f.write a).text = .ok a
  accepted : ∀ (s : Source) a, Decode.ofSource f.decode s = .ok a →
    Decode.ofText f.decode (f.write a).text = .ok a
  deletion : ∀ a, (f.write a).field? "deleted_at" = none ↔ f.isLive a = true

theorem readsBack (fits : ∀ {o r a}, f.decode o r = .ok a → f.Fits a)
    (settled : ∀ {o r a}, f.decode o r = .ok a → ∀ t ∈ f.times a, Settled t)
    (keeps : ∀ {a}, f.Fits a → (∀ t ∈ f.times a, Settled t) → Keeps f.decode (f.write a) a)
    (deletion : ∀ a, (f.write a).field? "deleted_at" = none ↔ f.isLive a = true) :
    f.ReadsBack where
  written _ whole settled := (keeps whole settled).ofText
  accepted _ _ read := (keeps (fits (ofSource_ok read)) (settled (ofSource_ok read))).ofText
  deletion := deletion

end RowFormat

/-- Rows of every table are read as they are written, and their deletion time is written exactly if
they are deleted. -/
theorem rows_readBack : Workspace.format.ReadsBack ∧ Document.format.ReadsBack ∧
    Version.format.ReadsBack ∧ Share.format.ReadsBack := by
  refine ⟨RowFormat.readsBack Workspace.fits_of_decode Workspace.settled_of_decode Workspace.keeps
      fun w => ?_,
    RowFormat.readsBack Document.fits_of_decode Document.settled_of_decode Document.keeps fun d => ?_,
    RowFormat.readsBack Version.fits_of_decode Version.settled_of_decode Version.keeps fun v => ?_,
    RowFormat.readsBack Share.fits_of_decode Share.settled_of_decode Share.keeps fun s => ?_⟩
  · obtain ⟨_, _, _, _, _, _, _, deletedAt⟩ := w
    cases deletedAt <;> simp [Workspace.format, Workspace.toValue, Workspace.isLive, Value.field?,
      deletionEntry]
  · obtain ⟨_, _, _, _, _, _, _, _, deletedAt⟩ := d
    cases deletedAt <;> simp [Document.format, Document.toValue, Document.toEntries,
      Document.isLive, Value.field?, deletionEntry]
  · simp [Version.format, Version.toValue, Value.field?]
  · obtain ⟨_, _, _, _, _, _, _, _, deletedAt⟩ := s
    cases deletedAt <;> simp [Share.format, Share.toValue, Share.isLive, Value.field?,
      deletionEntry]

def deletedWorkspace : Workspace :=
  ⟨-7, "Caf\u00e9 \"x\"\n", none, 1, true, .ofSeconds 0, .ofMicros 1700000000123456,
    some (.ofSeconds 1700000000)⟩

/-- A document in the form of an array, with an offset in a time and null for a deletion time. -/
def arrayText : String :=
  "[7, 1, \"Fl\\u00f6w\", \"markdown\", \"flow\", false, " ++
    "\"2024-01-02T03:04:05.5+01:00\", \"2024-01-02T02:04:06Z\", null]"

theorem arrayDocument_readBack :
    Decode.ofText Workspace.decode deletedWorkspace.toValue.text = .ok deletedWorkspace ∧
    ∃ d, Decode.ofText Document.decode arrayText = .ok d ∧
      Decode.ofText Document.decode d.toValue.text = .ok d ∧
      d.toValue.field? "deleted_at" = none := by
  have workspaces := rows_readBack.1
  have documents := rows_readBack.2.1
  let d : Document := ⟨7, 1, "Fl\u00f6w", .markdown, "flow", false,
    ⟨1704161045, 500000000, by omega⟩, .ofSeconds 1704161046, none⟩
  have accepted : Decode.ofText Document.decode arrayText = .ok d :=
    ok_of_toOption (by decide +kernel)
  have fits : deletedWorkspace.Fits := ⟨⟨by decide, by decide⟩, ⟨by decide, by decide⟩⟩
  exact ⟨workspaces.written deletedWorkspace fits (by decide +kernel), d, accepted,
    documents.accepted _ d accepted, (documents.deletion d).mpr rfl⟩

end DiagramShare
