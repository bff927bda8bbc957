import DiagramShare.Proofs.Rows
import DiagramShare.Records.Request

/-! What a body gives for the fields of a request. It is said here of the value alone, without the
decoders: an object gives a field the value with its name, an array the item at its place. A request
that is decoded has just what the body gives, and nothing where the body gives nothing or null. -/
namespace DiagramShare.Json

open DiagramShare.Time (Instant)

namespace Reading

def named? (name : String) : Reading × Reading → Option Reading
  | (.string (some key), v) => if key = name then some v else none
  | _ => none

def member? (fields : List String) (name : String) : Reading → Option Reading
  | .object es => es.findSome? (named? name)
  | .array vs => vs[fields.idxOf name]?
  | _ => none

/-- What a body gives for a field; null is as good as nothing. -/
def given? (fields : List String) (name : String) (body : Reading) : Option Reading :=
  match body.member? fields name with
  | some .null => none
  | found => found

def text? : Reading → Option String
  | .string s => s
  | _ => none

def flag? : Reading → Option Bool
  | .boolean b => some b
  | _ => none

/-- A choice is given by its name, or by an object that has null under its name. -/
def choice? (ofName? : String → Option α) : Reading → Option α
  | .string (some name) => ofName? name
  | .object [(.string (some name), .null)] => ofName? name
  | _ => none

def instant? : Reading → Option Instant
  | .string (some s) => Instant.ofText? s
  | _ => none

def expiry? : Reading → Option (Option Instant)
  | .null => some none
  | r => r.instant?.map some

end Reading

namespace Decode

variable {α β : Type} {o : Origin} {r : Reading}

theorem reject_ne {expected : String} {a : α} : reject expected r ≠ .ok a := by
  unfold reject
  split <;> nofun

theorem string_reads {s : String} (h : string o r = .ok s) : r.text? = some s := by
  unfold string at h
  split at h
  · cases h
    rfl
  · exact absurd h reject_ne

theorem boolean_reads {b : Bool} (h : boolean o r = .ok b) : r.flag? = some b := by
  unfold boolean at h
  split at h
  · cases h
    rfl
  · exact absurd h reject_ne

theorem instant_reads {t : Instant} (h : instant o r = .ok t) : r.instant? = some t := by
  unfold instant at h
  split at h
  · split at h
    · rename_i read
      cases h
      exact read
    · cases h
  · exact absurd h reject_ne

theorem choice_reads {known : List String} {ofName? : String → Option α} {a : α}
    (h : choice known ofName? o r = .ok a) : r.choice? ofName? = some a := by
  have picked : ∀ {name}, choice.pick known ofName? name = .ok a → ofName? name = some a := by
    intro name h
    unfold choice.pick at h
    split at h
    · rename_i found
      cases h
      exact found
    · cases h
  have alone : ∀ {name v}, nothing name v = .ok () → v = .null := by
    intro name v h
    unfold nothing at h
    split at h
    · rfl
    · exact absurd (mapError_ok.mp h) reject_ne
  unfold choice at h
  split at h
  · exact picked h
  · obtain ⟨b, pick, h⟩ := bind_ok h
    obtain ⟨_, none, h⟩ := bind_ok h
    cases h
    cases alone none
    exact picked pick
  · cases h
  · exact absurd h reject_ne
  · obtain ⟨b, pick, h⟩ := bind_ok h
    obtain ⟨_, none, h⟩ := bind_ok h
    cases alone none
    split at h
    · rename_i last
      cases h
      cases List.isEmpty_iff.mp last
      exact picked pick
    · cases h
  · exact absurd h reject_ne
  · cases h

theorem entries_lookup {shape : Shape} {name : String}
    (known : name ∈ shape.fields.map Field.name) {seen : List String}
    {es : List (Reading × Reading)} {values : List (String × Reading)}
    (h : shape.entries o seen es = .ok values) :
    values.lookup name = es.findSome? (Reading.named? name) := by
  fun_induction Shape.entries shape o seen es generalizing values with
  | case1 =>
    cases h
    rfl
  | case2 seen key v rest unknown whole ih =>
    have other : key ≠ name := by
      rintro rfl
      obtain ⟨f, among, same⟩ := List.mem_map.mp known
      have miss := List.find?_eq_none.mp unknown f among
      exact miss (beq_iff_eq.mpr same)
    rw [ih h, List.findSome?_cons, Reading.named?, if_neg other]
  | case3 => cases h
  | case4 => cases h
  | case5 seen key v rest f found fresh ih =>
    obtain ⟨_, _, h⟩ := bind_ok h
    obtain ⟨more, later, h⟩ := bind_ok h
    cases h
    rw [List.lookup_cons, List.findSome?_cons, Reading.named?, ih later]
    by_cases same : key = name
    · rw [if_pos same, beq_iff_eq.mpr same.symm]
    · rw [if_neg same, beq_false_of_ne (Ne.symm same)]
  | case6 => cases h

theorem items_nil {shape : Shape} {total n : Nat} {fields : List Field}
    {values : List (String × Reading)} (h : shape.items o total n fields [] = .ok values) :
    values = [] := by
  induction fields generalizing n with
  | nil =>
    cases h
    rfl
  | cons f fields ih =>
    unfold Shape.items at h
    split at h
    · exact ih h
    · cases h

theorem items_lookup {shape : Shape} {name : String} {total n : Nat} {fields : List Field}
    {vs : List Reading} {values : List (String × Reading)}
    (known : name ∈ fields.map Field.name) (h : shape.items o total n fields vs = .ok values) :
    values.lookup name = vs[(fields.map Field.name).idxOf name]? := by
  induction fields generalizing n vs values with
  | nil => cases known
  | cons f fields ih =>
    cases vs with
    | nil =>
      cases items_nil h
      rfl
    | cons v vs =>
      have read : ∃ more, values = (f.name, v) :: more ∧
          shape.items o total (n + 1) fields vs = .ok more := by
        cases v with
        | broken => cases h
        | _ =>
          obtain ⟨_, _, h⟩ := bind_ok h
          obtain ⟨more, later, h⟩ := bind_ok h
          cases h
          exact ⟨more, rfl, later⟩
      obtain ⟨more, rfl, later⟩ := read
      rw [List.lookup_cons, List.map_cons, List.idxOf_cons]
      by_cases same : f.name = name
      · rw [same, beq_self_eq_true, cond_true]
        rfl
      · rcases List.mem_cons.mp known with first | known
        · exact absurd first.symm same
        rw [beq_false_of_ne (Ne.symm same), beq_false_of_ne same, cond_false, ih known later,
          List.getElem?_cons_succ]

theorem parts_member {shape : Shape} {parts : Parts} (h : shape.parts o r = .ok parts)
    {name : String} (known : name ∈ shape.fields.map Field.name) :
    parts.value? name = r.member? (shape.fields.map Field.name) name := by
  unfold Shape.parts at h
  split at h
  · obtain ⟨values, entries, h⟩ := bind_ok h
    cases h
    exact entries_lookup known entries
  · obtain ⟨values, items, h⟩ := bind_ok h
    cases h
    exact items_lookup known items
  · exact absurd h reject_ne

theorem nullable_ok {decode : Decoder α} {x : Option α} (h : nullable decode o r = .ok x) :
    (r = .null ∧ x = none) ∨ ∃ a, r ≠ .null ∧ decode o r = .ok a ∧ x = some a := by
  unfold nullable at h
  split at h
  · cases h
    exact .inl ⟨rfl, rfl⟩
  · rename_i present
    obtain ⟨a, decoded, rfl⟩ := map_eq_ok.mp h
    exact .inr ⟨a, present, decoded, rfl⟩

theorem given_of_member {fields : List String} {name : String} {v : Reading} (present : v ≠ .null)
    (found : r.member? fields name = some v) : r.given? fields name = some v := by
  rw [Reading.given?, found]
  cases v with
  | null => exact absurd rfl present
  | _ => rfl

theorem optional_given {fields : List String} {name : String} {parts : Parts} {decode : Decoder α}
    {read : Reading → Option α} {x : Option α}
    (reads : ∀ {o r a}, decode o r = .ok a → read r = some a)
    (there : parts.value? name = r.member? fields name) (h : parts.optional name decode = .ok x) :
    x.map some = (r.given? fields name).map read := by
  rcases optional_eq_ok.mp h with ⟨missing, rfl⟩ | ⟨v, found, decoded⟩
  · rw [Reading.given?, ← there, missing]
    rfl
  · rcases nullable_ok decoded with ⟨rfl, rfl⟩ | ⟨a, present, single, rfl⟩
    · rw [Reading.given?, ← there, found]
      rfl
    · rw [given_of_member present (there.symm.trans found), Option.map_some, Option.map_some,
        reads single]

theorem expiry_given {fields : List String} {name : String} {parts : Parts}
    {x : Option (Option Instant)} (there : parts.value? name = r.member? fields name)
    (h : parts.withDefault name (fun o r => (nullable instant o r).map some) none = .ok x) :
    x.map some = (r.member? fields name).map Reading.expiry? := by
  rw [← there]
  unfold Parts.withDefault at h
  cases found : parts.value? name with
  | none =>
    rw [found] at h
    cases h
    rfl
  | some v =>
    rw [found] at h
    obtain ⟨y, decoded, rfl⟩ := map_eq_ok.mp (mapError_ok.mp h)
    rcases nullable_ok decoded with ⟨rfl, rfl⟩ | ⟨t, present, single, rfl⟩
    · rfl
    · rw [Option.map_some, Option.map_some, Reading.expiry?, instant_reads single]
      · rfl
      · exact present

end Decode

end DiagramShare.Json

namespace DiagramShare

open DiagramShare.Json DiagramShare.Json.Decode

namespace WorkspaceUpdate

def fields : List String := ["name", "description", "is_public"]

structure ReadFrom (u : WorkspaceUpdate) (body : Reading) : Prop where
  name : u.name.map some = (body.given? fields "name").map Reading.text?
  description : u.description.map some = (body.given? fields "description").map Reading.text?
  isPublic : u.isPublic.map some = (body.given? fields "is_public").map Reading.flag?

theorem readFrom_of_decode {o : Origin} {body : Reading} {u : WorkspaceUpdate}
    (h : decode o body = .ok u) : u.ReadFrom body := by
  obtain ⟨parts, found, h⟩ := bind_ok h
  obtain ⟨name, named, h⟩ := bind_ok h
  obtain ⟨description, described, h⟩ := bind_ok h
  obtain ⟨isPublic, shown, h⟩ := bind_ok h
  cases h
  exact ⟨optional_given string_reads (parts_member found (by decide)) named,
    optional_given string_reads (parts_member found (by decide)) described,
    optional_given boolean_reads (parts_member found (by decide)) shown⟩

end WorkspaceUpdate

namespace DocumentUpdate

def fields : List String := ["title", "type", "slug", "is_public"]

structure ReadFrom (u : DocumentUpdate) (body : Reading) : Prop where
  title : u.title.map some = (body.given? fields "title").map Reading.text?
  kind : u.kind.map some =
    (body.given? fields "type").map (Reading.choice? DocumentKind.ofName?)
  slug : u.slug.map some = (body.given? fields "slug").map Reading.text?
  isPublic : u.isPublic.map some = (body.given? fields "is_public").map Reading.flag?

theorem readFrom_of_decode {o : Origin} {body : Reading} {u : DocumentUpdate}
    (h : decode o body = .ok u) : u.ReadFrom body := by
  obtain ⟨parts, found, h⟩ := bind_ok h
  obtain ⟨title, titled, h⟩ := bind_ok h
  obtain ⟨kind, typed, h⟩ := bind_ok h
  obtain ⟨slug, slugged, h⟩ := bind_ok h
  obtain ⟨isPublic, shown, h⟩ := bind_ok h
  cases h
  exact ⟨optional_given string_reads (parts_member found (by decide)) titled,
    optional_given choice_reads (parts_member found (by decide)) typed,
    optional_given string_reads (parts_member found (by decide)) slugged,
    optional_given boolean_reads (parts_member found (by decide)) shown⟩

end DocumentUpdate

namespace ShareUpdate

def fields : List String := ["permission", "expires_at"]

structure ReadFrom (u : ShareUpdate) (body : Reading) : Prop where
  permission : u.permission.map some =
    (body.given? fields "permission").map (Reading.choice? Permission.ofName?)
  expiresAt : u.expiresAt.map some = (body.member? fields "expires_at").map Reading.expiry?

theorem readFrom_of_decode {o : Origin} {body : Reading} {u : ShareUpdate}
    (h : decode o body = .ok u) : u.ReadFrom body := by
  obtain ⟨parts, found, h⟩ := bind_ok h
  obtain ⟨permission, permitted, h⟩ := bind_ok h
  obtain ⟨expiresAt, lasting, h⟩ := bind_ok h
  cases h
  exact ⟨optional_given choice_reads (parts_member found (by decide)) permitted,
    expiry_given (parts_member found (by decide)) lasting⟩

end ShareUpdate

end DiagramShare
