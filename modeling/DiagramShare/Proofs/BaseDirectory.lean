import DiagramShare.Proofs.Addresses
import DiagramShare.Proofs.Grammar

/-! Addresses of different attachments. A storage over SFTP takes its base directory off the front of a
key that leads through it, so that two keys may get one address. What is taken off are whole segments,
however, so that no two keys with equally many segments get one address, and the keys of attachments all
have three. -/
namespace DiagramShare.Text

theorem joinWith_append (sep : α) {front back : List (List α)} (some : front ≠ [])
    (more : back ≠ []) :
    joinWith sep (front ++ back) = joinWith sep front ++ sep :: joinWith sep back := by
  induction front with
  | nil => exact absurd rfl some
  | cons piece front ih =>
    rw [List.cons_append, joinWith_cons sep piece (by simp [more])]
    by_cases last : front = []
    · subst last
      rfl
    · rw [joinWith_cons sep piece last, ih last, List.append_assoc, List.cons_append]

end DiagramShare.Text

namespace DiagramShare.Storage

open DiagramShare.Text
open Key (parts ofAsset segment pieces)

namespace Key

theorem parts_injective {path path' : String} (same : parts path = parts path') : path = path' :=
  pathOf_injective (by rwa [parts_eq, parts_eq] at same)

theorem parts_ne_nil (path : String) : parts path ≠ [] := by
  rw [parts_eq]
  exact pathOf_ne_nil path

theorem below_of_parts {front path : String} {more : List String} (some : more ≠ [])
    (leads : parts path = parts front ++ more) : ∃ rest, path = front ++ "/" ++ rest := by
  rw [parts_eq, parts_eq, List.map_eq_append_iff] at leads
  obtain ⟨first, rest, split, same, back⟩ := leads
  obtain rfl : first = pieces front.toList :=
    List.map_injective_iff.mpr (fun _ _ => String.ofList_injective) same
  have behind : rest ≠ [] := by
    rintro rfl
    exact some back.symm
  have joined : ∀ cs, joinWith '/' (pieces cs) = cs := joinWith_splitWhere '/'
  have whole : path.toList = front.toList ++ '/' :: joinWith '/' rest :=
    calc path.toList
      _ = joinWith '/' (pieces front.toList ++ rest) := by rw [← split, joined]
      _ = joinWith '/' (pieces front.toList) ++ '/' :: joinWith '/' rest :=
        joinWith_append '/' (splitWhere_ne_nil _ _) behind
      _ = front.toList ++ '/' :: joinWith '/' rest := by rw [joined]
  refine ⟨String.ofList (joinWith '/' rest), ?_⟩
  rw [← String.toList_inj, whole]
  simp [String.toList_append]

theorem relative_of_parts {path : String} (full : "" ∉ parts path) :
    path ≠ "" ∧ path.toList.head? ≠ some '/' := by
  constructor
  · rintro rfl
    exact full (by decide)
  · intro top
    obtain ⟨rest, cut⟩ := List.head?_eq_some_iff.mp top
    have whole : path = "" ++ "/" ++ String.ofList rest := by
      rw [← String.toList_inj, cut]
      simp [String.toList_append]
    have first : parts path = [""] ++ parts (String.ofList rest) := by
      rw [whole, parts_append]
      rfl
    exact full (by simp [first])

end Key

namespace Sftp

variable {s : Settings.Sftp} {key key' : String}

/-- The segments of the base directory, whose slashes at the ends do not count. -/
def baseParts (s : Settings.Sftp) : List String :=
  if base s = [] then [] else parts (String.ofList (base s))

theorem relative_cases (s : Settings.Sftp) (key : String) :
    parts key = baseParts s ++ parts (relative s key) ∨
      relative s key = key ∧ ∀ more, more ≠ [] → parts key ≠ baseParts s ++ more := by
  by_cases bare : base s = []
  · exact .inl (by simp [baseParts, relative, bare])
  have list : baseParts s = parts (String.ofList (base s)) := if_neg bare
  cases cut : dropStart? (base s ++ ['/']) key.toList with
  | some rest =>
    have kept : relative s key = String.ofList rest := by simp [relative, bare, cut]
    have whole : key = String.ofList (base s) ++ "/" ++ String.ofList rest := by
      rw [← String.toList_inj, dropStart?_eq_some.mp cut]
      simp [String.toList_append]
    refine .inl ?_
    rw [kept, list, ← Key.parts_append, ← whole]
  | none =>
    refine .inr ⟨by simp [relative, bare, cut], fun more some leads => ?_⟩
    rw [list] at leads
    obtain ⟨rest, whole⟩ := Key.below_of_parts some leads
    have begins : key.toList = base s ++ ['/'] ++ rest.toList := by
      rw [whole]
      simp [String.toList_append]
    rw [dropStart?_eq_some.mpr begins] at cut
    cases cut

theorem parts_relative (s : Settings.Sftp) (key : String) : parts (relative s key) =
    if baseParts s <+: parts key ∧ baseParts s ≠ parts key
    then (parts key).drop (baseParts s).length else parts key := by
  rcases relative_cases s key with cut | ⟨kept, beside⟩
  · have other : baseParts s ≠ parts key := by
      intro all
      rw [all] at cut
      exact Key.parts_ne_nil _ (List.self_eq_append_right.mp cut)
    rw [if_pos ⟨⟨_, cut.symm⟩, other⟩, cut, List.drop_left]
  · rw [kept, if_neg]
    rintro ⟨⟨more, leads⟩, other⟩
    refine beside more ?_ leads.symm
    rintro rfl
    exact other (by rw [← leads, List.append_nil])

/-- Keys with equally many segments are told apart by what is left of them: where the base directory is
taken off only one of them, fewer segments are left of that one. -/
theorem relative_inj (level : (parts key).length = (parts key').length)
    (same : relative s key = relative s key') : key = key' := by
  rcases relative_cases s key with cut | ⟨kept, _⟩
  · rcases relative_cases s key' with cut' | ⟨kept', _⟩
    · exact Key.parts_injective (by rw [cut, cut', same])
    · have behind : parts key' <:+ parts key := ⟨baseParts s, by rw [cut, same, kept']⟩
      exact Key.parts_injective (behind.eq_of_length level.symm).symm
  · rcases relative_cases s key' with cut' | ⟨kept', _⟩
    · have behind : parts key <:+ parts key' := ⟨baseParts s, by rw [cut', ← same, kept]⟩
      exact Key.parts_injective (behind.eq_of_length level)
    · rw [← kept, ← kept', same]

example : relative { baseDir := "/upload" } "upload/a" = relative { baseDir := "/upload" } "a" := by
  decide

theorem relative_full {canonical : String} (accepted : Key.normalize key = .ok canonical) :
    "" ∉ parts (relative s canonical) := by
  have full : "" ∉ parts canonical := by
    rw [Key.parts_canonical accepted]
    exact fun empty => (Key.names_down (Key.normalize_iff.mp accepted).1 _ empty).1 rfl
  rcases relative_cases s canonical with cut | ⟨kept, _⟩
  · rw [cut, List.mem_append, not_or] at full
    exact full.2
  · rwa [kept]

end Sftp

namespace Backend

variable {b : Backend} {key key' : String}

theorem behindBase_inj (level : (parts key).length = (parts key').length)
    (same : b.behindBase key = b.behindBase key') : key = key' := by
  unfold behindBase at same
  match driver : b.driver with
  | .local => simpa [driver] using same
  | .ftp => exact Sftp.relative_inj level (by simpa [driver] using same)
  | .s3 => simpa [driver] using same

/-- Two attachments whose keys are accepted have one address only if they have one key, that is if
documents and sanitized names agree, whatever the storage and its settings are. Over SFTP, what an
accepted key loses to the base directory are whole segments at its front, and only where it goes on
behind them; what is left is not empty and does not begin with a slash. -/
theorem urls_apart (b : Backend) :
    (∀ document name key document' name' key',
      Key.normalize (ofAsset document name) = .ok key →
      Key.normalize (ofAsset document' name') = .ok key' →
      ∃ url url', b.url (ofAsset document name) = .ok url ∧ b.url (ofAsset document' name') = .ok url' ∧
        (url = url' ↔ ofAsset document name = ofAsset document' name') ∧
        (url = url' ↔ document = document' ∧ segment name = segment name')) ∧
    ∀ s key canonical, Key.normalize key = .ok canonical →
      let rest := Sftp.relative s canonical
      Sftp.url s key = .ok (joinUrl s.publicUrl rest) ∧
      (parts rest =
        if Sftp.baseParts s <+: parts canonical ∧ Sftp.baseParts s ≠ parts canonical
        then (parts canonical).drop (Sftp.baseParts s).length else parts canonical) ∧
      rest ≠ "" ∧ rest.toList.head? ≠ some '/' := by
  constructor
  · intro document name key document' name' key' accepted accepted'
    have level : (parts (ofAsset document name)).length = (parts (ofAsset document' name')).length := by
      simp [Key.parts_eq, Key.pieces_ofAsset]
    obtain rfl := Key.normalize_ofAsset_ok accepted
    obtain rfl := Key.normalize_ofAsset_ok accepted'
    have apart : b.base ++ "/" ++ b.behindBase (ofAsset document name) =
        b.base ++ "/" ++ b.behindBase (ofAsset document' name') ↔
          ofAsset document name = ofAsset document' name' := by
      constructor
      · intro same
        exact behindBase_inj level ((String.append_right_inj _).mp same)
      · intro same
        rw [same]
    exact ⟨_, _, url_eq accepted, url_eq accepted', apart, apart.trans Key.ofAsset_eq_iff⟩
  · intro s key canonical accepted rest
    have url : Sftp.url s key = .ok (joinUrl s.publicUrl rest) := by
      rw [Sftp.url, Local.canonical_ok.mpr accepted]
      rfl
    exact ⟨url, Sftp.parts_relative s canonical, Key.relative_of_parts (Sftp.relative_full accepted)⟩

/-- A base directory that is the folder of one document, and attachments of that document and another
under one name. -/
theorem urls_apart_folder :
    let b := (Backend.opened { driver := .ftp, sftp := {
      baseDir := "/documents/4/", publicUrl := "https://files.example.com/" } } "").1
    b.url (ofAsset 4 "a.png") = .ok "https://files.example.com/a.png" ∧
      b.url (ofAsset 5 "a.png") = .ok "https://files.example.com/documents/5/a.png" ∧
      "https://files.example.com/a.png" ≠ "https://files.example.com/documents/5/a.png" ∧
      parts (Sftp.relative b.settings.sftp "documents/4/a.png") = ["a.png"] := by
  intro b
  have accepted : Key.normalize (ofAsset 4 "a.png") = .ok "documents/4/a.png" := by decide +kernel
  have accepted' : Key.normalize (ofAsset 5 "a.png") = .ok "documents/5/a.png" := by decide +kernel
  have url : b.url (ofAsset 4 "a.png") = .ok "https://files.example.com/a.png" := by decide +kernel
  have url' : b.url (ofAsset 5 "a.png") = .ok "https://files.example.com/documents/5/a.png" := by
    decide +kernel
  obtain ⟨apart, below⟩ := urls_apart b
  obtain ⟨first, second, told, told', _, same⟩ := apart _ _ _ _ _ _ accepted accepted'
  obtain rfl := Except.ok.inj (told.symm.trans url)
  obtain rfl := Except.ok.inj (told'.symm.trans url')
  obtain ⟨_, parts, _⟩ := below b.settings.sftp _ _ accepted
  refine ⟨url, url', fun one => absurd (same.mp one).1 (by decide), ?_⟩
  rw [parts]
  decide +kernel

end Backend

end DiagramShare.Storage
