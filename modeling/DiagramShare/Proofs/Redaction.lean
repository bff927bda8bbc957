import DiagramShare.Proofs.Credentials
import DiagramShare.Proofs.Spellings
import DiagramShare.Settings.Show
import Mathlib.Data.List.Infix

/-! Addresses of databases in the log. An address is a scheme, the mark "://", a user with a password and
a host behind the last at sign. The log shows one text for all addresses that differ only in user and
password, whatever these hold; an address without an at sign behind its first mark is shown as it is. -/
namespace DiagramShare.Text

variable {α : Type}

/-- A part does not begin inside of itself if its first character does not come again in it: where it
begins a text, nothing stands before its first occurrence. -/
theorem eq_nil_of_overlap {c : α} {part before after : List α} (once : c ∉ part)
    (begins : c :: part <+: before ++ (c :: part ++ after)) (absent : ¬ c :: part <:+: before) :
    before = [] := by
  rcases prefix_append_cases begins with short | ⟨d, tail, whole, next⟩
  · exact absurd short.isInfix absent
  · cases before with
    | nil => rfl
    | cons a before =>
      -- The rest of the part lies behind its first character and would begin with it.
      obtain ⟨_, rfl⟩ := List.cons.inj whole
      have first : d = c := (List.cons_prefix_cons.mp next).1
      exact absurd (by simp [first]) once

variable [BEq α] [LawfulBEq α]

theorem breakOn?_eq_some {c : α} {part as before after : List α} (once : c ∉ part) :
    breakOn? (c :: part) as = some (before, after) ↔
      as = before ++ (c :: part ++ after) ∧ ¬ c :: part <:+: before := by
  induction as generalizing before with
  | nil => simp [breakOn?, dropStart?]
  | cons a rest ih =>
    rw [breakOn?]
    cases here : dropStart? (c :: part) (a :: rest) with
    | some tail =>
      have whole := dropStart?_eq_some.mp here
      simp only [Option.some.injEq, Prod.mk.injEq]
      constructor
      · rintro ⟨rfl, rfl⟩
        exact ⟨whole, by simp⟩
      · rintro ⟨split, absent⟩
        have begins : c :: part <+: before ++ (c :: part ++ after) := by
          rw [← split, whole]
          exact List.prefix_append _ _
        obtain rfl := eq_nil_of_overlap once begins absent
        exact ⟨rfl, List.append_cancel_left (whole.symm.trans split)⟩
    | none =>
      have elsewhere : ¬ c :: part <+: a :: rest := by
        rw [← dropStart?_isSome, here]
        exact Bool.false_ne_true
      simp only [Option.map_eq_some_iff, Prod.exists, Prod.mk.injEq]
      constructor
      · rintro ⟨before, tail, found, rfl, rfl⟩
        obtain ⟨split, absent⟩ := ih.mp found
        refine ⟨congrArg (a :: ·) split, fun inside => ?_⟩
        rcases List.infix_cons_iff.mp inside with first | later
        · refine elsewhere (first.trans ?_)
          rw [split, ← List.cons_append]
          exact List.prefix_append _ _
        · exact absent later
      · rintro ⟨split, absent⟩
        cases before with
        | nil =>
          rw [List.nil_append] at split
          exact absurd (split ▸ List.prefix_append _ _) elsewhere
        | cons b before =>
          obtain ⟨rfl, behind⟩ := List.cons.inj split
          refine ⟨before, after, ih.mpr ⟨behind, fun inside => absent ?_⟩, rfl, rfl⟩
          exact inside.trans (List.suffix_cons a before).isInfix

end DiagramShare.Text

namespace DiagramShare.Settings

open DiagramShare.Text

/-- A text that the mark behind a scheme does not stand in. -/
def IsScheme (text : String) : Prop := ¬ "://".toList <:+: text.toList

/-- An address without an at sign behind its first mark. -/
def IsBare (url : String) : Prop :=
  ∀ scheme rest, IsScheme scheme → url = scheme ++ "://" ++ rest → '@' ∉ rest.toList

variable {scheme user host url : String}

theorem breakOn?_mark (plain : IsScheme scheme) (rest : String) :
    breakOn? [':', '/', '/'] (scheme ++ "://" ++ rest).toList = some (scheme.toList, rest.toList) := by
  refine (breakOn?_eq_some (by decide)).mpr ⟨?_, plain⟩
  simp [String.toList_append]

theorem breakOn?_cut {before after : List Char}
    (cut : breakOn? [':', '/', '/'] url.toList = some (before, after)) :
    IsScheme (String.ofList before) ∧
      url = String.ofList before ++ "://" ++ String.ofList after := by
  obtain ⟨split, plain⟩ := (breakOn?_eq_some (by decide)).mp cut
  constructor
  · rw [IsScheme, String.toList_ofList (l := before)]
    exact plain
  · rw [← String.toList_inj, split]
    simp [String.toList_append]

theorem redactDatabaseUrl_address (plain : IsScheme scheme) (last : '@' ∉ host.toList)
    (user : String) : redactDatabaseUrl (scheme ++ "://" ++ user ++ "@" ++ host) =
      scheme ++ "://***@" ++ host := by
  have cut := breakOn?_mark plain (user ++ "@" ++ host)
  have behind : splitLast? (· == '@') (user ++ "@" ++ host).toList =
      some (user.toList, host.toList) :=
    splitLast?_eq_some.mpr ⟨by simp [String.toList_append], last⟩
  have whole : scheme ++ "://" ++ user ++ "@" ++ host = scheme ++ "://" ++ (user ++ "@" ++ host) := by
    simp only [String.append_assoc]
  rw [whole]
  simp only [redactDatabaseUrl, cut, behind]
  rw [← String.toList_inj]
  simp [String.toList_append]

theorem redactDatabaseUrl_cases (url : String) : redactDatabaseUrl url = url ∨
    ∃ scheme user host, IsScheme scheme ∧ '@' ∉ host.toList ∧
      url = scheme ++ "://" ++ user ++ "@" ++ host := by
  rw [redactDatabaseUrl]
  split
  · exact .inl rfl
  · rename_i before after cut
    obtain ⟨plain, whole⟩ := breakOn?_cut cut
    split
    · exact .inl rfl
    · rename_i user host behind
      obtain ⟨split, last⟩ := splitLast?_eq_some.mp behind
      refine .inr ⟨_, String.ofList user, String.ofList host, plain, ?_, ?_⟩
      · rwa [String.toList_ofList]
      · rw [whole, split, ← String.toList_inj]
        simp [String.toList_append]

theorem redactDatabaseUrl_bare (bare : IsBare url) : redactDatabaseUrl url = url := by
  rcases redactDatabaseUrl_cases url with same | ⟨scheme, user, host, plain, _, rfl⟩
  · exact same
  · have absent := bare scheme (user ++ "@" ++ host) plain (by simp only [String.append_assoc])
    exact absurd (by simp [String.toList_append]) absent

theorem redactDatabaseUrl_redacted (url : String) :
    redactDatabaseUrl (redactDatabaseUrl url) = redactDatabaseUrl url := by
  rcases redactDatabaseUrl_cases url with same | ⟨scheme, user, host, plain, last, rfl⟩
  · rw [same, same]
  · have again := redactDatabaseUrl_address plain last "***"
    have shown : scheme ++ "://***@" ++ host = scheme ++ "://" ++ "***" ++ "@" ++ host := by
      simp only [String.append_assoc]
      rfl
    rw [redactDatabaseUrl_address plain last, shown, again, ← shown]

def withDatabase (settings : Settings) (url : String) : Settings :=
  { settings with database := { settings.database with url := url } }

/-- What the log shows of the address of the database does not depend on user and password, whatever
characters these hold: it is the scheme, three asterisks and the at sign with the host, and the settings
as a whole are shown alike. An address without an at sign behind its first mark is shown as it is, and
what is shown of an address is shown as it is. -/
theorem redactDatabaseUrl_blind :
    (∀ scheme host, IsScheme scheme → '@' ∉ host.toList → ∀ user user' : String,
      let url := scheme ++ "://" ++ user ++ "@" ++ host
      let url' := scheme ++ "://" ++ user' ++ "@" ++ host
      redactDatabaseUrl url = redactDatabaseUrl url' ∧
      redactDatabaseUrl url = scheme ++ "://***@" ++ host ∧
      ("@" ++ host).toList <:+ (redactDatabaseUrl url).toList ∧
      ∀ settings : Settings, (settings.withDatabase url).text = (settings.withDatabase url').text) ∧
    (∀ url, IsBare url → redactDatabaseUrl url = url) ∧
    ∀ url, redactDatabaseUrl (redactDatabaseUrl url) = redactDatabaseUrl url := by
  refine ⟨?_, fun url => redactDatabaseUrl_bare, redactDatabaseUrl_redacted⟩
  intro scheme host plain last user user' url url'
  have shown : redactDatabaseUrl url = scheme ++ "://***@" ++ host :=
    redactDatabaseUrl_address plain last user
  have alike : redactDatabaseUrl url = redactDatabaseUrl url' :=
    shown.trans (redactDatabaseUrl_address plain last user').symm
  refine ⟨alike, shown, ?_, fun settings => ?_⟩
  · rw [shown]
    exact ⟨(scheme ++ "://***").toList, by simp [String.toList_append]⟩
  · simp only [text, withDatabase, alike]

/-- Two passwords, one of which looks like the rest of an address. -/
theorem redactDatabaseUrl_blind_postgres :
    let url := "postgres" ++ "://" ++ "app:secret" ++ "@" ++ "db:5432/diagrams"
    let url' := "postgres" ++ "://" ++ "app:p@://db/ss" ++ "@" ++ "db:5432/diagrams"
    redactDatabaseUrl url = redactDatabaseUrl url' ∧
      redactDatabaseUrl url = "postgres://***@db:5432/diagrams" ∧
      redactDatabaseUrl "postgres://localhost/diagrams" = "postgres://localhost/diagrams" := by
  have plain : IsScheme "postgres" := by
    unfold IsScheme
    decide
  obtain ⟨hidden, bare, _⟩ := redactDatabaseUrl_blind
  obtain ⟨alike, shown, _⟩ := hidden "postgres" "db:5432/diagrams" plain (by decide) "app:secret"
    "app:p@://db/ss"
  refine ⟨alike, shown, bare _ ?_⟩
  intro scheme rest _ whole sign
  have absent : '@' ∉ "postgres://localhost/diagrams".toList := by decide
  rw [whole, String.toList_append] at absent
  exact absent (List.mem_append_right _ sign)

end DiagramShare.Settings
