import DiagramShare.Identity.Caller
import DiagramShare.Proofs.Results
import Mathlib.Data.List.Basic

/-! Who a request comes from. The caller is read off the one credential that counts: a request that
shows a good one comes from the user it names, a request that shows none comes from nobody, and every
other request is refused. The share token has no part in this. -/
namespace DiagramShare

namespace Text

variable {α : Type} [BEq α] [LawfulBEq α]

theorem splitFirst?_eq_some {sep : α} {as before after : List α} :
    splitFirst? (· == sep) as = some (before, after) ↔
      as = before ++ sep :: after ∧ sep ∉ before := by
  induction as generalizing before with
  | nil => simp [splitFirst?]
  | cons a rest ih =>
    rw [splitFirst?]
    by_cases here : a = sep
    · subst here
      cases before with
      | nil => simp [eq_comm]
      | cons b before =>
        simp only [BEq.rfl, if_true, Option.some.injEq, Prod.mk.injEq, reduceCtorEq, false_and,
          List.cons_append, List.cons.injEq, List.mem_cons, not_or, false_iff, not_and]
        intro same absent
        exact absurd same.1 absent
    · rw [if_neg (by simpa using here)]
      cases before with
      | nil => simp [here]
      | cons b before =>
        simp only [Option.map_eq_some_iff, Prod.exists, Prod.mk.injEq, List.cons.injEq,
          List.cons_append, List.mem_cons, not_or]
        constructor
        · rintro ⟨x, y, found, ⟨rfl, rfl⟩, rfl⟩
          obtain ⟨split, absent⟩ := ih.mp found
          exact ⟨⟨rfl, split⟩, Ne.symm here, absent⟩
        · rintro ⟨⟨rfl, split⟩, _, absent⟩
          exact ⟨before, after, ih.mpr ⟨split, absent⟩, ⟨rfl, rfl⟩, rfl⟩

theorem splitLast?_eq_some {sep : α} {as before after : List α} :
    splitLast? (· == sep) as = some (before, after) ↔
      as = before ++ sep :: after ∧ sep ∉ after := by
  simp only [splitLast?, Option.map_eq_some_iff, Prod.exists, Prod.mk.injEq]
  constructor
  · rintro ⟨x, y, found, rfl, rfl⟩
    obtain ⟨split, absent⟩ := splitFirst?_eq_some.mp found
    refine ⟨?_, by simpa using absent⟩
    have split := congrArg List.reverse split
    simpa using split
  · rintro ⟨rfl, absent⟩
    exact ⟨after.reverse, before.reverse,
      splitFirst?_eq_some.mpr ⟨by simp, by simpa using absent⟩, by simp, by simp⟩

end Text

namespace Codec.Base64Url

end Codec.Base64Url

namespace Http.Headers

def Lacks (headers : Headers) (name : String) : Prop :=
  ∀ field ∈ headers, lowerCase field.1 ≠ name

variable {headers : Headers} {name : String}

end Http.Headers

namespace Identity

open DiagramShare.Codec
open DiagramShare.Http (Headers visibleText? lowerCase)
open DiagramShare.Json (Source Reading)
open DiagramShare.Json.Decode (ofSource)
open DiagramShare.Text
open DiagramShare.Time (Instant)

namespace Bearer

/-- Claims of this user that are good at an instant. -/
structure Valid (v : Verifier) (now : Instant) (body : Source) (found : Claims) (user : Int) :
    Prop where
  dated : 0 ≤ found.expiry
  unexpired : now.seconds ≤ found.expiry + leeway
  issuer : ∀ issuer ∈ v.issuer, found.issuer = some issuer
  general : audience (Reading.ofSource body).1 = .ok false
  subject : Integer.parse64 found.subject.toList = .ok user
  positive : 0 < user

end Bearer

/-- The value of a cookie: of several with one name, that of the last. -/
def IsCookie (headers : Headers) (name value : String) : Prop :=
  ∃ before after, cookies headers = before ++ (name, value) :: after ∧ ∀ c ∈ after, c.1 ≠ name

structure ShowsNothing (cookieName : String) (headers : Headers) : Prop where
  absent : headers.Lacks "authorization"
  empty : ∀ value, IsCookie headers cookieName value → value = ""

variable {headers : Headers} {cookieName : String}

variable {query : List UInt8}

variable {v : Verifier} {now : Instant}

end Identity

end DiagramShare
