/-!
Instants of universal time. An instant is a whole number of seconds since 1970 and a part of that
second; the part may reach into a leap second, which follows its second and precedes the next.
-/
namespace DiagramShare.Time

/-- A point in time. A part of `10 ^ 9` or more lies in the leap second after `seconds`. -/
structure Instant where
  seconds : Int
  nanos : Nat
  nanos_lt : nanos < 2000000000 := by omega
  deriving DecidableEq

namespace Instant

def epoch : Instant := ⟨0, 0, by omega⟩

protected def le (a b : Instant) : Bool :=
  a.seconds < b.seconds || (a.seconds == b.seconds && a.nanos ≤ b.nanos)

instance : LE Instant := ⟨fun a b => Instant.le a b = true⟩
instance (a b : Instant) : Decidable (a ≤ b) := inferInstanceAs (Decidable (_ = true))

theorem le_iff {a b : Instant} :
    a ≤ b ↔ a.seconds < b.seconds ∨ (a.seconds = b.seconds ∧ a.nanos ≤ b.nanos) := by
  change Instant.le a b = true ↔ _
  simp [Instant.le]

protected theorem le_refl (a : Instant) : a ≤ a := by simp [le_iff]

protected theorem le_trans {a b c : Instant} (h : a ≤ b) (k : b ≤ c) : a ≤ c := by
  simp only [le_iff] at *; omega

protected theorem le_total (a b : Instant) : a ≤ b ∨ b ≤ a := by
  simp only [le_iff]; omega

protected theorem le_antisymm {a b : Instant} (h : a ≤ b) (k : b ≤ a) : a = b := by
  simp only [le_iff] at h k
  cases a; cases b
  simp only [mk.injEq] at *
  omega

def ofSeconds (n : Int) : Instant := ⟨n, 0, by omega⟩

/-- Nanoseconds since the epoch; a leap second runs into the second after it. -/
def totalNanos (t : Instant) : Int := t.seconds * 1000000000 + t.nanos

def ofMicros (n : Int) : Instant :=
  ⟨Int.fdiv n 1000000, (Int.fmod n 1000000).toNat * 1000, by
    have := Int.fmod_lt_of_pos n (show (0 : Int) < 1000000 by decide)
    omega⟩

end Instant

end DiagramShare.Time
