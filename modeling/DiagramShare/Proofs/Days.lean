import DiagramShare.Time.Calendar
import Mathlib.Logic.Basic

/-!
Days and dates. The date of a day is one that the calendar has, and its day is that day. Within an
era of 400 years a day is placed by its century, by the four years in that, by the year of those
and by the day of the year.
-/
namespace DiagramShare.Time

/-- Day `n` of an era is day `d` of year `y` in the four years `q` of century `c`. A year of 366
days is the last of its four, and the last of a century only in the fourth of them. -/
structure IsPlace (n c q y d : Int) : Prop where
  sum : n = 36524 * c + 1461 * q + 365 * y + d
  century : 0 ≤ c ∧ c ≤ 3
  years : 0 ≤ q ∧ q ≤ 24
  year : 0 ≤ y ∧ y ≤ 3
  day : 0 ≤ d ∧ d ≤ 365
  leap : d = 365 → y = 3 ∧ (q ≤ 23 ∨ c = 3)

theorem exists_place {n : Int} (from_first : 0 ≤ n) (to_last : n < 146097) :
    ∃ c q y d, IsPlace n c q y d := by
  obtain ⟨c, hc, hn, fourth⟩ : ∃ c, (0 ≤ c ∧ c ≤ 3) ∧ (36524 * c ≤ n ∧ n ≤ 36524 * c + 36524) ∧
      (n = 36524 * c + 36524 → c = 3) := by
    by_cases last : n = 146096
    · exact ⟨3, by omega⟩
    · exact ⟨n / 36524, by omega⟩
  obtain ⟨q, hq, hr⟩ : ∃ q, (0 ≤ q ∧ q ≤ 24) ∧
      (0 ≤ n - 36524 * c - 1461 * q ∧ n - 36524 * c - 1461 * q ≤ 1460) :=
    ⟨(n - 36524 * c) / 1461, by omega⟩
  obtain ⟨y, hy, hd, leap⟩ : ∃ y, (0 ≤ y ∧ y ≤ 3) ∧
      (0 ≤ n - 36524 * c - 1461 * q - 365 * y ∧ n - 36524 * c - 1461 * q - 365 * y ≤ 365) ∧
      (n - 36524 * c - 1461 * q - 365 * y = 365 → y = 3) := by
    by_cases last : n - 36524 * c - 1461 * q = 1460
    · exact ⟨3, by omega⟩
    · exact ⟨(n - 36524 * c - 1461 * q) / 365, by omega⟩
  refine ⟨c, q, y, n - 36524 * c - 1461 * q - 365 * y, by omega, hc, hq, hy, hd, fun full => ?_⟩
  omega

variable {n c q y d : Int}

theorem IsPlace.year_eq (place : IsPlace n c q y d) :
    (n - n / 1460 + n / 36524 - n / 146096) / 365 = 100 * c + 4 * q + y := by
  obtain ⟨sum, hc, hq, hy, hd, leap⟩ := place
  have four : n / 1460 = 25 * c + q ∧ 24 * c + q + 365 * y + d < 1460 ∨
      n / 1460 = 25 * c + q + 1 ∧ 1460 ≤ 24 * c + q + 365 * y + d := by omega
  have hundred : n / 36524 = c ∧ n / 146096 = 0 ∨
      n = 146096 ∧ n / 36524 = 4 ∧ n / 146096 = 1 := by omega
  rcases hundred with ⟨h1, h2⟩ | ⟨rfl, _, _⟩
  · rcases four with ⟨h3, _⟩ | ⟨h3, _⟩
    · rw [h1, h2, h3]
      omega
    · rw [h1, h2, h3]
      omega
  · omega

theorem IsPlace.bounds (place : IsPlace n c q y d) : 0 ≤ n ∧ n < 146097 := by
  obtain ⟨sum, hc, hq, hy, hd, leap⟩ := place
  omega

theorem IsPlace.year_div (place : IsPlace n c q y d) :
    (100 * c + 4 * q + y) / 4 = 25 * c + q ∧ (100 * c + 4 * q + y) / 100 = c := by
  obtain ⟨sum, hc, hq, hy, hd, leap⟩ := place
  omega

theorem ofDay_place {era day : Int} (place : IsPlace n c q y d)
    (sum : day + 719468 = n + era * 146097) :
    Date.ofDay day =
      ⟨100 * c + 4 * q + y + era * 400 + (if (5 * d + 2) / 153 < 10 then 0 else 1),
        (if (5 * d + 2) / 153 < 10 then (5 * d + 2) / 153 + 3 else (5 * d + 2) / 153 - 9).toNat,
        (d - (153 * ((5 * d + 2) / 153) + 2) / 5 + 1).toNat⟩ := by
  have bounds := place.bounds
  have isEra : Int.fdiv (day + 719468) 146097 = era := by
    rw [Int.fdiv_eq_ediv_of_nonneg _ (by decide)]
    omega
  have inEra : day + 719468 - era * 146097 = n := by omega
  have inYear : n - (365 * (100 * c + 4 * q + y) + (100 * c + 4 * q + y) / 4 -
      (100 * c + 4 * q + y) / 100) = d := by
    rw [place.year_div.1, place.year_div.2, place.sum]
    omega
  have within : 0 ≤ (5 * d + 2) / 153 ∧ (5 * d + 2) / 153 ≤ 11 := by
    have := place.day
    omega
  simp only [Date.ofDay, isEra, inEra, place.year_eq, inYear]
  by_cases early : (5 * d + 2) / 153 < 10
  · have later : ¬(5 * d + 2) / 153 + 3 ≤ 2 := by omega
    simp only [if_pos early, if_neg later]
  · have next : (5 * d + 2) / 153 - 9 ≤ 2 := by omega
    simp only [if_neg early, if_pos next]

theorem exists_date (day : Int) : ∃ n era c q y d, IsPlace n c q y d ∧
    day + 719468 = n + era * 146097 := by
  have era := Int.mul_ediv_add_emod (day + 719468) 146097
  obtain ⟨c, q, y, d, place⟩ := exists_place (n := (day + 719468) % 146097) (by omega) (by omega)
  exact ⟨_, (day + 719468) / 146097, c, q, y, d, place, by omega⟩

theorem toDay_ofDay (day : Int) : (Date.ofDay day).toDay = day := by
  obtain ⟨n, era, c, q, y, d, place, sum⟩ := exists_date day
  rw [ofDay_place place sum]
  obtain ⟨fours, hundreds⟩ := place.year_div
  obtain ⟨inEra, hc, hq, hy, hd, leap⟩ := place
  have inMonth := Int.mul_ediv_add_emod (5 * d + 2) 153
  generalize (5 * d + 2) / 153 = month at *
  have isEra : Int.fdiv (100 * c + 4 * q + y + era * 400) 400 = era := by
    rw [Int.fdiv_eq_ediv_of_nonneg _ (by decide)]
    omega
  have isYear : 100 * c + 4 * q + y + era * 400 - era * 400 = 100 * c + 4 * q + y := by omega
  by_cases early : month < 10
  · have later : ¬(month + 3).toNat ≤ 2 := by omega
    simp only [Date.toDay, if_pos early, if_neg later, Int.add_zero, isEra, isYear, fours, hundreds]
    omega
  · have next : (month - 9).toNat ≤ 2 := by omega
    simp only [Date.toDay, if_neg early, if_pos next, Int.add_sub_cancel, isEra, isYear, fours,
      hundreds]
    omega

theorem valid_ofDay (day : Int) : (Date.ofDay day).Valid := by
  obtain ⟨n, era, c, q, y, d, place, sum⟩ := exists_date day
  rw [ofDay_place place sum]
  obtain ⟨inEra, hc, hq, hy, hd, leap⟩ := place
  have inMonth := Int.mul_ediv_add_emod (5 * d + 2) 153
  generalize (5 * d + 2) / 153 = month at *
  have month_cases : month = 0 ∨ month = 1 ∨ month = 2 ∨ month = 3 ∨ month = 4 ∨ month = 5 ∨
      month = 6 ∨ month = 7 ∨ month = 8 ∨ month = 9 ∨ month = 10 ∨ month = 11 := by omega
  by_cases february : month = 11
  · subst february
    have leapYear : d = 365 → isLeapYear (100 * c + 4 * q + y + era * 400 + 1) = true := by
      intro full
      obtain ⟨last, other⟩ := leap full
      simp only [isLeapYear, Bool.and_eq_true, Bool.or_eq_true, beq_iff_eq, bne_iff_ne]
      omega
    simp only [Date.Valid, monthLength]
    cases isLeap : isLeapYear (100 * c + 4 * q + y + era * 400 + 1) with
    | true =>
      simp [isLeap]
      omega
    | false =>
      have short : d ≠ 365 := by
        intro full
        rw [leapYear full] at isLeap
        cases isLeap
      simp [isLeap]
      omega
  · rcases month_cases with
      rfl | rfl | rfl | rfl | rfl | rfl | rfl | rfl | rfl | rfl | rfl | rfl <;>
      simp [Date.Valid, monthLength] <;> omega

end DiagramShare.Time
