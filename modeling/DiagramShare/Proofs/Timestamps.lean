import DiagramShare.Proofs.Days
import DiagramShare.Time.Rfc3339
import Mathlib

/-!
Instants that are written and read back. An instant is real if its year is one that instants may lie
in and if a leap second in it is the last of its minute. Every real instant is read from its written
form, and every instant that is read from any text is real.
-/
namespace DiagramShare.Time

open DiagramShare.Text (isBlank)

theorem isBlank_of_isDigit {c : Char} (digit : c.isDigit = true) : isBlank c = false := by
  simp only [Char.isDigit, Bool.and_eq_true, decide_eq_true_eq, UInt32.le_iff_toNat_le] at digit
  have low : 48 ≤ c.toNat := digit.1
  have high : c.toNat ≤ 57 := digit.2
  rw [← Bool.not_eq_true]
  intro blank
  simp only [isBlank, Bool.or_eq_true, Bool.and_eq_true, decide_eq_true_eq, beq_iff_eq] at blank
  omega

theorem toList_padded (width n : Nat) : (padded width n).toList =
    List.replicate (width - (Nat.toDigits 10 n).length) '0' ++ Nat.toDigits 10 n := by
  have digits : (toString n).toList = Nat.toDigits 10 n := Nat.toList_repr
  rw [padded, String.toList_append, String.toList_ofList, ← String.length_toList, digits]

theorem isDigit_padded {width n : Nat} {c : Char} (among : c ∈ (padded width n).toList) :
    c.isDigit = true := by
  rw [toList_padded] at among
  rcases List.mem_append.mp among with zero | digit
  · rw [List.eq_of_mem_replicate zero]
    rfl
  · exact Nat.isDigit_of_mem_toDigits (by decide) (by decide) digit

theorem length_padded {width n : Nat} (fits : n < 10 ^ width) (some : 0 < width) :
    (padded width n).toList.length = width := by
  have short := (Nat.length_toDigits_le_iff (b := 10) (by decide) some).mpr fits
  rw [toList_padded, List.length_append, List.length_replicate]
  omega

theorem padded_eq_cons (width n : Nat) :
    ∃ c more, (padded width n).toList = c :: more ∧ c.isDigit = true := by
  have some : (padded width n).toList ≠ [] := by
    rw [toList_padded]
    exact List.append_ne_nil_of_right_ne_nil _ Nat.toDigits_ne_nil
  obtain ⟨c, more, text⟩ := List.exists_cons_of_ne_nil some
  exact ⟨c, more, text, isDigit_padded (text ▸ List.mem_cons_self)⟩

namespace Rfc3339

theorem digitsValue_eq (cs : List Char) : digitsValue cs = Nat.ofDigitChars 10 cs 0 := by
  rw [Nat.ofDigitChars_eq_foldl, digitsValue]
  congr 1
  funext n c
  rw [Nat.mul_comm]
  rfl

theorem digitsValue_padded (width n : Nat) : digitsValue (padded width n).toList = n := by
  rw [digitsValue_eq, toList_padded, Nat.ofDigitChars_append, Nat.ofDigitChars_replicate_zero]
  exact Nat.ofDigitChars_toDigits (by decide) (by decide)

def Stops (rest : List Char) : Prop := ∀ c, rest.head? = some c → c.isDigit = false

theorem takeWhile_take_stops {rest : List Char} (stops : Stops rest) (n : Nat) :
    (rest.take n).takeWhile Char.isDigit = [] := by
  cases rest with
  | nil => simp
  | cons c more =>
    cases n with
    | zero => rfl
    | succ n => rw [List.take_succ_cons, List.takeWhile_cons_of_neg (by simp [stops c rfl])]

theorem number?_append {width : Nat} {ds rest : List Char} (present : ds ≠ [])
    (all : ∀ c ∈ ds, c.isDigit = true) (fits : ds.length ≤ width)
    (stops : ds.length = width ∨ Stops rest) :
    number? width (ds ++ rest) = some (digitsValue ds, rest) := by
  have taken : ((ds ++ rest).take width).takeWhile Char.isDigit = ds := by
    rw [List.take_append, List.take_of_length_le fits, List.takeWhile_append_of_pos all]
    rcases stops with whole | stops
    · rw [whole, Nat.sub_self, List.take_zero, List.takeWhile_nil, List.append_nil]
    · rw [takeWhile_take_stops stops, List.append_nil]
  have some : ds.isEmpty = false := by simpa using present
  simp [number?, taken, some]

theorem padded_ne_nil (width n : Nat) : (padded width n).toList ≠ [] := by
  obtain ⟨c, more, text, -⟩ := padded_eq_cons width n
  rw [text]
  exact List.cons_ne_nil c more

theorem number?_padded {width n : Nat} (fits : n < 10 ^ width) (some : 0 < width)
    (rest : List Char) : number? width ((padded width n).toList ++ rest) = .some (n, rest) := by
  have length := length_padded fits some
  rw [number?_append (padded_ne_nil width n) (fun _ => isDigit_padded) (Nat.le_of_eq length)
    (.inl length), digitsValue_padded]

theorem longNumber?_padded (width n : Nat) {rest : List Char} (stops : Stops rest) :
    longNumber? ((padded width n).toList ++ rest) = some (n, rest) := by
  rw [longNumber?, number?_append (padded_ne_nil width n) (fun _ => isDigit_padded)
    (by rw [List.length_append]; omega) (.inr stops), digitsValue_padded]

theorem skipBlanks_cons {c : Char} (mark : isBlank c = false) (rest : List Char) :
    skipBlanks (c :: rest) = c :: rest := by
  simp [skipBlanks, mark]

theorem skipBlanks_padded (width n : Nat) (rest : List Char) :
    skipBlanks ((padded width n).toList ++ rest) = (padded width n).toList ++ rest := by
  obtain ⟨c, more, text, digit⟩ := padded_eq_cons width n
  rw [text]
  exact skipBlanks_cons (isBlank_of_isDigit digit) _

theorem mark?_cons {c : Char} (mark : isBlank c = false) (rest : List Char) :
    mark? c (c :: rest) = some rest := by
  simp [mark?, skipBlanks_cons mark]

theorem field?_padded {lo hi n : Nat} (within : lo ≤ n ∧ n ≤ hi) (fits : n < 100)
    (rest : List Char) : field? lo hi ((padded 2 n).toList ++ rest) = some (n, rest) := by
  rw [field?, skipBlanks_padded, number?_padded fits (by decide)]
  simp [within]

theorem year?_digit {c : Char} (digit : c.isDigit = true) (cs : List Char) :
    year? (c :: cs) = (number? 4 (c :: cs)).map fun (n, rest) => ((n : Int), rest) := by
  unfold year?
  rw [skipBlanks_cons (isBlank_of_isDigit digit)]
  split
  · rename_i h
    cases h
    cases digit
  · rename_i h
    cases h
    cases digit
  · rfl

theorem year?_minus (cs : List Char) :
    year? ('-' :: cs) = (longNumber? cs).map fun (n, rest) => (-(n : Int), rest) := by
  unfold year?
  rw [skipBlanks_cons (by decide)]
  rfl

theorem year?_plus (cs : List Char) :
    year? ('+' :: cs) = (longNumber? cs).map fun (n, rest) => ((n : Int), rest) := by
  unfold year?
  rw [skipBlanks_cons (by decide)]
  rfl

theorem year?_yearText (y : Int) (rest : List Char) :
    year? ((yearText y).toList ++ '-' :: rest) = some (y, '-' :: rest) := by
  have stops : Stops ('-' :: rest) := by
    rintro c ⟨⟩
    rfl
  unfold yearText
  split
  · rename_i short
    have number : number? 4 ((padded 4 y.toNat).toList ++ '-' :: rest) =
        some (y.toNat, '-' :: rest) := number?_padded (by omega) (by decide) _
    obtain ⟨c, more, text, digit⟩ := padded_eq_cons 4 y.toNat
    rw [text, List.cons_append] at number ⊢
    simp only [year?_digit digit, number, Option.map_some, Int.toNat_of_nonneg short.1]
  · split
    · rename_i before
      have number := longNumber?_padded 4 (-y).toNat stops
      have isYear : -((-y).toNat : Int) = y := by omega
      have sign : "-".toList = ['-'] := rfl
      simp only [String.toList_append, sign, List.cons_append, List.nil_append, year?_minus, number,
        Option.map_some, isYear]
    · rename_i after
      have number := longNumber?_padded 4 y.toNat stops
      have isYear : (y.toNat : Int) = y := by omega
      have sign : "+".toList = ['+'] := rfl
      simp only [String.toList_append, sign, List.cons_append, List.nil_append, year?_plus, number,
        Option.map_some, isYear]

theorem digitsValue_zeros (ds : List Char) (n : Nat) :
    digitsValue (ds ++ List.replicate n '0') = digitsValue ds * 10 ^ n := by
  rw [digitsValue_eq, digitsValue_eq, Nat.ofDigitChars_append, Nat.ofDigitChars_replicate_zero,
    Nat.mul_comm]

theorem fraction?_padded {width n : Nat} (fits : n < 10 ^ width) (some : 0 < width)
    (few : width ≤ 9) : fraction? ('.' :: ((padded width n).toList ++ ['Z'])) =
      .some (n * 10 ^ (9 - width), ['Z']) := by
  have length := length_padded fits some
  have taken : (((padded width n).toList ++ ['Z']).take 9).takeWhile Char.isDigit =
      (padded width n).toList := by
    rw [List.take_append, List.take_of_length_le (by omega),
      List.takeWhile_append_of_pos fun c hc => isDigit_padded hc]
    rw [takeWhile_take_stops (by rintro c ⟨⟩; rfl), List.append_nil]
  have present : (padded width n).toList.isEmpty = false := by
    simpa using padded_ne_nil width n
  have left : (((padded width n).toList ++ ['Z']).drop width).dropWhile Char.isDigit = ['Z'] := by
    rw [List.drop_left' length]
    rfl
  simp only [fraction?, taken, present, length, digitsValue_zeros, digitsValue_padded, left]
  rfl

theorem fraction?_fractionText {nanos : Nat} (below : nanos < 1000000000) :
    fraction? ((fractionText nanos).toList ++ ['Z']) = some (nanos, ['Z']) := by
  have point : ".".toList = ['.'] := rfl
  unfold fractionText
  split
  · rename_i none
    subst none
    rfl
  · split
    · have read : fraction? ('.' :: ((padded 3 (nanos / 1000000)).toList ++ ['Z'])) = _ :=
        fraction?_padded (by omega) (by decide) (by decide)
      have whole : nanos / 1000000 * 10 ^ (9 - 3) = nanos := by omega
      simp only [String.toList_append, point, List.cons_append, List.nil_append, read, whole]
    · split
      · have read : fraction? ('.' :: ((padded 6 (nanos / 1000)).toList ++ ['Z'])) = _ :=
          fraction?_padded (by omega) (by decide) (by decide)
        have whole : nanos / 1000 * 10 ^ (9 - 6) = nanos := by omega
        simp only [String.toList_append, point, List.cons_append, List.nil_append, read, whole]
      · have read : fraction? ('.' :: ((padded 9 nanos).toList ++ ['Z'])) = _ :=
          fraction?_padded (by omega) (by decide) (by decide)
        have whole : nanos * 10 ^ (9 - 9) = nanos := by omega
        simp only [String.toList_append, point, List.cons_append, List.nil_append, read, whole]

end Rfc3339

namespace Instant

structure IsReal (t : Instant) : Prop where
  year : Rfc3339.yearInRange (Date.ofDay (Int.fdiv t.seconds 86400)).year = true
  leap : 1000000000 ≤ t.nanos → t.seconds % 60 = 59

open Rfc3339

theorem assemble?_eq {date : Date} {hour minute second nanos : Nat} {offset : Int} {t : Instant}
    (valid : date.Valid) (year : yearInRange date.year = true)
    (isSeconds : date.toDay * 86400 + hour * 3600 + minute * 60 +
      ((second - (if second = 60 then 1 else 0) : Nat) : Int) - offset = t.seconds)
    (last : yearInRange (Date.ofDay (Int.fdiv t.seconds 86400)).year = true)
    (isNanos : nanos + (if second = 60 then 1 else 0) * 1000000000 = t.nanos) :
    assemble? date hour minute second nanos offset = some t := by
  obtain ⟨seconds, parts, below⟩ := t
  simp only at isSeconds last isNanos
  subst isSeconds isNanos
  simp only [assemble?, valid, year, last, and_self, guard, if_true, Option.bind_eq_bind,
    Option.pure_def, Option.bind_some, dif_pos below]

theorem assemble?_parts {t : Instant} (real : t.IsReal) :
    let ofDay := (Int.fmod t.seconds 86400).toNat
    assemble? (Date.ofDay (Int.fdiv t.seconds 86400)) (ofDay / 3600) (ofDay / 60 % 60)
      (ofDay % 60 + t.nanos / 1000000000) (t.nanos % 1000000000) 0 = some t := by
  obtain ⟨year, leap⟩ := real
  intro ofDay
  have isRest : (ofDay : Int) = Int.fmod t.seconds 86400 := by
    refine Int.toNat_of_nonneg ?_
    rw [Int.fmod_eq_emod_of_nonneg _ (by decide)]
    exact Int.emod_nonneg _ (by decide)
  have sum : Int.fdiv t.seconds 86400 * 86400 + ofDay = t.seconds := by
    rw [isRest, Int.fdiv_eq_ediv_of_nonneg _ (by decide), Int.fmod_eq_emod_of_nonneg _ (by decide)]
    omega
  have below := t.nanos_lt
  refine assemble?_eq (valid_ofDay _) year ?_ year ?_
  · rw [toDay_ofDay]
    split
    · omega
    · omega
  · split
    · omega
    · omega

theorem parse?_parts {year : Int} {month day hour minute second nanos : Nat} {t : Instant}
    (isMonth : 1 ≤ month ∧ month ≤ 12) (isDay : 1 ≤ day ∧ day ≤ 31) (isHour : hour ≤ 23)
    (isMinute : minute ≤ 59) (isSecond : second ≤ 60) (isNanos : nanos < 1000000000)
    (assembled : assemble? ⟨year, month, day⟩ hour minute second nanos 0 = some t) :
    parse? ((yearText year).toList ++ '-' :: ((padded 2 month).toList ++ '-' ::
      ((padded 2 day).toList ++ 'T' :: ((padded 2 hour).toList ++ ':' ::
      ((padded 2 minute).toList ++ ':' :: ((padded 2 second).toList ++
      ((fractionText nanos).toList ++ ['Z']))))))) = some t := by
  have dash : ∀ rest, mark? '-' ('-' :: rest) = some rest := mark?_cons (by decide)
  have colon : ∀ rest, mark? ':' (':' :: rest) = some rest := mark?_cons (by decide)
  have zone : offset? (skipBlanks ['Z']) = some (0, []) := by decide
  refine Option.bind_eq_some_iff.mpr ⟨_, year?_yearText year _, ?_⟩
  refine Option.bind_eq_some_iff.mpr ⟨_, dash _, ?_⟩
  refine Option.bind_eq_some_iff.mpr ⟨_, field?_padded isMonth (by omega) _, ?_⟩
  refine Option.bind_eq_some_iff.mpr ⟨_, dash _, ?_⟩
  refine Option.bind_eq_some_iff.mpr ⟨_, field?_padded isDay (by omega) _, ?_⟩
  refine Option.bind_eq_some_iff.mpr ⟨_, rfl, ?_⟩
  refine Option.bind_eq_some_iff.mpr ⟨_, field?_padded ⟨Nat.zero_le _, isHour⟩ (by omega) _, ?_⟩
  refine Option.bind_eq_some_iff.mpr ⟨_, colon _, ?_⟩
  refine Option.bind_eq_some_iff.mpr ⟨_, field?_padded ⟨Nat.zero_le _, isMinute⟩ (by omega) _, ?_⟩
  refine Option.bind_eq_some_iff.mpr ⟨_, colon _, ?_⟩
  refine Option.bind_eq_some_iff.mpr ⟨_, field?_padded ⟨Nat.zero_le _, isSecond⟩ (by omega) _, ?_⟩
  refine Option.bind_eq_some_iff.mpr ⟨_, fraction?_fractionText isNanos, ?_⟩
  refine Option.bind_eq_some_iff.mpr ⟨_, zone, ?_⟩
  exact Option.bind_eq_some_iff.mpr ⟨(), rfl, assembled⟩

theorem ofText?_toText {t : Instant} (real : t.IsReal) : ofText? t.toText = some t := by
  have assembled := assemble?_parts real
  obtain ⟨fromMonth, toMonth, fromDay, toDay⟩ := valid_ofDay (Int.fdiv t.seconds 86400)
  have days : monthLength (Date.ofDay (Int.fdiv t.seconds 86400)).year
      (Date.ofDay (Int.fdiv t.seconds 86400)).month ≤ 31 := by
    unfold monthLength
    split_ifs <;> omega
  have rest : (Int.fmod t.seconds 86400).toNat < 86400 := by
    have := Int.fmod_lt_of_pos t.seconds (show (0 : Int) < 86400 by decide)
    omega
  have nanos := t.nanos_lt
  have dash : "-".toList = ['-'] := rfl
  have colon : ":".toList = [':'] := rfl
  have tee : "T".toList = ['T'] := rfl
  have zed : "Z".toList = ['Z'] := rfl
  rw [ofText?, toText]
  simp only [String.toList_append, dash, colon, tee, zed, List.append_assoc, List.cons_append,
    List.nil_append]
  exact parse?_parts ⟨fromMonth, toMonth⟩ ⟨fromDay, Nat.le_trans toDay days⟩ (by omega) (by omega)
    (by omega) (by omega) assembled

theorem ofDigitChars_lt {ds : List Char} (all : ∀ c ∈ ds, c.isDigit = true) (v : Nat) :
    Nat.ofDigitChars 10 ds v < (v + 1) * 10 ^ ds.length := by
  induction ds generalizing v with
  | nil => simp
  | cons c ds ih =>
    have digit := all c List.mem_cons_self
    simp only [Char.isDigit, Bool.and_eq_true, decide_eq_true_eq, UInt32.le_iff_toNat_le] at digit
    have small : c.toNat - '0'.toNat ≤ 9 := by
      have high : c.toNat ≤ 57 := digit.2
      have zero : '0'.toNat = 48 := rfl
      omega
    rw [Nat.ofDigitChars_cons]
    calc Nat.ofDigitChars 10 ds (10 * v + (c.toNat - '0'.toNat))
        < (10 * v + (c.toNat - '0'.toNat) + 1) * 10 ^ ds.length :=
          ih (fun d hd => all d (List.mem_cons_of_mem c hd)) _
      _ ≤ (10 * (v + 1)) * 10 ^ ds.length := Nat.mul_le_mul_right _ (by omega)
      _ = (v + 1) * 10 ^ (c :: ds).length := by
          rw [List.length_cons, Nat.pow_succ, Nat.mul_comm 10, Nat.mul_assoc, Nat.mul_comm 10]

theorem fraction?_lt {cs rest : List Char} {nanos : Nat} (h : fraction? cs = some (nanos, rest)) :
    nanos < 1000000000 := by
  unfold fraction? at h
  split at h
  · rename_i cs
    generalize found : (cs.take 9).takeWhile Char.isDigit = digits at h
    have length : digits.length ≤ 9 := by
      rw [← found]
      exact Nat.le_trans (List.takeWhile_sublist _).length_le (List.length_take_le 9 cs)
    have all : ∀ c ∈ digits ++ List.replicate (9 - digits.length) '0', c.isDigit = true := by
      intro c hc
      rcases List.mem_append.mp hc with digit | zero
      · exact List.mem_takeWhile_imp (found ▸ digit)
      · rw [List.eq_of_mem_replicate zero]
        rfl
    have small := ofDigitChars_lt all 0
    rw [← digitsValue_eq, List.length_append, List.length_replicate,
      Nat.add_sub_cancel' length] at small
    dsimp only at h
    split at h
    · cases h
    · cases h
      exact small
  · cases h
    decide

theorem signedOffset?_whole {negative : Bool} {cs rest : List Char} {offset : Int}
    (h : signedOffset? negative cs = some (offset, rest)) : offset % 60 = 0 := by
  simp only [signedOffset?, Option.bind_eq_bind, Option.bind_eq_some_iff, Prod.exists] at h
  obtain ⟨hours, _, _, minutes, _, _, h⟩ := h
  split at h
  · cases h
  · cases h
    split <;> omega

theorem plain_whole {cs rest : List Char} {offset : Int}
    (h : offset?.plain cs = some (offset, rest)) : offset % 60 = 0 := by
  unfold offset?.plain at h
  split at h
  · cases h
    rfl
  · cases h
    rfl
  · exact signedOffset?_whole h
  · exact signedOffset?_whole h
  · exact signedOffset?_whole h
  · cases h

theorem offset?_whole {cs rest : List Char} {offset : Int}
    (h : offset? cs = some (offset, rest)) : offset % 60 = 0 := by
  unfold offset? at h
  split at h
  · split at h
    · cases h
      rfl
    · exact plain_whole h
  · exact plain_whole h

theorem assemble?_real {date : Date} {hour minute second nanos : Nat} {offset : Int} {t : Instant}
    (below : nanos < 1000000000) (whole : offset % 60 = 0)
    (h : assemble? date hour minute second nanos offset = some t) : t.IsReal := by
  simp only [assemble?, Option.bind_eq_bind, Option.bind_eq_some_iff, Option.guard_eq_some'] at h
  obtain ⟨-, -, -, inRange, h⟩ := h
  by_cases last : second = 60
  · simp only [if_pos last] at h inRange
    subst last
    rw [Option.dite_none_right_eq_some] at h
    obtain ⟨_, h⟩ := h
    cases h
    exact ⟨inRange, fun _ => by dsimp only; omega⟩
  · simp only [if_neg last] at h inRange
    rw [Option.dite_none_right_eq_some] at h
    obtain ⟨_, h⟩ := h
    cases h
    exact ⟨inRange, fun leap => by dsimp only at leap; omega⟩

theorem isReal_of_time {date : Date} {cs : List Char} {t : Instant}
    (h : (do
      let (hour, cs) ← field? 0 23 cs
      let cs ← mark? ':' cs
      let (minute, cs) ← field? 0 59 cs
      let cs ← mark? ':' cs
      let (second, cs) ← field? 0 60 cs
      let (nanos, cs) ← fraction? cs
      let (offset, cs) ← offset? (skipBlanks cs)
      guard (skipBlanks cs).isEmpty
      assemble? date hour minute second nanos offset) = some t) : t.IsReal := by
  obtain ⟨⟨hour, _⟩, -, h⟩ := Option.bind_eq_some_iff.mp h
  obtain ⟨_, -, h⟩ := Option.bind_eq_some_iff.mp h
  obtain ⟨⟨minute, _⟩, -, h⟩ := Option.bind_eq_some_iff.mp h
  obtain ⟨_, -, h⟩ := Option.bind_eq_some_iff.mp h
  obtain ⟨⟨second, _⟩, -, h⟩ := Option.bind_eq_some_iff.mp h
  obtain ⟨⟨nanos, _⟩, fraction, h⟩ := Option.bind_eq_some_iff.mp h
  obtain ⟨⟨offset, _⟩, zone, h⟩ := Option.bind_eq_some_iff.mp h
  obtain ⟨_, -, h⟩ := Option.bind_eq_some_iff.mp h
  exact assemble?_real (fraction?_lt fraction) (offset?_whole zone) h

theorem isReal_of_ofText? {s : String} {t : Instant} (h : ofText? s = some t) : t.IsReal := by
  obtain ⟨⟨year, _⟩, -, h⟩ := Option.bind_eq_some_iff.mp h
  obtain ⟨_, -, h⟩ := Option.bind_eq_some_iff.mp h
  obtain ⟨⟨month, _⟩, -, h⟩ := Option.bind_eq_some_iff.mp h
  obtain ⟨_, -, h⟩ := Option.bind_eq_some_iff.mp h
  obtain ⟨⟨day, cs⟩, -, h⟩ := Option.bind_eq_some_iff.mp h
  dsimp only at h
  split at h
  · exact isReal_of_time h
  · exact isReal_of_time h
  · exact isReal_of_time h
  · cases h

end Instant

end DiagramShare.Time
