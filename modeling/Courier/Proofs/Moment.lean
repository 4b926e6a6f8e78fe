import Mathlib.Algebra.Group.Nat.Defs
import Courier.Moment
import Courier.Proofs.Decimal.Digits

/-!
# Reading back moments

The written form of a moment reads back as the moment: the years on both sides of four digits, the
leap second of a minute and every width of the fraction included. A leap second behind another
second than the last of a minute has no text of its own: it reads back as the next second.
-/

namespace Courier.Moment

open Decimal (Stops takeWhile_isDigit_of_stops)

-- ---------------------------------------------------------------------------
-- Padded numbers
-- ---------------------------------------------------------------------------

theorem isDigit_of_mem_padded (h : c ∈ padded width n) : Decimal.isDigit c = true := by
  rw [padded, List.mem_append] at h
  cases h with
  | inl zero =>
    rw [List.eq_of_mem_replicate zero]
    rfl
  | inr digit => exact Decimal.isDigit_of_mem_toDigits digit

theorem ofDigits_padded (width n : Nat) : Decimal.ofDigits (padded width n) = n := by
  rw [padded, Decimal.ofDigits_replicate_append, Decimal.ofDigits_toDigits]

theorem padded_ne_nil (width n : Nat) : padded width n ≠ [] := by
  simp [padded, Nat.toDigits_ne_nil]

theorem length_padded (hw : 0 < width) (hn : n < 10 ^ width) : (padded width n).length = width := by
  have hle := (Nat.length_toDigits_le_iff (by decide) hw).2 hn
  simp only [padded, List.length_append, List.length_replicate]
  omega

theorem isBlank_eq_false_of_isDigit (h : Decimal.isDigit c = true) : Text.isBlank c = false := by
  simp only [Decimal.isDigit, Bool.and_eq_true, decide_eq_true_eq] at h
  simp only [Text.isBlank, Bool.or_eq_false_iff, Bool.and_eq_false_iff, decide_eq_false_iff_not,
    beq_eq_false_iff_ne]
  omega

theorem trimStart_padded_append (rest : List Char) :
    Text.trimStart (padded width n ++ rest) = padded width n ++ rest := by
  obtain ⟨c, cs, hcs⟩ := List.exists_cons_of_ne_nil (padded_ne_nil width n)
  have hc : Text.isBlank c = false :=
    isBlank_eq_false_of_isDigit (isDigit_of_mem_padded (hcs ▸ List.mem_cons_self))
  rw [hcs, List.cons_append, Text.trimStart, List.dropWhile_cons, hc]
  rfl

-- ---------------------------------------------------------------------------
-- Numbers
-- ---------------------------------------------------------------------------

theorem number_padded (hle : (padded width n).length ≤ most) (hn : n < 9223372036854775808)
    (stop : (padded width n).length = most ∨ Stops rest) :
    number most (padded width n ++ rest) = .ok (n, rest) := by
  have hdigits : ∀ c ∈ padded width n, Decimal.isDigit c = true := fun c => isDigit_of_mem_padded
  have htake : ((padded width n ++ rest).take most).takeWhile Decimal.isDigit = padded width n := by
    rw [List.take_append, List.take_of_length_le hle, List.takeWhile_append_of_pos hdigits]
    cases stop with
    | inl full => simp [full]
    | inr stops =>
      cases hk : most - (padded width n).length with
      | zero => simp
      | succ k =>
        have : Stops (rest.take (k + 1)) := by
          cases rest with
          | nil => exact stops
          | cons c rest => exact stops
        rw [takeWhile_isDigit_of_stops this, List.append_nil]
  obtain ⟨c, cs, hcs⟩ := List.exists_cons_of_ne_nil (padded_ne_nil width n)
  have hc : Decimal.isDigit c = true := hdigits c (hcs ▸ List.mem_cons_self)
  have hfirst : padded width n ++ rest = c :: (cs ++ rest) := by rw [hcs, List.cons_append]
  rw [number.eq_def]
  split
  · next h => rw [hfirst] at h; cases h
  · next c' cs' h =>
    obtain ⟨rfl, -⟩ := List.cons.inj (hfirst ▸ h)
    simp only [hc, if_true, htake, ofDigits_padded, hn, List.drop_left]

theorem field_padded (hlow : low ≤ n) (hhigh : n ≤ high) (hn : n < 100) :
    field low high (padded 2 n ++ rest) = .ok (n, rest) := by
  have hlen : (padded 2 n).length = 2 := length_padded (by decide) hn
  rw [field, trimStart_padded_append, number_padded (by omega) (by omega) (.inl hlen)]
  simp only [bind, Except.bind, hlow, hhigh, and_self, if_true]
  rfl

-- ---------------------------------------------------------------------------
-- Years
-- ---------------------------------------------------------------------------

theorem number_year (rest : List Char) (hn : n < 9223372036854775808) :
    number (padded 4 n ++ '-' :: rest).length (padded 4 n ++ '-' :: rest) =
      .ok (n, '-' :: rest) := by
  have stops : Stops ('-' :: rest) := by
    rintro c ⟨⟩
    rfl
  exact number_padded (by simp) hn (.inr stops)

theorem readYear_negative (rest : List Char) (hn : n ≤ 2147483648) :
    readYear ('-' :: (padded 4 n ++ '-' :: rest)) = .ok (-(n : Int), '-' :: rest) := by
  have htrim : Text.trimStart ('-' :: (padded 4 n ++ '-' :: rest)) =
      '-' :: (padded 4 n ++ '-' :: rest) := rfl
  have inRange : -2147483648 ≤ -(n : Int) ∧ -(n : Int) < 2147483648 := by omega
  simp only [readYear, htrim, number_year rest (n := n) (by omega), Except.map, bind, Except.bind,
    if_pos inRange]
  rfl

theorem readYear_positive (rest : List Char) (hn : n < 2147483648) :
    readYear ('+' :: (padded 4 n ++ '-' :: rest)) = .ok ((n : Int), '-' :: rest) := by
  have htrim : Text.trimStart ('+' :: (padded 4 n ++ '-' :: rest)) =
      '+' :: (padded 4 n ++ '-' :: rest) := rfl
  have inRange : -2147483648 ≤ (n : Int) ∧ (n : Int) < 2147483648 := by omega
  simp only [readYear, htrim, number_year rest (n := n) (by omega), Except.map, bind, Except.bind,
    if_pos inRange]
  rfl

theorem readYear_plain (rest : List Char) (hn : n < 10000) :
    readYear (padded 4 n ++ '-' :: rest) = .ok ((n : Int), '-' :: rest) := by
  have hlen : (padded 4 n).length = 4 := length_padded (by decide) hn
  have hnumber : number 4 (padded 4 n ++ '-' :: rest) = .ok (n, '-' :: rest) :=
    number_padded (by omega) (by omega) (.inl hlen)
  have inRange : -2147483648 ≤ (n : Int) ∧ (n : Int) < 2147483648 := by omega
  obtain ⟨c, cs, hcs⟩ := List.exists_cons_of_ne_nil (padded_ne_nil 4 n)
  have hc : Decimal.isDigit c = true := isDigit_of_mem_padded (hcs ▸ List.mem_cons_self)
  rw [readYear, trimStart_padded_append]
  split
  · next h =>
    rw [hcs] at h
    cases h
    cases hc
  · next h =>
    rw [hcs] at h
    cases h
    cases hc
  · simp only [hnumber, Except.map, bind, Except.bind, if_pos inRange]
    rfl

theorem readYear_yearChars (rest : List Char) (hy : -262143 ≤ year ∧ year ≤ 262142) :
    readYear (yearChars year ++ '-' :: rest) = .ok (year, '-' :: rest) := by
  rw [yearChars]
  split
  · next four =>
    rw [readYear_plain rest (by omega), Int.toNat_of_nonneg four.1]
  · by_cases negative : year < 0
    · rw [if_pos negative, List.cons_append, readYear_negative rest (by omega),
        Int.ofNat_natAbs_of_nonpos (by omega), Int.neg_neg]
    · rw [if_neg negative, List.cons_append, readYear_positive rest (by omega),
        Int.natAbs_of_nonneg (by omega)]

-- ---------------------------------------------------------------------------
-- Fractions
-- ---------------------------------------------------------------------------

theorem readFraction_padded (hw : 0 < width) (hle : width ≤ 9) (hn : n < 10 ^ width) :
    readFraction ('.' :: (padded width n ++ ['Z'])) = .ok (n * 10 ^ (9 - width), ['Z']) := by
  have hlen : (padded width n).length = width := length_padded hw hn
  have hpow : 10 ^ width ≤ 10 ^ 9 := Nat.pow_le_pow_right (by decide) hle
  have stops : Stops ['Z'] := by
    rintro c ⟨⟩
    rfl
  have hwidth : (padded width n ++ ['Z']).length - ['Z'].length = width := by
    simp [hlen]
  simp only [readFraction, number_padded (hlen ▸ hle) (by omega) (.inr stops), bind, Except.bind,
    hwidth]
  rfl

theorem readFraction_fractionChars {nano : Nat} (h : nano < 1000000000) :
    readFraction (fractionChars nano ++ ['Z']) = .ok (nano, ['Z']) := by
  rw [fractionChars]
  split
  · next zero =>
    subst zero
    rfl
  · split
    · next milli =>
      rw [List.cons_append, readFraction_padded (by decide) (by decide) (by omega)]
      have : nano / 1000000 * 10 ^ (9 - 3) = nano := by omega
      rw [this]
    · split
      · next micro =>
        rw [List.cons_append, readFraction_padded (by decide) (by decide) (by omega)]
        have : nano / 1000 * 10 ^ (9 - 6) = nano := by omega
        rw [this]
      · rw [List.cons_append, readFraction_padded (by decide) (by decide) (by omega)]
        simp

-- ---------------------------------------------------------------------------
-- Moments
-- ---------------------------------------------------------------------------

theorem day_le (d : Date) : d.day ≤ 31 := by
  have h := d.day_mem.2
  have : daysInMonth d.year d.month ≤ 31 := by
    unfold daysInMonth
    split
    · split <;> decide
    all_goals decide
  omega

theorem of?_date (d : Date) : Date.of? d.year d.month d.day = some d := by
  rw [Date.of?, dif_pos ⟨d.year_mem, d.month_mem, d.day_mem⟩]

theorem shift_zero (m : Moment) : shift m 0 = .ok m := by
  have hh := m.hour_lt
  have hm := m.minute_lt
  have early : ¬ ((m.hour : Int) * 60 + m.minute - 0 < 0) := by omega
  have late : ¬ (1440 ≤ (m.hour : Int) * 60 + m.minute - 0) := by omega
  have hour : ((((m.hour : Int) * 60 + m.minute - 0) % 1440).toNat) / 60 = m.hour := by omega
  have minute : ((((m.hour : Int) * 60 + m.minute - 0) % 1440).toNat) % 60 = m.minute := by omega
  simp only [shift, if_neg early, if_neg late, hour, minute]

/-- Whether a moment has a text of its own. -/
def Writable (m : Moment) : Prop :=
  m.nano < 1000000000 ∨ m.second = 59

instance (m : Moment) : Decidable m.Writable :=
  inferInstanceAs (Decidable (_ ∨ _))

/-- The moment that a text says when it was written for `m`. -/
def arriving (m : Moment) : Moment :=
  if h : m.Writable then m
  else
    { m with
      second := m.second + 1
      nano := m.nano - 1000000000
      second_lt := by
        have := m.second_lt
        unfold Writable at h
        omega
      nano_lt := by
        have := m.nano_lt
        omega }

theorem arriving_eq_iff {m : Moment} : m.arriving = m ↔ m.Writable := by
  rw [arriving]
  split
  · next h => exact iff_of_true rfl h
  · next h => exact iff_of_false (fun same => Nat.succ_ne_self _ (congrArg second same)) h

theorem placed_eq (m : Moment) :
    placed (m.second + m.nano / 1000000000) (m.nano % 1000000000) =
      (m.arriving.second, m.arriving.nano) := by
  have hsecond := m.second_lt
  have hnano := m.nano_lt
  rw [placed, arriving]
  split <;> split <;> next written =>
    unfold Writable at written
    refine Prod.ext ?_ ?_ <;> simp only <;> omega

/-- A moment is read back from its text, as far as it has one of its own. -/
theorem parse_text (m : Moment) : parse m.text = .ok m.arriving := by
  have hday := day_le m.date
  have hh := m.hour_lt
  have hmin := m.minute_lt
  have hsec := m.second_lt
  have hnano := m.nano_lt
  have hmonth := m.date.month_mem
  have hd := m.date.day_mem
  have dash (rest : List Char) : Text.trimStart ('-' :: rest) = '-' :: rest := rfl
  have colon (rest : List Char) : Text.trimStart (':' :: rest) = ':' :: rest := rfl
  have literal_cons (c : Char) (rest : List Char) : literal c (c :: rest) = .ok rest := by
    simp [literal]
  have offset : readOffset (Text.trimStart ['Z']) = .ok (0, []) := rfl
  have valid : m.hour < 24 ∧ m.minute < 60 ∧ m.arriving.second < 60 ∧
      m.arriving.nano < 2000000000 :=
    ⟨hh, hmin, m.arriving.second_lt, m.arriving.nano_lt⟩
  have hsame : m.arriving.date = m.date ∧ m.arriving.hour = m.hour ∧
      m.arriving.minute = m.minute := by
    rw [arriving]
    split <;> exact ⟨rfl, rfl, rfl⟩
  simp only [parse, text, String.toList_ofList, chars, List.append_assoc, List.cons_append,
    readYear_yearChars _ m.date.year_mem, bind, Except.bind, dash, colon, literal_cons,
    field_padded hmonth.1 hmonth.2 (by omega), field_padded hd.1 hday (by omega),
    field_padded (Nat.zero_le m.hour) (by omega : m.hour ≤ 23) (by omega),
    field_padded (Nat.zero_le m.minute) (by omega : m.minute ≤ 59) (by omega),
    field_padded (Nat.zero_le (m.second + m.nano / 1000000000))
      (by omega : m.second + m.nano / 1000000000 ≤ 60) (by omega),
    readFraction_fractionChars (Nat.mod_lt m.nano (by decide : 0 < 1000000000)), placed_eq,
    offset, of?_date, dif_pos valid]
  have hmoment : (⟨m.date, m.hour, m.minute, m.arriving.second, m.arriving.nano, valid.1,
      valid.2.1, valid.2.2.1, valid.2.2.2⟩ : Moment) = m.arriving := by
    obtain ⟨hdate, hhour, hminute⟩ := hsame
    simp only [← hdate, ← hhour, ← hminute]
  exact (congrArg (shift · 0) hmoment).trans (shift_zero m.arriving)

end Courier.Moment
