import Courier.Json.Token
import Courier.Proofs.Decimal.Digits

/-!
# Numerals

Every finite number is written as a numeral of the grammar, positional or with an exponent. In
front of a text that does not go on with a digit, a point or an exponent, the numeral is scanned
to its end. Integers are read back from theirs.
-/

namespace Courier.Json

open Decimal (Stops)

-- ---------------------------------------------------------------------------
-- Numerals
-- ---------------------------------------------------------------------------

def Digits (ds : List Char) : Prop :=
  ds ≠ [] ∧ ∀ c ∈ ds, Decimal.isDigit c = true

theorem digits_zero : Digits ['0'] := by
  refine ⟨List.cons_ne_nil _ _, fun c hc => ?_⟩
  rw [List.mem_singleton.1 hc]
  decide

namespace Numeral

/-- A zero stands alone before the point, and digits where the grammar asks for them. -/
structure WellFormed (n : Numeral) : Prop where
  whole : n.whole = ['0'] ∨ Digits n.whole ∧ n.whole.head? ≠ some '0'
  fraction : ∀ ds ∈ n.fraction, Digits ds
  exponent : ∀ e ∈ n.exponent, Digits e.2

def fractionChars : Option (List Char) → List Char
  | none => []
  | some ds => '.' :: ds

def exponentChars : Option (Bool × List Char) → List Char
  | none => []
  | some (negative, ds) => 'e' :: (if negative then '-' else '+') :: ds

def chars (n : Numeral) : List Char :=
  (if n.negative then ['-'] else []) ++
    (n.whole ++ (fractionChars n.fraction ++ exponentChars n.exponent))

variable {n : Numeral}

theorem WellFormed.digits_whole (h : n.WellFormed) : Digits n.whole := by
  cases h.whole with
  | inl zero =>
    rw [zero]
    exact digits_zero
  | inr other => exact other.1

theorem WellFormed.exists_first (h : n.WellFormed) :
    ∃ c cs, n.chars = c :: cs ∧ (c = '-' ∨ Decimal.isDigit c = true) := by
  obtain ⟨negative, whole, fraction, exponent⟩ := n
  obtain ⟨d, ds, rfl⟩ := List.exists_cons_of_ne_nil h.digits_whole.1
  cases negative with
  | true => exact ⟨'-', _, rfl, .inl rfl⟩
  | false => exact ⟨d, _, rfl, .inr (h.digits_whole.2 d List.mem_cons_self)⟩

end Numeral

namespace Token

/-- A numeral is over where these characters follow it. -/
def Ends (cs : List Char) : Prop :=
  ∀ c ∈ cs.head?, Decimal.isDigit c = false ∧ c ≠ '.' ∧ c ≠ 'e' ∧ c ≠ 'E'

theorem Ends.stops (h : Ends cs) : Stops cs :=
  fun c hc => (h c hc).1

theorem scanDigits_append (h : Digits ds) (hrest : Stops rest) :
    scanDigits (ds ++ rest) = some (ds, rest) := by
  rw [scanDigits, List.takeWhile_append_of_pos h.2, List.dropWhile_append_of_pos h.2,
    Decimal.takeWhile_isDigit_of_stops hrest, Decimal.dropWhile_isDigit_of_stops hrest,
    List.append_nil]
  cases ds with
  | nil => exact absurd rfl h.1
  | cons d ds => rfl

theorem scanExponent_append {exponent : Option (Bool × List Char)}
    (h : ∀ e ∈ exponent, Digits e.2) (hrest : Ends rest) :
    scanExponent (Numeral.exponentChars exponent ++ rest) = some (exponent, rest) := by
  cases exponent with
  | none =>
    cases rest with
    | nil => rfl
    | cons c rest =>
      obtain ⟨-, -, he, hE⟩ := hrest c rfl
      simp [Numeral.exponentChars, scanExponent, he, hE]
  | some e =>
    obtain ⟨negative, ds⟩ := e
    have hds := scanDigits_append (h _ rfl) hrest.stops
    cases negative <;> simp [Numeral.exponentChars, scanExponent, hds]

theorem stops_exponentChars (hrest : Ends rest) :
    ∀ c ∈ (Numeral.exponentChars exponent ++ rest).head?, Decimal.isDigit c = false ∧ c ≠ '.' := by
  cases exponent with
  | none => exact fun c hc => ⟨(hrest c hc).1, (hrest c hc).2.1⟩
  | some e =>
    rintro c ⟨⟩
    decide

theorem scanFraction_append {fraction : Option (List Char)} (h : ∀ ds ∈ fraction, Digits ds)
    (hrest : ∀ c ∈ rest.head?, Decimal.isDigit c = false ∧ c ≠ '.') :
    scanFraction (Numeral.fractionChars fraction ++ rest) = some (fraction, rest) := by
  cases fraction with
  | none =>
    cases rest with
    | nil => rfl
    | cons c rest =>
      have hpoint : c ≠ '.' := (hrest c rfl).2
      simp [Numeral.fractionChars, scanFraction, hpoint]
  | some ds =>
    have hds := scanDigits_append (h ds rfl) fun c hc => (hrest c hc).1
    simp [Numeral.fractionChars, scanFraction, hds]

theorem stops_fractionChars (fraction : Option (List Char))
    (hrest : ∀ c ∈ rest.head?, Decimal.isDigit c = false ∧ c ≠ '.') :
    Stops (Numeral.fractionChars fraction ++ rest) := by
  cases fraction with
  | none => exact fun c hc => (hrest c hc).1
  | some ds =>
    rintro c ⟨⟩
    decide

theorem scanWhole_append (h : whole = ['0'] ∨ Digits whole ∧ whole.head? ≠ some '0')
    (hrest : Stops rest) : scanWhole (whole ++ rest) = some (whole, rest) := by
  cases h with
  | inl zero => rw [zero]; rfl
  | inr other =>
    obtain ⟨hdigits, hfirst⟩ := other
    have hscan := scanDigits_append hdigits hrest
    obtain ⟨d, ds, rfl⟩ := List.exists_cons_of_ne_nil hdigits.1
    have hd : d ≠ '0' := by simpa using hfirst
    rw [List.cons_append] at hscan ⊢
    simp [scanWhole, hd, hscan]

theorem scanMagnitude_append {n : Numeral} (h : n.WellFormed) (hrest : Ends rest) :
    scanMagnitude n.negative (n.whole ++
      (Numeral.fractionChars n.fraction ++ (Numeral.exponentChars n.exponent ++ rest))) =
      some (n, rest) := by
  have hexponent := scanExponent_append h.exponent hrest
  have hbehind : ∀ c ∈ (Numeral.exponentChars n.exponent ++ rest).head?,
      Decimal.isDigit c = false ∧ c ≠ '.' := stops_exponentChars hrest
  have hfraction := scanFraction_append h.fraction hbehind
  have hwhole := scanWhole_append h.whole (stops_fractionChars n.fraction hbehind)
  simp only [scanMagnitude, hwhole, hfraction, hexponent, bind, Option.bind]
  rfl

theorem scanNumeral_append {n : Numeral} (h : n.WellFormed) (hrest : Ends rest) :
    scanNumeral (n.chars ++ rest) = some (n, rest) := by
  have hmagnitude := scanMagnitude_append h hrest
  obtain ⟨negative, whole, fraction, exponent⟩ := n
  cases negative with
  | true => simpa [Numeral.chars, scanNumeral] using hmagnitude
  | false =>
    obtain ⟨d, ds, rfl⟩ := List.exists_cons_of_ne_nil h.digits_whole.1
    have hd : d ≠ '-' := by
      rintro rfl
      exact absurd (h.digits_whole.2 '-' List.mem_cons_self) (by decide)
    simpa [Numeral.chars, scanNumeral, hd] using hmagnitude

theorem scanNumeral_chars {n : Numeral} (h : n.WellFormed) :
    scanNumeral n.chars = some (n, []) := by
  have hends : Ends [] := by simp [Ends]
  simpa using scanNumeral_append h hends

end Token

-- ---------------------------------------------------------------------------
-- Numbers
-- ---------------------------------------------------------------------------

theorem digits_digits (n : Nat) : Digits (Decimal.digits n) :=
  ⟨Nat.toDigits_ne_nil, fun _ => Decimal.isDigit_of_mem_toDigits⟩

theorem isDigit_of_mem_zeros (h : c ∈ Decimal.zeros k) : Decimal.isDigit c = true := by
  rw [List.eq_of_mem_replicate h]
  decide

theorem Digits.append (h : Digits ds) (hcs : ∀ c ∈ cs, Decimal.isDigit c = true) :
    Digits (ds ++ cs) :=
  ⟨by simp [h.1], fun c hc => (List.mem_append.1 hc).elim (h.2 c) (hcs c)⟩

namespace Numeral

def Unsigned (cs : List Char) : Prop :=
  ∃ m : Numeral, m.WellFormed ∧ m.negative = false ∧ m.chars = cs

theorem Unsigned.signed (h : Unsigned cs) (negative : Bool) :
    ∃ m : Numeral, m.WellFormed ∧ m.chars = if negative then '-' :: cs else cs := by
  obtain ⟨m, hm, hsign, rfl⟩ := h
  refine ⟨{ m with negative }, ⟨hm.whole, hm.fraction, hm.exponent⟩, ?_⟩
  cases negative <;> simp [chars, hsign]

theorem unsigned_positional (n : Nat) (hzero : n = 0 → point = 1) :
    Unsigned (Decimal.positional floatNotation (Decimal.digits n) point) := by
  have hdigits := digits_digits n
  have hfirst : n ≠ 0 → (Decimal.digits n).head? ≠ some '0' := fun hn =>
    Decimal.head?_toDigits_ne_zero (Nat.pos_of_ne_zero hn)
  simp only [Decimal.positional]
  -- the point stands behind the digits, among them, or in front
  by_cases hwhole : (Decimal.digits n).length ≤ point
  · rw [if_pos hwhole]
    refine ⟨⟨false, Decimal.digits n ++ Decimal.zeros (point - (Decimal.digits n).length).toNat,
      some ['0'], none⟩, ⟨?_, ?_, ?_⟩, rfl, ?_⟩
    · by_cases hn : n = 0
      · rw [hn, hzero hn]
        exact .inl rfl
      · refine .inr ⟨hdigits.append fun c => isDigit_of_mem_zeros, ?_⟩
        obtain ⟨d, ds, hds⟩ := List.exists_cons_of_ne_nil hdigits.1
        simpa [hds] using hfirst hn
    · rintro ds ⟨⟩
      exact digits_zero
    · simp
    · simp [chars, fractionChars, exponentChars, floatNotation]
  · have hn : n ≠ 0 := by
      rintro rfl
      rw [hzero rfl] at hwhole
      exact hwhole (by decide)
    rw [if_neg hwhole]
    by_cases hpoint : 0 < point
    · rw [if_pos hpoint]
      obtain ⟨k, rfl⟩ : ∃ k : Nat, point = k + 1 := ⟨point.toNat - 1, by omega⟩
      refine ⟨⟨false, (Decimal.digits n).take (k + 1), some ((Decimal.digits n).drop (k + 1)),
        none⟩, ⟨.inr ⟨⟨?_, ?_⟩, ?_⟩, ?_, ?_⟩, rfl, ?_⟩
      · simp [hdigits.1]
      · exact fun c hc => hdigits.2 c (List.mem_of_mem_take hc)
      · simpa [List.head?_take] using hfirst hn
      · rintro ds ⟨⟩
        refine ⟨?_, fun c hc => hdigits.2 c (List.mem_of_mem_drop hc)⟩
        rw [Ne, List.drop_eq_nil_iff]
        omega
      · simp
      · have : ((k : Int) + 1).toNat = k + 1 := by omega
        simp [chars, fractionChars, exponentChars, this]
    · rw [if_neg hpoint]
      refine ⟨⟨false, ['0'], some (Decimal.zeros (-point).toNat ++ Decimal.digits n), none⟩,
        ⟨.inl rfl, ?_, ?_⟩, rfl, ?_⟩
      · rintro ds ⟨⟩
        refine ⟨by simp [hdigits.1], fun c hc => ?_⟩
        exact (List.mem_append.1 hc).elim isDigit_of_mem_zeros (hdigits.2 c)
      · simp
      · simp [chars, fractionChars, exponentChars]

theorem unsigned_scientific (n : Nat) (point : Int) :
    Unsigned (Decimal.scientific (Decimal.digits n) point) := by
  have hdigits := digits_digits n
  obtain ⟨d, ds, hds⟩ := List.exists_cons_of_ne_nil hdigits.1
  rw [hds] at hdigits ⊢
  -- Any digit may stand alone before the point.
  have hwhole : [d] = ['0'] ∨ Digits [d] ∧ [d].head? ≠ some '0' := by
    by_cases hd : d = '0'
    · exact .inl (by rw [hd])
    · have hone : ∀ c ∈ [d], Decimal.isDigit c = true := by
        simpa using hdigits.2 d List.mem_cons_self
      exact .inr ⟨⟨by simp, hone⟩, by simpa using hd⟩
  have hexponent : ∀ e ∈ some (decide (point - 1 < 0), Decimal.digits (point - 1).natAbs),
      Digits e.2 := by
    rintro e ⟨⟩
    exact digits_digits _
  cases ds with
  | nil =>
    refine ⟨⟨false, [d], none, _⟩, ⟨hwhole, by simp, hexponent⟩, rfl, ?_⟩
    simp [chars, fractionChars, exponentChars, Decimal.scientific]
  | cons d' ds =>
    refine ⟨⟨false, [d], some (d' :: ds), _⟩, ⟨hwhole, ?_, hexponent⟩, rfl, ?_⟩
    · rintro cs ⟨⟩
      exact ⟨by simp, fun c hc => hdigits.2 c (List.mem_cons_of_mem _ hc)⟩
    · simp [chars, fractionChars, exponentChars, Decimal.scientific]

theorem exists_write (x : Float) :
    ∃ m : Numeral, m.WellFormed ∧ m.chars = floatNotation.write x := by
  simp only [Decimal.Notation.write]
  refine Unsigned.signed (iteInduction (fun _ => ?_) fun _ => unsigned_scientific _ _) _
  exact unsigned_positional _ fun hzero => if_pos hzero

def ofInt (i : Int) : Numeral :=
  ⟨decide (i < 0), Decimal.digits i.natAbs, none, none⟩

theorem chars_ofInt (i : Int) : (ofInt i).chars = integerChars i := by
  by_cases hi : i < 0 <;> simp [ofInt, chars, fractionChars, exponentChars, integerChars, hi]

theorem wellFormed_ofInt (i : Int) : (ofInt i).WellFormed where
  whole := by
    cases hi : i.natAbs with
    | zero => exact .inl (by rw [ofInt, hi]; rfl)
    | succ n =>
      refine .inr ⟨digits_digits _, ?_⟩
      exact Decimal.head?_toDigits_ne_zero (by omega)
  fraction := by simp [ofInt]
  exponent := by simp [ofInt]

end Numeral

namespace Number

def numeral? (n : Number) : Option Numeral :=
  (Token.scanNumeral n.chars).map Prod.fst

variable {n : Number}

theorem numeral?_of_chars {m : Numeral} (hm : m.WellFormed) (h : n.chars = m.chars) :
    n.numeral? = some m := by
  rw [numeral?, h, Token.scanNumeral_chars hm]
  rfl

theorem numeral?_integer (i : Int) (h : InRange i) :
    (integer i h).numeral? = some (.ofInt i) :=
  numeral?_of_chars (Numeral.wellFormed_ofInt i) (Numeral.chars_ofInt i).symm

theorem chars_cases (n : Number) :
    (∃ m : Numeral, m.WellFormed ∧ n.chars = m.chars ∧ n.numeral? = some m) ∨
      n.chars = ['n', 'u', 'l', 'l'] ∧ n.numeral? = none := by
  cases n with
  | integer i h =>
    exact .inl ⟨_, Numeral.wellFormed_ofInt i, (Numeral.chars_ofInt i).symm, numeral?_integer i h⟩
  | float x =>
    by_cases hx : x.isFinite = true
    · obtain ⟨m, hm, hwrite⟩ := Numeral.exists_write x
      have hchars : (Number.float x).chars = m.chars := by rw [hwrite, chars, if_pos hx]
      exact .inl ⟨m, hm, hchars, numeral?_of_chars hm hchars⟩
    · have hchars : (Number.float x).chars = ['n', 'u', 'l', 'l'] := if_neg hx
      refine .inr ⟨hchars, ?_⟩
      rw [numeral?, hchars]
      rfl

end Number

-- ---------------------------------------------------------------------------
-- Integers
-- ---------------------------------------------------------------------------

theorem push_digitChar (hd : d < 10) (hroom : n * 10 + d < UInt64.size) :
    Gathered.push ⟨n, 0⟩ d.digitChar = ⟨n * 10 + d, 0⟩ := by
  have hvalue : ∀ d < 10, Decimal.digitValue d.digitChar = d := by decide
  simp [Gathered.push, Gathered.room, hvalue d hd, hroom]

theorem gather_digits (h : n < UInt64.size) : gather 0 (Decimal.digits n) = ⟨n, 0⟩ := by
  induction n using Nat.strongRecOn with
  | _ n ih =>
    rw [Decimal.digits]
    by_cases hn : n < 10
    · rw [Nat.toDigits_of_lt_base hn]
      simpa [gather] using push_digitChar (n := 0) hn (by omega)
    · have hrest : gather 0 (Nat.toDigits 10 (n / 10)) = ⟨n / 10, 0⟩ := ih _ (by omega) (by omega)
      have hlast := push_digitChar (n := n / 10) (Nat.mod_lt n (by decide)) (by omega)
      rw [Nat.toDigits_of_base_le (by decide) (by omega), gather, List.foldl_append]
      rw [gather] at hrest
      rw [hrest, List.foldl_cons, List.foldl_nil, hlast, Nat.div_add_mod']

theorem Numeral.toNumber?_ofInt (i : Int) (h : InRange i) :
    (ofInt i).toNumber? = some (.integer i h) := by
  have hwhole : gather 0 (Decimal.digits i.natAbs) = ⟨i.natAbs, 0⟩ := gather_digits (by
    obtain ⟨hlow, hhigh⟩ := h
    rw [UInt64.size]
    omega)
  have hsigned : (if decide (i < 0) = true then -(i.natAbs : Int) else i.natAbs) = i := by
    by_cases hi : i < 0
    · rw [if_pos (decide_eq_true hi)]
      omega
    · rw [if_neg (by simpa using hi)]
      omega
  have hzero : (decide (i < 0) && i.natAbs == 0) = false := by
    rw [Bool.and_eq_false_iff, decide_eq_false_iff_not, beq_eq_false_iff_ne]
    omega
  simp only [toNumber?, ofInt, hwhole, hzero, hsigned]
  simp [h]

end Courier.Json
