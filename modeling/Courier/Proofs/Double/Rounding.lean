import Mathlib

/-!
# Rounding of doubles

What rounding makes of a positive number whose greatest bit is at or above bit 52: a full mantissa
of 53 bits, either the bits that were there or one more, and exactly the number where no bit is
lost. Packing keeps such a number unless its exponent is too great; then it is infinite.
-/

open Float.Model Float.Model.UnpackedFloat

namespace Courier.Double

-- ---------------------------------------------------------------------------
-- Shifts
-- ---------------------------------------------------------------------------

theorem shiftRight_succ (em : ExtendedMantissa) (k : Nat) :
    em >>> (k + 1) = (em >>> k).shiftRightOne :=
  rfl

theorem shiftRightOne_two_mul (q : Nat) :
    (⟨2 * q, false, false⟩ : ExtendedMantissa).shiftRightOne = ⟨q, false, false⟩ := by
  simp [ExtendedMantissa.shiftRightOne]

theorem mantissa_shiftRight (em : ExtendedMantissa) (k : Nat) :
    (em >>> k).mantissa = em.mantissa / 2 ^ k := by
  induction k with
  | zero => exact (Nat.div_one _).symm
  | succ k ih =>
    rw [shiftRight_succ, ExtendedMantissa.shiftRightOne, ih, Nat.div_div_eq_div_mul, Nat.pow_succ]

theorem shiftRight_mul_pow (q k : Nat) :
    (⟨q * 2 ^ k, false, false⟩ : ExtendedMantissa) >>> k = ⟨q, false, false⟩ := by
  induction k generalizing q with
  | zero => exact congrArg (ExtendedMantissa.mk · false false) (Nat.mul_one q)
  | succ k ih =>
    have hq : q * 2 ^ (k + 1) = 2 * q * 2 ^ k := by
      rw [Nat.pow_succ, Nat.mul_comm (2 ^ k), ← Nat.mul_assoc, Nat.mul_comm q]
    rw [hq, shiftRight_succ, ih, shiftRightOne_two_mul]

theorem roundedMantissa_bounds (em : ExtendedMantissa) :
    em.mantissa ≤ em.roundedMantissa ∧ em.roundedMantissa ≤ em.mantissa + 1 := by
  obtain ⟨m, round, sticky⟩ := em
  cases round <;> cases sticky <;>
    simp only [ExtendedMantissa.roundedMantissa, ExtendedMantissa.accuracy,
      Accuracy.roundToNearestEven] <;> omega

-- ---------------------------------------------------------------------------
-- Rounding
-- ---------------------------------------------------------------------------

def Full (m : Nat) : Prop :=
  2 ^ 52 ≤ m ∧ m < 2 ^ 53

theorem Full.pos {m : Nat} (h : Full m) : 0 < m :=
  Nat.lt_of_lt_of_le (Nat.two_pow_pos 52) h.1

theorem Full.mul_bounds {a b : Nat} (ha : Full a) (hb : Full b) :
    2 ^ 104 ≤ a * b ∧ a * b < 2 ^ 106 := by
  rw [show 2 ^ 104 = 2 ^ 52 * 2 ^ 52 by decide, show 2 ^ 106 = 2 ^ 53 * 2 ^ 53 by decide]
  exact ⟨Nat.mul_le_mul ha.1 hb.1, Nat.mul_lt_mul'' ha.2 hb.2⟩

/-- The nearest to `M / 2 ^ s`; halfway between two it is the even one. -/
def nearest (M s : Nat) : Nat :=
  ((⟨M, false, false⟩ : ExtendedMantissa) >>> s).roundedMantissa

theorem nearest_bounds (M s : Nat) : M / 2 ^ s ≤ nearest M s ∧ nearest M s ≤ M / 2 ^ s + 1 := by
  have hbounds := roundedMantissa_bounds ((⟨M, false, false⟩ : ExtendedMantissa) >>> s)
  rwa [mantissa_shiftRight] at hbounds

theorem nearest_mul_pow (q s : Nat) : nearest (q * 2 ^ s) s = q := by
  rw [nearest, shiftRight_mul_pow]
  rfl

/-- Of `M * 2 ^ E`, which has `s` bits too many, `r * 2 ^ e` is left. -/
structure Rounds (M : Nat) (E : Int) (s : Nat) (r : Nat) (e : Int) : Prop where
  lower : 2 ^ (52 + s) ≤ M
  upper : M < 2 ^ (53 + s)
  full : Full r
  /-- Only rounding up to a power of two moves the exponent. -/
  nearest : e = E + s ∧ r = nearest M s ∨ e = E + s + 1 ∧ r = 2 ^ 52 ∧ nearest M s = 2 ^ 53

theorem Rounds.exponent {M s r : Nat} {E e : Int} (h : Rounds M E s r e) :
    e = E + s ∨ e = E + s + 1 ∧ r = 2 ^ 52 := by
  rcases h.nearest with ⟨he, -⟩ | ⟨he, hr, -⟩
  · exact .inl he
  · exact .inr ⟨he, hr⟩

theorem Rounds.exact {q s r : Nat} {E e : Int} (h : Rounds (q * 2 ^ s) E s r e) :
    e = E + s ∧ r = q := by
  have hq : q < 2 ^ 53 := by
    have hupper := h.upper
    rw [Nat.pow_add] at hupper
    exact Nat.lt_of_mul_lt_mul_right hupper
  have hnearest := h.nearest
  rw [nearest_mul_pow] at hnearest
  omega

theorem shiftToTargetExponent_eq {M s : Nat} {E : Int} (hM : 2 ^ (52 + s) ≤ M)
    (hM' : M < 2 ^ (53 + s)) (hE : -1074 ≤ E + s) :
    shiftToTargetExponent .binary64 M E .exact =
      ((⟨M, false, false⟩ : ExtendedMantissa) >>> s, E + s) := by
  have hlog : M.log2 = 52 + s := by
    have hne : M ≠ 0 := Nat.ne_of_gt (Nat.lt_of_lt_of_le (Nat.two_pow_pos _) hM)
    exact (Nat.log2_eq_iff hne).2 ⟨hM, by rwa [Nat.add_right_comm]⟩
  have htarget : Format.binary64.targetExponent (totalExponent M E) = E + s := by
    simp only [Format.targetExponent, totalExponent, Format.mantissaBits, Format.minExponent, hlog]
    omega
  have hshift : (E + s - E).toNat = s := by omega
  rw [shiftToTargetExponent, htarget, shiftToExponent, hshift]
  rfl

theorem roundWithAccuracy_of_shifts {spec : Format} {sign : Sign} {M : Nat} {E e₁ e₂ : Int}
    {em₁ em₂ : ExtendedMantissa} (hfirst : shiftToTargetExponent spec M E .exact = (em₁, e₁))
    (hsecond : shiftToTargetExponent spec em₁.roundedMantissa e₁ .exact = (em₂, e₂))
    (hpos : 0 < em₂.mantissa) :
    roundWithAccuracy spec sign M E .exact = .finite sign em₂.mantissa e₂ hpos := by
  simp only [roundWithAccuracy, hfirst, hsecond]
  exact dif_neg (Nat.ne_of_gt hpos)

theorem roundWithAccuracy_eq {M s : Nat} {E : Int} (sign : Sign) (hM : 2 ^ (52 + s) ≤ M)
    (hM' : M < 2 ^ (53 + s)) (hE : -1074 ≤ E + s) :
    ∃ r e, ∃ h : 0 < r, roundWithAccuracy .binary64 sign M E .exact = .finite sign r e h ∧
      Rounds M E s r e := by
  have hfirst := shiftToTargetExponent_eq hM hM' hE
  have hbounds := nearest_bounds M s
  have hlower : 2 ^ 52 ≤ M / 2 ^ s := by
    rw [Nat.le_div_iff_mul_le (Nat.two_pow_pos s), ← Nat.pow_add]
    exact hM
  have hupper : M / 2 ^ s < 2 ^ 53 := by
    rw [Nat.div_lt_iff_lt_mul (Nat.two_pow_pos s), ← Nat.pow_add]
    exact hM'
  by_cases hcarry : nearest M s < 2 ^ 53
  · -- the mantissa still fits, and the second shift is none
    have hsecond := shiftToTargetExponent_eq (M := nearest M s) (s := 0) (E := E + s)
      (by omega) hcarry (by omega)
    have hfull : Full (nearest M s) := ⟨by omega, hcarry⟩
    exact ⟨_, _, hfull.pos, roundWithAccuracy_of_shifts hfirst hsecond hfull.pos, hM, hM', hfull,
      .inl ⟨Int.add_zero _, rfl⟩⟩
  · -- rounding up used one more bit, which the second shift drops
    have htop : nearest M s = 2 ^ 53 := by omega
    have hsecond := shiftToTargetExponent_eq (M := nearest M s) (s := 1) (E := E + s)
      (by omega) (by omega) (by omega)
    have hhalf : ((⟨nearest M s, false, false⟩ : ExtendedMantissa) >>> 1).mantissa = 2 ^ 52 := by
      rw [htop]
      rfl
    have hpos : 0 < ((⟨nearest M s, false, false⟩ : ExtendedMantissa) >>> 1).mantissa := by omega
    exact ⟨_, _, hpos, roundWithAccuracy_of_shifts hfirst hsecond hpos, hM, hM',
      ⟨by omega, by omega⟩, .inr ⟨rfl, hhalf, htop⟩⟩

-- ---------------------------------------------------------------------------
-- Packing
-- ---------------------------------------------------------------------------

theorem toNat_append_ofNat {r : Nat} (hr : Full r) : (1#1 ++ BitVec.ofNat 52 r).toNat = r := by
  obtain ⟨hlower, hupper⟩ := hr
  rw [BitVec.toNat_append, ← Nat.shiftLeft_add_eq_or_of_lt (BitVec.ofNat 52 r).isLt,
    BitVec.toNat_ofNat]
  show 2 ^ 52 + r % 2 ^ 52 = r
  omega

theorem unpack_packComponents {r b : Nat} (hr : Full r) (hb : 0 < b) (hb' : b < 2047) :
    UnpackedFloat.unpack .binary64
        (packComponents .binary64 .positive (BitVec.ofNat 11 b) (BitVec.ofNat 52 r)) =
      .finite .positive r (b - 1075) hr.pos := by
  have htoNat : (BitVec.ofNat 11 b).toNat = b := by
    rw [BitVec.toNat_ofNat]
    omega
  have hinfinite : BitVec.ofNat 11 b ≠ -1#11 := fun h => by
    have h2047 : b = 2047 := htoNat.symm.trans (congrArg BitVec.toNat h)
    omega
  have hsubnormal : BitVec.ofNat 11 b ≠ 0#11 := fun h => by
    have hzero : b = 0 := htoNat.symm.trans (congrArg BitVec.toNat h)
    omega
  simp only [UnpackedFloat.unpack, unpackExponent_packComponents, unpackMantissa_packComponents,
    unpackSign_packComponents, Sign.ofBitVec_toBitVec, if_neg hinfinite, if_neg hsubnormal,
    toNat_append_ofNat hr, htoNat]
  rfl

theorem pack_finite {r : Nat} {e : Int} {h : 0 < r} (hr : Full r) (he : e ≤ 971) :
    UnpackedFloat.pack .binary64 (.finite .positive r e h) =
      packComponents .binary64 .positive (BitVec.ofNat 11 (e + 1075).toNat)
        (BitVec.ofNat 52 r) := by
  have hlog : r.log2 = 52 := (Nat.log2_eq_iff (Nat.ne_of_gt h)).2 hr
  have hbias : e + Format.binary64.exponentBias + Format.binary64.mantissaBitsWithoutImplicit =
      e + 1075 := Int.add_assoc e 1023 52
  rw [UnpackedFloat.pack, hbias, hlog]
  have hfits : ¬ 2048 ≤ (e + 1075).toNat + 1 := by omega
  exact (if_neg hfits).trans (if_pos rfl)

theorem unpack_pack_finite {r : Nat} {e : Int} {h : 0 < r} (hr : Full r) (he : -1074 ≤ e)
    (he' : e ≤ 971) :
    (Float.Model.pack (.finite .positive r e h)).unpack = .finite .positive r e h := by
  show UnpackedFloat.unpack .binary64 (UnpackedFloat.pack .binary64 (.finite .positive r e h)) = _
  rw [pack_finite hr he', unpack_packComponents hr (by omega) (by omega)]
  congr 1
  omega

theorem unpack_pack_zero : (Float.Model.pack (.zero .positive)).unpack = .zero .positive :=
  rfl

theorem unpack_pack_infinity :
    (Float.Model.pack (.infinity .positive)).unpack = .infinity .positive :=
  rfl

theorem unpack_pack_overflow {r : Nat} {e : Int} {h : 0 < r} (he : 972 ≤ e) :
    (Float.Model.pack (.finite .positive r e h)).unpack = .infinity .positive := by
  have hpack : UnpackedFloat.pack .binary64 (.finite .positive r e h) =
      packedInfinity .binary64 .positive := by
    have hbias : e + Format.binary64.exponentBias + Format.binary64.mantissaBitsWithoutImplicit =
        e + 1075 := Int.add_assoc e 1023 52
    rw [UnpackedFloat.pack, hbias]
    have hoverflow : 2048 ≤ (e + 1075).toNat + 1 := by omega
    exact if_pos hoverflow
  show UnpackedFloat.unpack .binary64 (UnpackedFloat.pack .binary64 (.finite .positive r e h)) = _
  rw [hpack]
  rfl

end Courier.Double
