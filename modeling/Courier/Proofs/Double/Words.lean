import Courier.Proofs.Double.Order

/-!
# Doubles and words

The double of a number of 64 bits is at most `2 ^ 64`, and every double above one has a full
mantissa. So a product of the first with a double that is not below one is never negative, and
where it is below the double of a number of 64 bits, its whole part has 64 bits too.
-/

open Float.Model Float.Model.UnpackedFloat

namespace Courier.Double

-- ---------------------------------------------------------------------------
-- Parts of any double
-- ---------------------------------------------------------------------------

theorem full_append (v : BitVec 52) : Full (1#1 ++ v).toNat := by
  have hv := v.isLt
  rw [BitVec.toNat_append, ← Nat.shiftLeft_add_eq_or_of_lt hv]
  show 2 ^ 52 ≤ 2 ^ 52 + v.toNat ∧ 2 ^ 52 + v.toNat < 2 ^ 53
  omega

theorem toNat_lt_of_ne_allOnes {v : BitVec 11} (h : v ≠ -1#11) : v.toNat < 2047 := by
  have hne : v.toNat ≠ 2047 := fun hv => h (BitVec.eq_of_toNat_eq hv)
  have hlt := v.isLt
  omega

section
variable {x y : Float} {n hi : Nat} {u : UnpackedFloat}

theorem full_of_finite {sign : Sign} {m : Nat} {e : Int} {h : 0 < m}
    (hx : parts x = .finite sign m e h) : e = -1074 ∨ Full m ∧ e ≤ 971 := by
  change UnpackedFloat.unpack .binary64 x.toModel.toBits.toBitVec = _ at hx
  simp only [UnpackedFloat.unpack] at hx
  split at hx
  · split at hx <;> cases hx
  · next hfinite =>
    split at hx
    · next hleast =>
      split at hx
      · cases hx
      · rw [UnpackedFloat.finite.injEq, hleast] at hx
        exact .inl hx.2.2.symm
    · rw [UnpackedFloat.finite.injEq] at hx
      obtain ⟨-, rfl, rfl⟩ := hx
      have hexponent := toNat_lt_of_ne_allOnes hfinite
      refine .inr ⟨full_append _, ?_⟩
      show _ - (1075 : Int) ≤ 971
      omega

theorem atLeastOne_one : AtLeastOne (parts 1) :=
  parts_one ▸ .finite ⟨by decide, by decide⟩ (by decide) (by decide)

theorem atLeastOne_of_lt (h : 1 < x) : AtLeastOne (parts x) := by
  rw [lt_iff_compare, parts_one] at h
  cases hx : parts x with
  | notANumber => simp [hx, UnpackedFloat.compare] at h
  | zero sign => simp [hx, UnpackedFloat.compare] at h
  | infinity sign =>
    cases sign with
    | positive => exact .infinite
    | negative => simp [hx, UnpackedFloat.compare] at h
  | finite sign m e _ =>
    cases sign with
    | negative => simp [hx, UnpackedFloat.compare] at h
    | positive =>
      have he : -52 ≤ e := by
        simp [hx, UnpackedFloat.compare, Ordering.then_eq_lt, Int.compare_eq_lt] at h
        omega
      rcases full_of_finite hx with rfl | ⟨hm, ht⟩
      · omega
      · exact .finite hm he ht

-- ---------------------------------------------------------------------------
-- Numbers of 64 bits
-- ---------------------------------------------------------------------------

theorem ofScientific_zero (hn : n ≠ 0) :
    UnpackedFloat.ofScientific .binary64 n 0 =
      roundWithAccuracy .binary64 .positive (n * 2 ^ 53) (-53) .exact := by
  have hgreat : ¬ (0 : Int) > 2 ^ Format.binary64.exponentBits := by decide
  have hsmall : ¬ (0 : Int) < -(2 ^ Format.binary64.exponentBits + (n.log2 : Int)) := by omega
  rw [UnpackedFloat.ofScientific, dif_neg hn, if_neg hgreat, if_neg hsmall,
    if_pos (Int.le_refl 0)]
  simp only [UnpackedFloat.mul, Nat.shiftLeft_eq, Int.toNat_zero, Nat.pow_zero, Nat.mul_one,
    Int.add_zero]
  rfl

/-- From `2 ^ 53` on, a number is not multiplied by one but rounded. -/
theorem parts_ofNat_of_le (hn : 2 ^ 53 ≤ n) :
    parts (.ofNat n) =
      (Float.Model.pack (roundWithAccuracy .binary64 .positive (n * 2 ^ 53) (-53) .exact)).unpack :=
    by
  have hgreat : ¬ (n < 2 ^ 53 ∧ 0 ≤ 22) := fun h => by omega
  rw [← ofScientific_zero (by omega)]
  simp only [Float.ofNat, OfScientific.ofScientific, Float.ofScientific, dif_neg hgreat]
  rfl

theorem between_ofNat (hpos : 0 < n) (hn : n < 2 ^ 64) : Between 0 64 (parts (.ofNat n)) := by
  by_cases hexact : n < 2 ^ 53
  · exact (shows_ofNat hexact).between hpos hexact (by omega) (by omega)
  · have hne : n ≠ 0 := Nat.ne_of_gt hpos
    have hlog : n.log2 < 64 := (Nat.log2_lt hne).2 hn
    have hlower : 2 ^ (52 + (n.log2 + 1)) ≤ n * 2 ^ 53 := by
      rw [show 52 + (n.log2 + 1) = n.log2 + 53 by omega, Nat.pow_add]
      exact Nat.mul_le_mul_right _ (Nat.log2_self_le hne)
    have hupper : n * 2 ^ 53 < 2 ^ (53 + (n.log2 + 1)) := by
      rw [Nat.add_comm 53, Nat.pow_add]
      exact Nat.mul_lt_mul_of_pos_right Nat.lt_log2_self (Nat.two_pow_pos 53)
    obtain ⟨r, c, hr, hround, hrounds⟩ :=
      roundWithAccuracy_eq (E := -53) .positive hlower hupper (by omega)
    have hexponent := hrounds.exponent
    rw [parts_ofNat_of_le (Nat.le_of_not_lt hexact), hround,
      unpack_pack_finite hrounds.full (by omega) (by omega)]
    exact .finite hrounds.full (by omega) (by omega) (by omega)

theorem Between.atLeastOne (h : Between 0 hi u) : AtLeastOne u := by
  cases h with
  | finite hm ht hlo _ => exact .finite hm (by omega) ht
  | infinite _ => exact .infinite

-- ---------------------------------------------------------------------------
-- Products that become words
-- ---------------------------------------------------------------------------

/-- No number, zero, or not below one. -/
inductive NotNegative : UnpackedFloat → Prop where
  | notANumber : NotNegative .notANumber
  | zero : NotNegative (.zero .positive)
  | atLeastOne {u : UnpackedFloat} : AtLeastOne u → NotNegative u

theorem notNegative_ofNat_mul (hn : n < 2 ^ 64) (hy : AtLeastOne (parts y)) :
    NotNegative (parts (.ofNat n * y)) := by
  rcases Nat.eq_zero_or_pos n with rfl | hpos
  · have hzero : parts (.ofNat 0) = .zero .positive := rfl
    rw [parts_mul, hzero]
    generalize parts y = v at hy
    cases hy with
    | finite _ _ _ =>
      show NotNegative (Float.Model.pack (.zero .positive)).unpack
      rw [unpack_pack_zero]
      exact .zero
    | infinite => exact .notANumber
  · exact .atLeastOne ((between_ofNat hpos hn).atLeastOne.mul hy)

theorem parts_two_pow_64 :
    parts (.ofNat (2 ^ 64)) = .finite .positive (2 ^ 52) 12 (by decide) :=
  rfl

theorem NotNegative.room (hx : NotNegative (parts x)) (hfinite : x.isFinite = true)
    (hn : n < 2 ^ 64) (hlt : ¬ Float.ofNat n ≤ x) : 0 ≤ x ∧ x < .ofNat (2 ^ 64) := by
  have hzero : parts 0 = .zero .positive := rfl
  rw [isFinite_eq] at hfinite
  rw [le_iff_compare] at hlt
  rw [le_iff_compare, lt_iff_compare, hzero, parts_two_pow_64]
  generalize parts x = u at hx hfinite hlt
  cases hx with
  | notANumber => cases hfinite
  | zero => exact ⟨rfl, rfl⟩
  | atLeastOne hx =>
    cases hx with
    | infinite => cases hfinite
    | @finite m e _ hm _ _ =>
      -- with the exponent 12 a full mantissa is no less than any word
      have he : e < 12 := by
        rcases Nat.eq_zero_or_pos n with rfl | hpos
        · exact absurd rfl hlt
        · have hbetween := between_ofNat hpos hn
          generalize parts (.ofNat n) = v at hbetween hlt
          cases hbetween with
          | infinite h => omega
          | @finite m' e' _ _ _ _ htop =>
            have hgt : (compare e' e).then (compare m' m) = .gt := by
              simpa [UnpackedFloat.compare] using hlt
            rw [Ordering.then_eq_gt, Int.compare_eq_gt, Int.compare_eq_eq, Nat.compare_eq_gt]
              at hgt
            have hlower := hm.1
            omega
      refine ⟨rfl, ?_⟩
      show some ((compare e 12).then _) = _
      rw [Int.compare_eq_lt.2 he]
      rfl

end

end Courier.Double
