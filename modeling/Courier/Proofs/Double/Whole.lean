import Courier.Proofs.Double.Rounding

/-!
# Doubles of natural numbers

Below `2 ^ 53` a double holds a natural number exactly; a greater one is rounded or infinite, but
never falls below `2 ^ 53`. Products keep this, so that comparing with an exact double and turning
an exact double back into a number give what they give for the numbers. Infinity comes with
`2 ^ 1024`: products of doubles between powers of two lie between the products of the powers.
-/

open Float.Model Float.Model.UnpackedFloat

namespace Courier.Double

def parts (x : Float) : UnpackedFloat :=
  x.toModel.unpack

-- ---------------------------------------------------------------------------
-- Products
-- ---------------------------------------------------------------------------

section
variable {x y : Float} {a b : Nat} {d e : Int} {ha : 0 < a} {hb : 0 < b}

theorem isFinite_eq (x : Float) : x.isFinite = (parts x).isFinite :=
  rfl

theorem parts_mul (x y : Float) :
    parts (x * y) = (Float.Model.pack (UnpackedFloat.mul .binary64 (parts x) (parts y))).unpack :=
  rfl

theorem Rounds.width {s r : Nat} {c : Int} (hfull : Full a) (hfull' : Full b)
    (h : Rounds (a * b) (d + e) s r c) : 52 ≤ s ∧ s ≤ 53 := by
  obtain ⟨hlower, hupper⟩ := hfull.mul_bounds hfull'
  have hs := (Nat.pow_lt_pow_iff_right (by decide)).1 (Nat.lt_of_le_of_lt hlower h.upper)
  have hs' := (Nat.pow_lt_pow_iff_right (by decide)).1 (Nat.lt_of_le_of_lt h.lower hupper)
  omega

theorem parts_mul_infinite {u v : UnpackedFloat} (hx : parts x = u) (hy : parts y = v)
    (h : UnpackedFloat.mul .binary64 u v = .infinity .positive) :
    parts (x * y) = .infinity .positive := by
  rw [parts_mul, hx, hy, h]
  exact unpack_pack_infinity

theorem parts_mul_finite (hx : parts x = .finite .positive a d ha)
    (hy : parts y = .finite .positive b e hb) (hfull : Full a) (hfull' : Full b) (hd : -52 ≤ d)
    (he : -52 ≤ e) :
    ∃ s r c, ∃ h : 0 < r, Rounds (a * b) (d + e) s r c ∧
      (c ≤ 971 ∧ parts (x * y) = .finite .positive r c h ∨
        972 ≤ c ∧ parts (x * y) = .infinity .positive) := by
  obtain ⟨hlower, hupper⟩ := hfull.mul_bounds hfull'
  obtain ⟨s, hs, hM, hM'⟩ : ∃ s : Nat, 52 ≤ s ∧ 2 ^ (52 + s) ≤ a * b ∧ a * b < 2 ^ (53 + s) := by
    by_cases hwide : a * b < 2 ^ 105
    · exact ⟨52, by decide, hlower, hwide⟩
    · exact ⟨53, by decide, Nat.le_of_not_lt hwide, hupper⟩
  obtain ⟨r, c, hr, hround, hrounds⟩ :=
    roundWithAccuracy_eq (E := d + e) .positive hM hM' (by omega)
  have hproduct : parts (x * y) = (Float.Model.pack (.finite .positive r c hr)).unpack := by
    rw [parts_mul, hx, hy, UnpackedFloat.mul]
    exact congrArg (fun u => (Float.Model.pack u).unpack) hround
  refine ⟨s, r, c, hr, hrounds, ?_⟩
  by_cases hc : c ≤ 971
  · have hc' : -1074 ≤ c := by
      have := hrounds.exponent
      omega
    exact .inl ⟨hc, hproduct.trans (unpack_pack_finite hrounds.full hc' hc)⟩
  · exact .inr ⟨by omega, hproduct.trans (unpack_pack_overflow (by omega))⟩

end

-- ---------------------------------------------------------------------------
-- Numbers
-- ---------------------------------------------------------------------------

/-- `m * 2 ^ e` is `n`, or both are great. -/
def Sized (n m : Nat) (e : Int) : Prop :=
  (∃ k : Nat, e = -k ∧ m = n * 2 ^ k) ∨ 1 ≤ e ∧ 2 ^ 53 ≤ n

/-- What the double of `n` may be. -/
inductive Shows (n : Nat) : UnpackedFloat → Prop where
  | zero : n = 0 → Shows n (.zero .positive)
  | finite {m : Nat} {e : Int} {h : 0 < m} : Full m → e ≤ 971 → Sized n m e →
    Shows n (.finite .positive m e h)
  | infinite : 2 ^ 53 ≤ n → Shows n (.infinity .positive)

section
variable {n m : Nat} {e : Int}

theorem Sized.pos (h : Sized n m e) (hm : 0 < m) : 0 < n := by
  rcases h with ⟨k, -, rfl⟩ | ⟨-, hn⟩
  · exact Nat.pos_of_mul_pos_right hm
  · exact Nat.lt_of_lt_of_le (Nat.two_pow_pos 53) hn

theorem Sized.le_exponent (h : Sized n m e) (hm : Full m) : -52 ≤ e := by
  rcases h with ⟨k, rfl, rfl⟩ | ⟨he, -⟩
  · have hn : 1 ≤ n := Nat.pos_of_mul_pos_right hm.pos
    have hk : 1 * 2 ^ k < 2 ^ 53 := Nat.lt_of_le_of_lt (Nat.mul_le_mul_right _ hn) hm.2
    rw [Nat.one_mul, Nat.pow_lt_pow_iff_right (by decide)] at hk
    omega
  · omega

theorem Sized.exact (h : Sized n m e) (hn : n < 2 ^ 53) : ∃ k : Nat, e = -k ∧ m = n * 2 ^ k := by
  rcases h with h | ⟨-, hn'⟩
  · exact h
  · exact absurd hn (Nat.not_lt_of_le hn')

/-- An exact number is rounded to itself, unless it has more than 53 bits of its own. -/
theorem Rounds.sized {k s r : Nat} {d c : Int} (hd : d = -k) (hr : Rounds (n * 2 ^ k) d s r c) :
    Sized n r c := by
  have hexponent := hr.exponent
  by_cases hn : n < 2 ^ 53
  · -- the bits that go are zeros
    have hs : 2 ^ (52 + s) < 2 ^ (53 + k) := by
      rw [Nat.pow_add 2 53]
      exact Nat.lt_of_le_of_lt hr.lower (Nat.mul_lt_mul_of_pos_right hn (Nat.two_pow_pos k))
    rw [Nat.pow_lt_pow_iff_right (by decide)] at hs
    have hsplit : n * 2 ^ k = n * 2 ^ (k - s) * 2 ^ s := by
      rw [Nat.mul_assoc, ← Nat.pow_add, Nat.sub_add_cancel (by omega)]
    obtain ⟨hc, hr'⟩ := (hsplit ▸ hr).exact
    exact .inl ⟨k - s, by omega, hr'⟩
  · have hn' : 2 ^ 53 ≤ n := Nat.le_of_not_lt hn
    have hs : 2 ^ (53 + k) < 2 ^ (53 + s) := by
      rw [Nat.pow_add 2 53 k]
      exact Nat.lt_of_le_of_lt (Nat.mul_le_mul_right _ hn') hr.upper
    rw [Nat.pow_lt_pow_iff_right (by decide)] at hs
    exact .inr ⟨by omega, hn'⟩

end

theorem Sized.mul {a b m m' s r : Nat} {d e c : Int} (ha : Sized a m d) (hb : Sized b m' e)
    (hm : Full m) (hm' : Full m') (hr : Rounds (m * m') (d + e) s r c) : Sized (a * b) r c := by
  have hexponent := hr.exponent
  have hwidth := hr.width hm hm'
  have hd := ha.le_exponent hm
  have he := hb.le_exponent hm'
  have hone : 1 ≤ a := ha.pos hm.pos
  have hone' : 1 ≤ b := hb.pos hm'.pos
  rcases ha with ⟨k, rfl, rfl⟩ | ⟨hd', hgreat⟩
  · rcases hb with ⟨l, rfl, rfl⟩ | ⟨he', hgreat⟩
    · have hproduct : a * 2 ^ k * (b * 2 ^ l) = a * b * 2 ^ (k + l) := by
        rw [Nat.pow_add, Nat.mul_mul_mul_comm]
      exact (hproduct ▸ hr).sized (by omega)
    · exact .inr ⟨by omega, Nat.le_trans hgreat (Nat.le_mul_of_pos_left _ hone)⟩
  · exact .inr ⟨by omega, Nat.le_trans hgreat (Nat.le_mul_of_pos_right _ hone')⟩

theorem Shows.mul {a b : Nat} {x y : Float} (hx : Shows a (parts x)) (hy : Shows b (parts y))
    (ha : 0 < a) (hb : 0 < b) : Shows (a * b) (parts (x * y)) := by
  generalize hu : parts x = u at hx
  generalize hv : parts y = v at hy
  cases hx with
  | zero h => omega
  | infinite h =>
    have hab : 2 ^ 53 ≤ a * b := Nat.le_trans h (Nat.le_mul_of_pos_right _ hb)
    cases hy with
    | zero h => omega
    | infinite _ => exact parts_mul_infinite hu hv rfl ▸ .infinite hab
    | finite _ _ _ => exact parts_mul_infinite hu hv rfl ▸ .infinite hab
  | finite hm ht hs =>
    cases hy with
    | zero h => omega
    | infinite h =>
      rw [parts_mul_infinite hu hv rfl]
      exact .infinite (Nat.le_trans h (Nat.le_mul_of_pos_left _ ha))
    | finite hm' ht' hs' =>
      obtain ⟨s, r, c, hr, hrounds, ⟨hc, hp⟩ | ⟨hc, hp⟩⟩ :=
        parts_mul_finite hu hv hm hm' (hs.le_exponent hm) (hs'.le_exponent hm')
      · rw [hp]
        exact .finite hrounds.full hc (hs.mul hs' hm hm' hrounds)
      · rw [hp]
        rcases hs.mul hs' hm hm' hrounds with ⟨k, hk, -⟩ | ⟨-, hab⟩
        · omega
        · exact .infinite hab

-- ---------------------------------------------------------------------------
-- Reading off numbers
-- ---------------------------------------------------------------------------

section
variable {a b : Nat} {x y : Float}

theorem lt_of_exponent_lt {k l : Nat} (hm : Full (a * 2 ^ k)) (hm' : Full (b * 2 ^ l))
    (h : k < l) : b < a := by
  have hpow : b * 2 ^ (k + 1) < a * 2 ^ (k + 1) :=
    calc b * 2 ^ (k + 1)
      _ ≤ b * 2 ^ l := Nat.mul_le_mul_left b (Nat.pow_le_pow_right (by decide) h)
      _ < 2 ^ 52 * 2 := hm'.2
      _ ≤ a * 2 ^ k * 2 := Nat.mul_le_mul_right 2 hm.1
      _ = a * 2 ^ (k + 1) := by rw [Nat.pow_succ, Nat.mul_assoc]
  exact Nat.lt_of_mul_lt_mul_right hpow

theorem compare_exact {k l : Nat} (hm : Full (a * 2 ^ k)) (hm' : Full (b * 2 ^ l)) :
    (compare (-(k : Int)) (-(l : Int))).then (compare (a * 2 ^ k) (b * 2 ^ l)) = compare a b := by
  rcases Nat.lt_trichotomy k l with hkl | rfl | hkl
  · rw [Int.compare_eq_gt.2 (by omega), Nat.compare_eq_gt.2 (lt_of_exponent_lt hm hm' hkl)]
    rfl
  · rw [Int.compare_eq_eq.2 rfl, Nat.compare_eq_ite_lt, Nat.compare_eq_ite_lt]
    simp only [Nat.mul_lt_mul_right (Nat.two_pow_pos k)]
    rfl
  · rw [Int.compare_eq_lt.2 (by omega), Nat.compare_eq_lt.2 (lt_of_exponent_lt hm' hm hkl)]
    rfl

theorem Shows.compare_eq (hx : Shows a (parts x)) (hy : Shows b (parts y)) (ha : a < 2 ^ 53) :
    (parts x).compare (parts y) = some (compare a b) := by
  generalize parts x = u at hx
  generalize parts y = v at hy
  cases hx with
  | zero ha' =>
    subst ha'
    cases hy with
    | zero hb => rw [hb]; rfl
    | finite hm _ hs =>
      exact congrArg some (Nat.compare_eq_lt.2 (hs.pos hm.pos)).symm
    | infinite hb =>
      exact congrArg some (Nat.compare_eq_lt.2 (Nat.lt_of_lt_of_le (by decide) hb)).symm
  | infinite ha' => omega
  | finite hm _ hs =>
    obtain ⟨k, rfl, rfl⟩ := hs.exact ha
    cases hy with
    | zero hb =>
      rw [hb, Nat.compare_eq_gt.2 (hs.pos hm.pos)]
      rfl
    | infinite hb =>
      exact congrArg some (Nat.compare_eq_lt.2 (Nat.lt_of_lt_of_le ha hb)).symm
    | @finite m' e _ hm' _ hs' =>
      rcases hs' with ⟨l, rfl, rfl⟩ | ⟨he, hb⟩
      · exact congrArg some (compare_exact hm hm')
      · have hlt : compare (-(k : Int)) e = .lt := Int.compare_eq_lt.2 (by omega)
        show some ((compare (-(k : Int)) e).then _) = _
        rw [hlt, Nat.compare_eq_lt.2 (Nat.lt_of_lt_of_le ha hb)]
        rfl

theorem le_iff_compare : x ≤ y ↔ ((parts x).compare (parts y)).any (·.isLE) = true :=
  decide_eq_true_iff

theorem lt_iff_compare : x < y ↔ (parts x).compare (parts y) = some .lt := by
  have hlt : x < y ↔ ((parts x).compare (parts y) == some .lt) = true := decide_eq_true_iff
  rw [hlt, beq_iff_eq]

theorem Shows.le_iff (hx : Shows a (parts x)) (hy : Shows b (parts y)) (ha : a < 2 ^ 53) :
    x ≤ y ↔ a ≤ b := by
  rw [le_iff_compare, hx.compare_eq hy ha]
  exact Nat.isLE_compare

theorem Shows.lt_iff (hx : Shows a (parts x)) (hy : Shows b (parts y)) (ha : a < 2 ^ 53) :
    x < y ↔ a < b := by
  rw [lt_iff_compare, hx.compare_eq hy ha, Option.some.injEq]
  exact Nat.compare_eq_lt

theorem Shows.isFinite (hx : Shows a (parts x)) (ha : a < 2 ^ 53) : x.isFinite = true := by
  rw [isFinite_eq]
  generalize parts x = u at hx ⊢
  cases hx with
  | zero _ => rfl
  | finite _ _ _ => rfl
  | infinite h => omega

theorem roundToInt_exact (a k : Nat) : roundToInt .positive (a * 2 ^ k) (-(k : Int)) = a := by
  have hdecrease : decreaseExponent (a * 2 ^ k) (-(k : Int)) 0 = (a * 2 ^ k, -(k : Int)) := by
    have hzero : (-(k : Int) - 0).toNat = 0 := by omega
    rw [decreaseExponent, hzero]
    exact congrArg _ (Int.sub_zero _)
  have hshift : (0 - -(k : Int)).toNat = k := by omega
  simp only [roundToInt, hdecrease, shiftToExponent, hshift,
    ExtendedMantissa.ofMantissaAndAccuracy, shiftRight_mul_pow]
  rfl

theorem Shows.toNat_toUInt64 (hx : Shows a (parts x)) (ha : a < 2 ^ 53) : x.toUInt64.toNat = a := by
  have htoInt : (parts x).toInt 0 (UInt64.size - 1) = a := by
    generalize parts x = u at hx ⊢
    cases hx with
    | zero h => rw [h]; rfl
    | infinite h => omega
    | finite hm _ hs =>
      obtain ⟨k, rfl, rfl⟩ := hs.exact ha
      exact roundToInt_exact a k
  show (UInt64.ofNatClamp ((parts x).toInt 0 (UInt64.size - 1)).toNat).toNat = a
  rw [htoInt, Int.toNat_natCast]
  exact UInt64.toNat_ofNatClamp_of_lt (Nat.lt_trans ha (by decide))

end

-- ---------------------------------------------------------------------------
-- Numbers as doubles
-- ---------------------------------------------------------------------------

section
variable {n : Nat}

theorem full_mul_pow (hn : 0 < n) (hn' : n < 2 ^ 53) : Full (n * 2 ^ (52 - n.log2)) := by
  have hlog : n.log2 < 53 := (Nat.log2_lt (Nat.ne_of_gt hn)).2 hn'
  have hpow : 2 ^ n.log2 * 2 ^ (52 - n.log2) = 2 ^ 52 := by
    rw [← Nat.pow_add, Nat.add_sub_cancel' (by omega)]
  refine ⟨?_, ?_⟩
  · rw [← hpow]
    exact Nat.mul_le_mul_right _ (Nat.log2_self_le (Nat.ne_of_gt hn))
  · calc n * 2 ^ (52 - n.log2)
      _ < 2 ^ (n.log2 + 1) * 2 ^ (52 - n.log2) :=
        Nat.mul_lt_mul_of_pos_right Nat.lt_log2_self (Nat.two_pow_pos _)
      _ = 2 ^ 52 * 2 := by rw [Nat.pow_succ, Nat.mul_right_comm, hpow]

theorem shows_round (hn : 0 < n) (hn' : n < 2 ^ 53) :
    Shows n (Float.Model.pack (UnpackedFloat.round .binary64 .positive n 0)).unpack := by
  have hfull := full_mul_pow hn hn'
  generalize hk : 52 - n.log2 = k at hfull
  have hlog : n.log2 < 53 := (Nat.log2_lt (Nat.ne_of_gt hn)).2 hn'
  have htarget : Format.binary64.targetExponent (totalExponent n 0) = -(k : Int) := by
    simp only [Format.targetExponent, totalExponent, Format.mantissaBits, Format.minExponent]
    omega
  have hshift : (0 - -(k : Int)).toNat = k := by omega
  obtain ⟨r, c, hr, hround, hrounds⟩ := roundWithAccuracy_eq (M := n * 2 ^ k) (s := 0)
    (E := 0 - (k : Int)) .positive hfull.1 hfull.2 (by omega)
  have hexponent := hrounds.exponent
  have hwhole : UnpackedFloat.round .binary64 .positive n 0 = .finite .positive r c hr := by
    simp only [UnpackedFloat.round, htarget, decreaseExponent, hshift, Nat.shiftLeft_eq]
    exact hround
  rw [hwhole, unpack_pack_finite hrounds.full (by omega) (by omega)]
  exact .finite hrounds.full (by omega) (hrounds.sized (by omega))

theorem shows_one : Shows 1 (parts (Float.ofBits 0x3FF0000000000000)) := by
  have hone : parts (Float.ofBits 0x3FF0000000000000) =
      .finite .positive (1 * 2 ^ 52) (-52) (by decide) := rfl
  rw [hone]
  exact .finite ⟨by decide, by decide⟩ (by decide) (.inl ⟨52, rfl, rfl⟩)

theorem parts_toFloat {w : UInt64} (hw : 0 < w.toNat) :
    parts w.toFloat =
      (Float.Model.pack (UnpackedFloat.round .binary64 .positive w.toNat 0)).unpack := by
  have hcompare : compare (w.toNat : Int) 0 = .gt := Int.compare_eq_gt.2 (by omega)
  show (Float.Model.pack (UnpackedFloat.normalize .binary64 (w.toNat : Int) 0 .positive)).unpack = _
  simp only [UnpackedFloat.normalize, hcompare, Int.toNat_natCast]

theorem ofNat_eq_mul (hn : n < 2 ^ 53) :
    Float.ofNat n = n.toUInt64.toFloat * Float.ofBits 0x3FF0000000000000 := by
  simp only [Float.ofNat, OfScientific.ofScientific, Float.ofScientific]
  rw [dif_pos ⟨hn, by decide⟩]
  rfl

theorem shows_ofNat (hn : n < 2 ^ 53) : Shows n (parts (Float.ofNat n)) := by
  rcases Nat.eq_zero_or_pos n with rfl | hpos
  · exact .zero rfl
  · have htoNat : n.toUInt64.toNat = n := UInt64.toNat_ofNat_of_lt (Nat.lt_trans hn (by decide))
    have hshows : Shows n (parts n.toUInt64.toFloat) := by
      rw [parts_toFloat (by rwa [htoNat]), htoNat]
      exact shows_round hpos hn
    have hproduct := hshows.mul shows_one hpos Nat.one_pos
    rwa [← ofNat_eq_mul hn, Nat.mul_one] at hproduct

end

-- ---------------------------------------------------------------------------
-- Zero and infinity
-- ---------------------------------------------------------------------------

section
variable {n : Nat} {x y : Float}

theorem zero_mul_cases (hx : parts x = .zero .positive) (hy : Shows n (parts y)) :
    y.isFinite = true ∧ Shows 0 (parts (x * y)) ∨
      y.isFinite = false ∧ (x * y).isFinite = false := by
  rw [isFinite_eq, isFinite_eq, parts_mul, hx]
  generalize parts y = v at hy ⊢
  cases hy with
  | zero _ => exact .inl ⟨rfl, .zero rfl⟩
  | finite _ _ _ =>
    refine .inl ⟨rfl, ?_⟩
    show Shows 0 (Float.Model.pack (.zero .positive)).unpack
    rw [unpack_pack_zero]
    exact .zero rfl
  | infinite _ => exact .inr ⟨rfl, rfl⟩

/-- Between two powers of two; what is infinite may be anything from `2 ^ 1024` on. -/
inductive Between (lo hi : Nat) : UnpackedFloat → Prop where
  | finite {m : Nat} {e : Int} {h : 0 < m} : Full m → e ≤ 971 → lo ≤ e + 52 →
    (e + 53 ≤ hi ∨ m = 2 ^ 52 ∧ e + 52 ≤ hi) → Between lo hi (.finite .positive m e h)
  | infinite : 1024 ≤ hi → Between lo hi (.infinity .positive)

variable {lo hi lo' hi' : Nat}

theorem Between.isFinite (h : Between lo hi (parts x)) (hhi : hi < 1024) : x.isFinite = true := by
  rw [isFinite_eq]
  generalize parts x = u at h ⊢
  cases h with
  | finite _ _ _ _ => rfl
  | infinite h => omega

theorem Between.not_isFinite (h : Between lo hi (parts x)) (hlo : 1024 ≤ lo) :
    x.isFinite = false := by
  rw [isFinite_eq]
  generalize parts x = u at h ⊢
  cases h with
  | finite _ _ _ _ => omega
  | infinite _ => rfl

theorem Rounds.upper_bound {m m' s r : Nat} {d e c : Int} (hm : Full m) (hm' : Full m')
    (hr : Rounds (m * m') (d + e) s r c) (h : d + 53 ≤ hi ∨ m = 2 ^ 52 ∧ d + 52 ≤ hi)
    (h' : e + 53 ≤ hi' ∨ m' = 2 ^ 52 ∧ e + 52 ≤ hi') :
    c + 53 ≤ (hi + hi' : Nat) ∨ r = 2 ^ 52 ∧ c + 52 ≤ (hi + hi' : Nat) := by
  have hwidth := hr.width hm hm'
  have hexponent := hr.exponent
  -- one factor that is a power of two leaves only 52 bits too many
  have hnarrow : m = 2 ^ 52 ∨ m' = 2 ^ 52 → s = 52 := by
    intro hp
    have hproduct : m * m' < 2 ^ 105 := by
      rcases hp with rfl | rfl
      · exact Nat.mul_lt_mul_of_pos_left hm'.2 hm.pos
      · exact Nat.mul_lt_mul_of_pos_right hm.2 hm'.pos
    have hs := (Nat.pow_lt_pow_iff_right (by decide)).1 (Nat.lt_of_le_of_lt hr.lower hproduct)
    omega
  have hpower : m = 2 ^ 52 → m' = 2 ^ 52 → r = 2 ^ 52 ∧ c = d + e + s := by
    intro hp hp'
    have hs := hnarrow (.inl hp)
    subst hp hp' hs
    obtain ⟨hc, hr'⟩ := hr.exact
    exact ⟨hr', hc⟩
  rcases h with h | ⟨hp, h⟩ <;> rcases h' with h' | ⟨hp', h'⟩
  · omega
  · have := hnarrow (.inr hp')
    omega
  · have := hnarrow (.inl hp)
    omega
  · have := hnarrow (.inl hp)
    have := hpower hp hp'
    omega

theorem Between.mul (hx : Between lo hi (parts x)) (hy : Between lo' hi' (parts y)) :
    Between (lo + lo') (hi + hi') (parts (x * y)) := by
  generalize hu : parts x = u at hx
  generalize hv : parts y = v at hy
  cases hx with
  | infinite h =>
    cases hy with
    | infinite _ => exact parts_mul_infinite hu hv rfl ▸ .infinite (by omega)
    | finite _ _ _ _ => exact parts_mul_infinite hu hv rfl ▸ .infinite (by omega)
  | finite hm ht hlo hhi =>
    cases hy with
    | infinite h => exact parts_mul_infinite hu hv rfl ▸ .infinite (by omega)
    | finite hm' ht' hlo' hhi' =>
      obtain ⟨s, r, c, hr, hrounds, hc⟩ :=
        parts_mul_finite hu hv hm hm' (by omega) (by omega)
      have hupper := hrounds.upper_bound hm hm' hhi hhi'
      have hwidth := hrounds.width hm hm'
      have hexponent := hrounds.exponent
      rcases hc with ⟨hc, hp⟩ | ⟨hc, hp⟩
      · rw [hp]
        exact .finite hrounds.full hc (by omega) hupper
      · rw [hp]
        exact .infinite (by omega)

theorem Shows.between (hx : Shows n (parts x)) (hn : 0 < n) (hn' : n < 2 ^ 53) (hlo : 2 ^ lo ≤ n)
    (hhi : n ≤ 2 ^ hi) : Between lo hi (parts x) := by
  generalize parts x = u at hx ⊢
  cases hx with
  | zero h => omega
  | infinite h => omega
  | finite hm ht hs =>
    obtain ⟨k, rfl, rfl⟩ := hs.exact hn'
    have hlower : 2 ^ (lo + k) < 2 ^ 53 := by
      rw [Nat.pow_add]
      exact Nat.lt_of_le_of_lt (Nat.mul_le_mul_right _ hlo) hm.2
    rw [Nat.pow_lt_pow_iff_right (by decide)] at hlower
    have hupper : 2 ^ 52 ≤ 2 ^ (hi + k) := by
      rw [Nat.pow_add 2 hi]
      exact Nat.le_trans hm.1 (Nat.mul_le_mul_right _ hhi)
    rw [Nat.pow_le_pow_iff_right (by decide)] at hupper
    refine .finite hm ht (by omega) ?_
    by_cases hk : hi + k = 52
    · have hn : n = 2 ^ hi := by
        refine Nat.le_antisymm hhi (Nat.le_of_mul_le_mul_right ?_ (Nat.two_pow_pos k))
        rw [← Nat.pow_add, hk]
        exact hm.1
      exact .inr ⟨by rw [hn, ← Nat.pow_add, hk], by omega⟩
    · exact .inl (by omega)

end

end Courier.Double
