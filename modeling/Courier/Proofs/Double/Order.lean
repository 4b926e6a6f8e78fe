import Courier.Proofs.Double.Whole

/-!
# Order of products

Rounding keeps order, and so does multiplying doubles that are not below one: greater factors do
not give a smaller product, infinity being the greatest.
-/

open Float.Model Float.Model.UnpackedFloat

namespace Courier.Double

-- ---------------------------------------------------------------------------
-- Rounding keeps order
-- ---------------------------------------------------------------------------

def quarters (em : ExtendedMantissa) : Nat :=
  4 * em.mantissa + 2 * em.roundBit.toNat + em.stickyBit.toNat

theorem quarters_shiftRightOne (em : ExtendedMantissa) :
    quarters em.shiftRightOne = 2 * em.mantissa + (em.roundBit || em.stickyBit).toNat := by
  have hbit : (em.mantissa % 2 != 0).toNat = em.mantissa % 2 := by
    rcases Nat.mod_two_eq_zero_or_one em.mantissa with h | h <;> simp [h]
  simp only [quarters, ExtendedMantissa.shiftRightOne, hbit]
  omega

theorem shiftRight_mono {a b : ExtendedMantissa} (h : quarters a ≤ quarters b) (k : Nat) :
    quarters (a >>> k) ≤ quarters (b >>> k) := by
  induction k with
  | zero => exact h
  | succ k ih =>
    rw [shiftRight_succ, shiftRight_succ]
    generalize a >>> k = a at ih
    generalize b >>> k = b at ih
    obtain ⟨m, round, sticky⟩ := a
    obtain ⟨m', round', sticky'⟩ := b
    rw [quarters_shiftRightOne, quarters_shiftRightOne]
    simp only [quarters] at ih ⊢
    cases round <;> cases sticky <;> cases round' <;> cases sticky' <;> simp at ih ⊢ <;> omega

theorem roundedMantissa_mono {a b : ExtendedMantissa} (h : quarters a ≤ quarters b) :
    a.roundedMantissa ≤ b.roundedMantissa := by
  obtain ⟨m, round, sticky⟩ := a
  obtain ⟨m', round', sticky'⟩ := b
  simp only [quarters] at h
  cases round <;> cases sticky <;> cases round' <;> cases sticky' <;>
    simp [ExtendedMantissa.roundedMantissa, ExtendedMantissa.accuracy,
      Accuracy.roundToNearestEven] at h ⊢ <;> omega

theorem nearest_mono {M N : Nat} (h : M ≤ N) (s : Nat) : nearest M s ≤ nearest N s :=
  roundedMantissa_mono (shiftRight_mono (by simp only [quarters]; omega) s)

theorem nearest_two_mul (M s : Nat) : nearest (2 * M) (s + 1) = nearest M s := by
  have hshift : (⟨2 * M, false, false⟩ : ExtendedMantissa) >>> (s + 1) =
      (⟨M, false, false⟩ : ExtendedMantissa) >>> s := by
    induction s with
    | zero => exact shiftRightOne_two_mul M
    | succ s ih => rw [shiftRight_succ, ih, shiftRight_succ]
  rw [nearest, hshift, nearest]

section
variable {m m' n n' s s' r r' : Nat} {d d' e e' c c' : Int}

theorem Rounds.le {M M' : Nat} {E E' : Int} (h : Rounds M E s r c) (h' : Rounds M' E' s' r' c')
    (hle : E + s < E' + s' ∨ E + s = E' + s' ∧ Double.nearest M s ≤ Double.nearest M' s') :
    c < c' ∨ c = c' ∧ r ≤ r' := by
  have hfull := h.full
  have hfull' := h'.full
  rcases h.nearest with ⟨hc, hr⟩ | ⟨hc, hr, htop⟩ <;>
    rcases h'.nearest with ⟨hc', hr'⟩ | ⟨hc', hr', htop'⟩ <;>
    simp only [Full] at hfull hfull' <;> omega

/-- Greater factors do not give a smaller product. -/
theorem Rounds.mul_le (hm : Full m) (hm' : Full m') (hn : Full n) (hn' : Full n')
    (hx : d < d' ∨ d = d' ∧ m ≤ m') (hy : e < e' ∨ e = e' ∧ n ≤ n')
    (h : Rounds (m * n) (d + e) s r c) (h' : Rounds (m' * n') (d' + e') s' r' c') :
    c < c' ∨ c = c' ∧ r ≤ r' := by
  have hs := h.width hm hn
  have hs' := h'.width hm' hn'
  refine h.le h' ?_
  by_cases heq : d = d' ∧ e = e'
  · obtain ⟨rfl, rfl⟩ := heq
    have hproduct : m * n ≤ m' * n' := Nat.mul_le_mul (by omega) (by omega)
    have hwidth : 2 ^ (52 + s) < 2 ^ (53 + s') :=
      Nat.lt_of_le_of_lt h.lower (Nat.lt_of_le_of_lt hproduct h'.upper)
    rw [Nat.pow_lt_pow_iff_right (by decide)] at hwidth
    rcases Nat.eq_or_lt_of_le (show s ≤ s' by omega) with rfl | hlt
    · exact .inr ⟨rfl, nearest_mono hproduct s⟩
    · exact .inl (by omega)
  · by_cases hlt : d + e + s < d' + e' + s'
    · exact .inl hlt
    · -- one exponent is greater by one, and the bit more that is lost makes up for it
      obtain ⟨rfl, rfl⟩ : s = 53 ∧ s' = 52 := by omega
      have hproduct : m * n ≤ 2 * (m' * n') := by
        simp only [Full] at hm hm' hn hn'
        rcases hx with hx | ⟨-, hmm⟩
        · have hmm : m ≤ 2 * m' := by omega
          have hnn : n ≤ n' := by omega
          rw [← Nat.mul_assoc]
          exact Nat.mul_le_mul hmm hnn
        · have hnn : n ≤ 2 * n' := by omega
          rw [Nat.mul_left_comm]
          exact Nat.mul_le_mul hmm hnn
      exact .inr ⟨by omega, nearest_two_mul (m' * n') 52 ▸ nearest_mono hproduct 53⟩

end

-- ---------------------------------------------------------------------------
-- Doubles
-- ---------------------------------------------------------------------------

inductive AtLeastOne : UnpackedFloat → Prop where
  | finite {m : Nat} {e : Int} {h : 0 < m} : Full m → -52 ≤ e → e ≤ 971 →
    AtLeastOne (.finite .positive m e h)
  | infinite : AtLeastOne (.infinity .positive)

inductive Below : UnpackedFloat → UnpackedFloat → Prop where
  | finite {m m' : Nat} {e e' : Int} {h : 0 < m} {h' : 0 < m'} :
    AtLeastOne (.finite .positive m e h) → AtLeastOne (.finite .positive m' e' h') →
    (e < e' ∨ e = e' ∧ m ≤ m') → Below (.finite .positive m e h) (.finite .positive m' e' h')
  | infinite {u : UnpackedFloat} : AtLeastOne u → Below u (.infinity .positive)

section
variable {x x' y y' : Float} {u v : UnpackedFloat}

theorem Shows.atLeastOne {n : Nat} (h : Shows n u) (hn : 0 < n) : AtLeastOne u := by
  cases h with
  | zero h => omega
  | finite hm ht hs => exact .finite hm (hs.le_exponent hm) ht
  | infinite _ => exact .infinite

theorem AtLeastOne.mul (hx : AtLeastOne (parts x)) (hy : AtLeastOne (parts y)) :
    AtLeastOne (parts (x * y)) := by
  generalize hu : parts x = u at hx
  generalize hv : parts y = v at hy
  cases hx with
  | infinite => cases hy <;> exact parts_mul_infinite hu hv rfl ▸ .infinite
  | finite hm hd _ =>
    cases hy with
    | infinite => exact parts_mul_infinite hu hv rfl ▸ .infinite
    | finite hn he _ =>
      obtain ⟨s, r, c, hr, hrounds, ⟨hc, hp⟩ | ⟨-, hp⟩⟩ := parts_mul_finite hu hv hm hn hd he
      · have hwidth := hrounds.width hm hn
        have hexponent := hrounds.exponent
        exact hp ▸ .finite hrounds.full (by omega) hc
      · exact hp ▸ .infinite

theorem parts_one : parts 1 = .finite .positive (2 ^ 52) (-52) (by decide) :=
  rfl

theorem AtLeastOne.one_mul (hx : AtLeastOne (parts x)) : parts (1 * x) = parts x := by
  generalize hu : parts x = u at hx
  cases hx with
  | infinite => exact parts_mul_infinite parts_one hu rfl
  | @finite m e _ hm he he' =>
    obtain ⟨s, r, c, hr, hrounds, hc⟩ :=
      parts_mul_finite parts_one hu ⟨by decide, by decide⟩ hm (by decide) he
    have hwidth : s = 52 := by
      have hs := hrounds.width ⟨by decide, by decide⟩ hm
      have hproduct : 2 ^ 52 * m < 2 ^ 105 := Nat.mul_lt_mul_of_pos_left hm.2 (by decide)
      have hlt := Nat.lt_of_le_of_lt hrounds.lower hproduct
      rw [Nat.pow_lt_pow_iff_right (by decide)] at hlt
      omega
    subst hwidth
    rw [Nat.mul_comm] at hrounds
    obtain ⟨hexponent, rfl⟩ := hrounds.exact
    obtain rfl : c = e := by omega
    rcases hc with ⟨-, hp⟩ | ⟨hc, -⟩
    · exact hp
    · omega

theorem AtLeastOne.below_self (h : AtLeastOne u) : Below u u := by
  cases h with
  | finite hm he ht =>
    exact .finite (.finite hm he ht) (.finite hm he ht) (.inr ⟨rfl, Nat.le_refl _⟩)
  | infinite => exact .infinite .infinite

theorem AtLeastOne.one_below (h : AtLeastOne u) : Below (parts 1) u := by
  rw [parts_one]
  have hone : AtLeastOne (.finite .positive (2 ^ 52) (-52) (by decide)) :=
    .finite ⟨by decide, by decide⟩ (by decide) (by decide)
  cases h with
  | finite hm he ht =>
    have hlower := hm.1
    exact .finite hone (.finite hm he ht) (by omega)
  | infinite => exact .infinite hone

theorem Below.left (h : Below u v) : AtLeastOne u := by
  cases h with
  | finite h _ _ => exact h
  | infinite h => exact h

theorem Below.right (h : Below u v) : AtLeastOne v := by
  cases h with
  | finite _ h _ => exact h
  | infinite _ => exact .infinite

theorem Below.mul (hx : Below (parts x) (parts x')) (hy : Below (parts y) (parts y')) :
    Below (parts (x * y)) (parts (x' * y')) := by
  have hleft := hx.left.mul hy.left
  have hright := hx.right.mul hy.right
  generalize hu : parts x = u at hx
  generalize hu' : parts x' = u' at hx
  generalize hv : parts y = v at hy
  generalize hv' : parts y' = v' at hy
  cases hx with
  | infinite _ => cases hy <;> exact parts_mul_infinite hu' hv' rfl ▸ .infinite hleft
  | finite hxl hxr hdd =>
    cases hy with
    | infinite _ => exact parts_mul_infinite hu' hv' rfl ▸ .infinite hleft
    | finite hyl hyr hee =>
      obtain ⟨hm, hd, -⟩ | - := hxl
      obtain ⟨hm', hd', -⟩ | - := hxr
      obtain ⟨hn, he, -⟩ | - := hyl
      obtain ⟨hn', he', -⟩ | - := hyr
      obtain ⟨s, r, c, hr, hrounds, hc⟩ := parts_mul_finite hu hv hm hn hd he
      obtain ⟨s', r', c', hr', hrounds', hc'⟩ := parts_mul_finite hu' hv' hm' hn' hd' he'
      have hle := Rounds.mul_le hm hm' hn hn' hdd hee hrounds hrounds'
      rcases hc' with ⟨hc', hp'⟩ | ⟨-, hp'⟩
      · rcases hc with ⟨-, hp⟩ | ⟨hc, -⟩
        · rw [hp] at hleft ⊢
          rw [hp'] at hright ⊢
          exact .finite hleft hright hle
        · omega
      · exact hp' ▸ .infinite hleft

theorem Below.isFinite (h : Below (parts x) (parts y)) (hx : x.isFinite = false) :
    y.isFinite = false := by
  rw [isFinite_eq] at hx ⊢
  generalize parts x = u at h hx
  generalize parts y = v at h ⊢
  cases h with
  | finite _ _ _ => exact absurd hx (by simp [UnpackedFloat.isFinite])
  | infinite _ => rfl

end

end Courier.Double
