import Courier.Proofs.Double.Order
import Courier.Retry.Backoff

/-!
# Pauses of whole milliseconds

With a whole factor and whole milliseconds the pause before a retry is the capped product over
the integers, rounding and the greatest exponent notwithstanding, as long as the first pause is
not zero. No pause at all stays none only until the power of the factor is infinite: zero times
infinity is no number, and what is no number becomes the cap. In either case the pause never
shrinks from one attempt to the next.
-/

namespace Courier.Backoff

open Double

-- ---------------------------------------------------------------------------
-- Powers
-- ---------------------------------------------------------------------------

theorem powerTimes_step (a r : Float) (n : Nat) :
    powerTimes a r n =
      if n / 2 = 0 then if n % 2 = 1 then r * a else r
      else powerTimes (a * a) (if n % 2 = 1 then r * a else r) (n / 2) := by
  rw [powerTimes]

theorem powerTimes_zero (a r : Float) : powerTimes a r 0 = r :=
  powerTimes_step a r 0

/-- What a product of `j + k` factors keeps of products of `j` and of `k` factors, repeated
squaring keeps. -/
theorem powerTimes_keeps {P : Nat → Float → Prop}
    (hmul : ∀ j k x y, P j x → P k y → P (j + k) (x * y)) {a r : Float} {j k n : Nat} (ha : P j a)
    (hr : P k r) : P (k + j * n) (powerTimes a r n) := by
  induction n using Nat.strongRecOn generalizing a r j k with
  | ind n ih =>
    have hodd : P (k + j * (n % 2)) (if n % 2 = 1 then r * a else r) := by
      rcases Nat.mod_two_eq_zero_or_one n with h | h
      · simpa [h] using hr
      · simpa [h] using hmul k j r a hr ha
    have hsplit : k + j * n = k + j * (n % 2) + (j + j) * (n / 2) := by
      rw [← Nat.two_mul, Nat.mul_assoc, Nat.mul_left_comm, Nat.add_assoc, ← Nat.mul_add,
        Nat.mod_add_div]
    rw [powerTimes_step, hsplit]
    split
    · next hhalf => rwa [hhalf, Nat.mul_zero, Nat.add_zero]
    · exact ih (n / 2) (by omega) (hmul j j a a ha ha) hodd

theorem power_keeps {P : Nat → Float → Prop} (hmul : ∀ j k x y, P j x → P k y → P (j + k) (x * y))
    {a : Float} (ha : P 1 a) (hone : P 0 1) (n : Nat) : P n (power a n) := by
  have hpower := powerTimes_keeps hmul (n := n) ha hone
  rwa [Nat.zero_add, Nat.one_mul] at hpower

section
variable {f : Nat}

theorem shows_power (hf : 1 ≤ f) (hf' : f < 2 ^ 53) (n : Nat) :
    Shows (f ^ n) (parts (power (.ofNat f) n)) := by
  refine power_keeps (P := fun k x => Shows (f ^ k) (parts x)) (fun j k x y hx hy => ?_) ?_
    (shows_ofNat (n := 1) (by decide)) n
  · rw [Nat.pow_add]
    exact hx.mul hy (Nat.pow_pos hf) (Nat.pow_pos hf)
  · rw [Nat.pow_one]
    exact shows_ofNat hf'

theorem between_power {lo hi : Nat} (hf' : f < 2 ^ 53) (hlo : 2 ^ lo ≤ f) (hhi : f ≤ 2 ^ hi)
    (n : Nat) : Between (lo * n) (hi * n) (parts (power (.ofNat f) n)) := by
  have hf : 0 < f := Nat.lt_of_lt_of_le (Nat.two_pow_pos lo) hlo
  refine power_keeps (P := fun k x => Between (lo * k) (hi * k) (parts x)) (fun j k x y hx hy => ?_)
    ?_ ?_ n
  · rw [Nat.mul_add, Nat.mul_add]
    exact hx.mul hy
  · rw [Nat.mul_one, Nat.mul_one]
    exact (shows_ofNat hf').between hf hf' hlo hhi
  · rw [Nat.mul_zero, Nat.mul_zero]
    exact (shows_ofNat (n := 1) (by decide)).between (by decide) (by decide) (by decide) (by decide)

end

section
variable {a r r' : Float}

theorem powerTimes_mono (ha : AtLeastOne (parts a)) (h : Below (parts r) (parts r')) (n : Nat) :
    Below (parts (powerTimes a r n)) (parts (powerTimes a r' n)) := by
  induction n using Nat.strongRecOn generalizing a r r' with
  | ind n ih =>
    have hodd : Below (parts (if n % 2 = 1 then r * a else r))
        (parts (if n % 2 = 1 then r' * a else r')) := by
      split
      · exact h.mul ha.below_self
      · exact h
    rw [powerTimes_step a r n, powerTimes_step a r' n]
    by_cases hhalf : n / 2 = 0
    · rw [if_pos hhalf, if_pos hhalf]
      exact hodd
    · rw [if_neg hhalf, if_neg hhalf]
      exact ih (n / 2) (by omega) (ha.mul ha) hodd

/-- Counting up the exponent carries: the squares of the low ones give way to the next square,
which is above their product. -/
theorem powerTimes_below_succ (ha : AtLeastOne (parts a)) (h : Below (parts r) (parts a))
    (n : Nat) : Below (parts (powerTimes a r n)) (parts (powerTimes a 1 (n + 1))) := by
  induction n using Nat.strongRecOn generalizing a r with
  | ind n ih =>
    rw [powerTimes_step a r n, powerTimes_step a 1 (n + 1)]
    rcases Nat.mod_two_eq_zero_or_one n with heven | hodd
    · have hone : Below (parts r) (parts (1 * a)) := by rwa [ha.one_mul]
      rw [show (n + 1) / 2 = n / 2 by omega, if_neg (by omega : ¬ n % 2 = 1),
        if_pos (by omega : (n + 1) % 2 = 1)]
      by_cases hhalf : n / 2 = 0
      · rw [if_pos hhalf, if_pos hhalf]
        exact hone
      · rw [if_neg hhalf, if_neg hhalf]
        exact powerTimes_mono (ha.mul ha) hone (n / 2)
    · have hcarry := ih (n / 2) (by omega) (ha.mul ha) (h.mul ha.below_self)
      rw [show (n + 1) / 2 = n / 2 + 1 by omega, if_pos hodd,
        if_neg (by omega : ¬ (n + 1) % 2 = 1), if_neg (Nat.succ_ne_zero _)]
      by_cases hhalf : n / 2 = 0
      · rw [if_pos hhalf, hhalf]
        rwa [hhalf, powerTimes_zero] at hcarry
      · rw [if_neg hhalf]
        exact hcarry

end

theorem power_infinite_mono {f j k : Nat} (hf : 1 ≤ f) (hf' : f < 2 ^ 53) (h : j ≤ k)
    (hj : (power (.ofNat f) j).isFinite = false) : (power (.ofNat f) k).isFinite = false := by
  have ha : AtLeastOne (parts (.ofNat f)) := (shows_ofNat hf').atLeastOne hf
  induction h with
  | refl => exact hj
  | step _ ih => exact (powerTimes_below_succ ha ha.one_below _).isFinite ih

-- ---------------------------------------------------------------------------
-- Pauses
-- ---------------------------------------------------------------------------

def whole (initial cap factor : Nat) (jitter : Span) : Backoff :=
  .of (.ofMillis initial) (.ofMillis cap) (.ofNat factor) jitter

def exactDelay (initial cap factor attempt : Nat) : Nat :=
  min cap (initial * factor ^ (max attempt 1 - 1))

/-- The power of the factor is infinite. -/
def Overflows (factor : Nat) (attempt : UInt32) : Prop :=
  (power (.ofNat factor) (exponent attempt)).isFinite = false

section
variable {i m f : Nat} {jitter : Span} {n : UInt32}

theorem factor_whole (hf : 1 ≤ f) (hf' : f < 2 ^ 53) : (whole i m f jitter).factor = .ofNat f := by
  have hone : (1 : Float) < .ofNat f ↔ 1 < f :=
    (shows_ofNat (n := 1) (by decide)).lt_iff (shows_ofNat hf') (by decide)
  show (if Float.ofNat f > 1 then Float.ofNat f else 1) = .ofNat f
  split
  · rfl
  · next h =>
    have hlast : f = 1 := by
      rw [gt_iff_lt, hone] at h
      omega
    rw [hlast]
    rfl

theorem baseDelay_whole (hf : 1 ≤ f) (hf' : f < 2 ^ 53) :
    (whole i m f jitter).baseDelay n =
      let millis := Float.ofNat i * power (.ofNat f) (exponent n)
      if !millis.isFinite || millis ≥ Float.ofNat m then .ofMillis m
      else (Span.ofMillis millis.toUInt64.toNat).min (.ofMillis m) := by
  have hinitial : (whole i m f jitter).initial.millis = i := Span.millis_ofMillis i
  have hcap : (whole i m f jitter).cap.millis = m := Span.millis_ofMillis m
  rw [baseDelay, factor_whole hf hf', hinitial, hcap]
  rfl

theorem min_ofMillis (a b : Nat) :
    (Span.ofMillis a).min (.ofMillis b) = .ofMillis (min a b) := by
  by_cases h : a ≤ b
  · rw [Nat.min_eq_left h]
    exact if_pos (Nat.mul_le_mul_right 1000 h)
  · rw [Nat.min_eq_right (by omega)]
    exact if_neg fun hle => h (Nat.le_of_mul_le_mul_right hle (by decide))

theorem capped_of_shows {x : Float} {a : Nat} (hx : Shows a (parts x)) (hm : m < 2 ^ 53) :
    (if !x.isFinite || x ≥ Float.ofNat m then Span.ofMillis m
      else (Span.ofMillis x.toUInt64.toNat).min (.ofMillis m)) = .ofMillis (min m a) := by
  have hle : x ≥ Float.ofNat m ↔ m ≤ a := (shows_ofNat hm).le_iff hx hm
  by_cases h : m ≤ a
  · rw [Nat.min_eq_left h]
    exact if_pos (by simp [hle, h])
  · have ha : a < 2 ^ 53 := by omega
    rw [Nat.min_eq_right (by omega), if_neg (by simp [hle, h, hx.isFinite ha]),
      hx.toNat_toUInt64 ha, min_ofMillis, Nat.min_eq_left (by omega)]

theorem le_mul_pow {e : Nat} (hi : 0 < i) (hm : m < 2 ^ 53) (hf : 2 ≤ f) (he : 53 ≤ e) :
    m ≤ i * f ^ e :=
  calc m
    _ ≤ 2 ^ 53 := Nat.le_of_lt hm
    _ ≤ 2 ^ e := Nat.pow_le_pow_right (by decide) he
    _ ≤ f ^ e := Nat.pow_le_pow_left hf e
    _ ≤ i * f ^ e := Nat.le_mul_of_pos_left _ hi

theorem exactDelay_eq (hi : 0 < i) (hm : m < 2 ^ 53) (hf : 1 ≤ f) (n : UInt32) :
    exactDelay i m f n.toNat = min m (i * f ^ exponent n) := by
  have hattempt : max n.toNat 1 - 1 = n.toNat - 1 := by omega
  rw [exactDelay, exponent, hattempt]
  generalize hL : 2147483647 = L
  rcases Nat.le_total (n.toNat - 1) L with h | h
  · rw [Nat.min_eq_left h]
  · rw [Nat.min_eq_right h]
    rcases Nat.eq_or_lt_of_le hf with rfl | hf
    · rw [Nat.one_pow, Nat.one_pow]
    · rw [Nat.min_eq_left (le_mul_pow hi hm hf (by omega)),
        Nat.min_eq_left (le_mul_pow hi hm hf (by omega))]

theorem exactDelay_mono (hf : 1 ≤ f) {j k : Nat} (h : j ≤ k) :
    exactDelay i m f j ≤ exactDelay i m f k := by
  have hpow : f ^ (max j 1 - 1) ≤ f ^ (max k 1 - 1) := Nat.pow_le_pow_right hf (by omega)
  have hproduct := Nat.mul_le_mul_left i hpow
  rw [exactDelay, exactDelay]
  omega

theorem exactDelay_zero (n : Nat) : exactDelay 0 m f n = 0 := by
  rw [exactDelay, Nat.zero_mul, Nat.min_zero]

theorem baseDelay_of_pos (hi : 0 < i) (hi' : i < 2 ^ 53) (hm : m < 2 ^ 53) (hf : 1 ≤ f)
    (hf' : f < 2 ^ 53) :
    (whole i m f jitter).baseDelay n = .ofMillis (exactDelay i m f n.toNat) := by
  have hshows := (shows_ofNat hi').mul (shows_power hf hf' (exponent n)) hi (Nat.pow_pos hf)
  rw [baseDelay_whole hf hf', exactDelay_eq hi hm hf]
  exact capped_of_shows hshows hm

theorem baseDelay_of_zero (hm : m < 2 ^ 53) (hf : 1 ≤ f) (hf' : f < 2 ^ 53) :
    (¬ Overflows f n → (whole 0 m f jitter).baseDelay n = .ofMillis 0) ∧
      (Overflows f n → (whole 0 m f jitter).baseDelay n = .ofMillis m) := by
  rw [baseDelay_whole hf hf', Overflows]
  rcases zero_mul_cases (x := .ofNat 0) rfl (shows_power hf hf' (exponent n)) with
    ⟨hfinite, hshows⟩ | ⟨hinfinite, hnan⟩
  · refine ⟨fun _ => ?_, fun h => absurd (hfinite.symm.trans h) (by decide)⟩
    exact (capped_of_shows hshows hm).trans (by rw [Nat.min_zero])
  · exact ⟨fun h => absurd hinfinite h, fun _ => if_pos (by simp [hnan])⟩

theorem Overflows.mono {n' : UInt32} (hf : 1 ≤ f) (hf' : f < 2 ^ 53) (hn : n ≤ n')
    (h : Overflows f n) : Overflows f n' := by
  have hexponent : exponent n ≤ exponent n' := by
    have hle : n.toNat ≤ n'.toNat := hn
    rw [exponent, exponent]
    omega
  exact power_infinite_mono hf hf' hexponent h

theorem baseDelay_mono {n' : UInt32} (hi : i < 2 ^ 53) (hm : m < 2 ^ 53) (hf : 1 ≤ f)
    (hf' : f < 2 ^ 53) (hn : n ≤ n') :
    ((whole i m f jitter).baseDelay n).micros ≤ ((whole i m f jitter).baseDelay n').micros := by
  rcases Nat.eq_zero_or_pos i with rfl | hpos
  · by_cases hover : Overflows f n'
    · rw [(baseDelay_of_zero hm hf hf').2 hover]
      by_cases hover' : Overflows f n
      · rw [(baseDelay_of_zero hm hf hf').2 hover']
      · rw [(baseDelay_of_zero hm hf hf').1 hover']
        exact Nat.zero_le _
    · have hover' : ¬ Overflows f n := fun h => hover (h.mono hf hf' hn)
      rw [(baseDelay_of_zero hm hf hf').1 hover, (baseDelay_of_zero hm hf hf').1 hover']
  · rw [baseDelay_of_pos hpos hi hm hf hf', baseDelay_of_pos hpos hi hm hf hf']
    exact Nat.mul_le_mul_right 1000 (exactDelay_mono hf hn)

theorem overflows_cases {lo hi : Nat} (hf' : f < 2 ^ 53) (hlo : 2 ^ lo ≤ f) (hhi : f ≤ 2 ^ hi) :
    (hi * exponent n < 1024 → ¬ Overflows f n) ∧ (1024 ≤ lo * exponent n → Overflows f n) := by
  have hbetween := between_power hf' hlo hhi (exponent n)
  refine ⟨fun h => ?_, fun h => hbetween.not_isFinite h⟩
  rw [Overflows, hbetween.isFinite h]
  decide

end

/-- The pause is the capped product unless it starts from zero, has somewhere to go, and the power
of the factor is infinite. -/
theorem baseDelay_exact_iff (i m f : Nat) (jitter : Span) (n : UInt32) (hi : i < 2 ^ 53)
    (hm : m < 2 ^ 53) (hf : 1 ≤ f) (hf' : f < 2 ^ 53) :
    ((whole i m f jitter).baseDelay n = .ofMillis (exactDelay i m f n.toNat) ↔
      ¬ (i = 0 ∧ 0 < m ∧ Overflows f n)) ∧
    (i = 0 → Overflows f n → (whole i m f jitter).baseDelay n = .ofMillis m) ∧
    (∀ n', n ≤ n' →
      ((whole i m f jitter).baseDelay n).micros ≤ ((whole i m f jitter).baseDelay n').micros) ∧
    ∀ lo hi, 2 ^ lo ≤ f → f ≤ 2 ^ hi →
      (hi * exponent n < 1024 → ¬ Overflows f n) ∧ (1024 ≤ lo * exponent n → Overflows f n) := by
  refine ⟨?_, ?_, fun n' hn => baseDelay_mono hi hm hf hf' hn,
    fun lo hi hlo hhi => overflows_cases hf' hlo hhi⟩
  · rcases Nat.eq_zero_or_pos i with rfl | hpos
    · obtain ⟨hfinite, hinfinite⟩ :
          (¬ Overflows f n → (whole 0 m f jitter).baseDelay n = .ofMillis 0) ∧
            (Overflows f n → (whole 0 m f jitter).baseDelay n = .ofMillis m) :=
        baseDelay_of_zero hm hf hf'
      rw [exactDelay_zero]
      by_cases hover : Overflows f n
      · rw [hinfinite hover]
        have hcap : Span.ofMillis m = .ofMillis 0 ↔ m = 0 := by
          rw [Span.ofMillis, Span.ofMillis, Span.mk.injEq]
          omega
        simp [hcap, hover]
      · simp [hfinite hover, hover]
    · exact iff_of_true (baseDelay_of_pos hpos hi hm hf hf') (fun h => by omega)
  · rintro rfl hover
    exact (baseDelay_of_zero hm hf hf').2 hover

/-- Half a second doubles three times; no pause becomes the cap with the power of 1024. -/
theorem pauses_of_factor_two :
    (whole 500 300000 2 ⟨0⟩).baseDelay 4 = .ofMillis 4000 ∧
      (whole 0 1000 2 ⟨0⟩).baseDelay 1024 = .ofMillis 0 ∧
      (whole 0 1000 2 ⟨0⟩).baseDelay 1025 = .ofMillis 1000 := by
  refine ⟨?_, ?_, ?_⟩
  · obtain ⟨hexact, -⟩ :=
      baseDelay_exact_iff 500 300000 2 ⟨0⟩ 4 (by decide) (by decide) (by decide) (by decide)
    exact hexact.2 fun h => absurd h.1 (by decide)
  · obtain ⟨hexact, -, -, hover⟩ :=
      baseDelay_exact_iff 0 1000 2 ⟨0⟩ 1024 (by decide) (by decide) (by decide) (by decide)
    have hfinite := (hover 1 1 (by decide) (by decide)).1 (by decide)
    exact (hexact.2 fun h => hfinite h.2.2).trans (by rw [exactDelay_zero])
  · obtain ⟨-, hcap, -, hover⟩ :=
      baseDelay_exact_iff 0 1000 2 ⟨0⟩ 1025 (by decide) (by decide) (by decide) (by decide)
    exact hcap rfl ((hover 1 1 (by decide) (by decide)).2 (by decide))

theorem no_pause_becomes_cap :
    ¬ ∀ (i m f : Nat) (jitter : Span) (n : UInt32), i < 2 ^ 53 → m < 2 ^ 53 → 1 ≤ f → f < 2 ^ 53 →
      (whole i m f jitter).baseDelay n = .ofMillis (exactDelay i m f n.toNat) := by
  intro h
  have hzero := h 0 1000 2 ⟨0⟩ 1025 (by decide) (by decide) (by decide) (by decide)
  have hover : Overflows 2 1025 := by
    have hpower : 2 ^ 1 ≤ 2 ∧ 2 ≤ 2 ^ 1 := by decide
    exact (overflows_cases (by decide) hpower.1 hpower.2).2 (by decide)
  rw [(baseDelay_of_zero (by decide) (by decide) (by decide)).2 hover, exactDelay_zero] at hzero
  exact absurd hzero (by decide)

end Courier.Backoff
