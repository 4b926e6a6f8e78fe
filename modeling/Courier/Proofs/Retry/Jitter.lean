import Courier.Proofs.Double.Words
import Courier.Proofs.Retry.Backoff
import Courier.Retry.Policy

/-!
# Jittered pauses

Around its base a pause takes every whole number of milliseconds up to the jitter to either side,
not below zero and not above the greatest number of 64 bits. The base is at most the cap, whatever
the factor is. Sums and products are taken in words of 128 bits and never overflow them, nor does
the double that becomes a number ever need more than 64.
-/

namespace Courier

open Double

namespace Backoff

-- ---------------------------------------------------------------------------
-- Words
-- ---------------------------------------------------------------------------

/-- A number, none if it has more than so many bits. -/
def inBits? (bits n : Nat) : Option Nat :=
  if n < 2 ^ bits then some n else none

def wholePart? (x : Float) : Option Nat :=
  if 0 ≤ x ∧ x < .ofNat (2 ^ 64) then some x.toUInt64.toNat else none

def baseDelayInWords? (b : Backoff) (attempt : UInt32) : Option Span :=
  let millis := Float.ofNat b.initial.millis * power b.factor (exponent attempt)
  if !millis.isFinite || millis ≥ Float.ofNat b.cap.millis then some b.cap
  else (wholePart? millis).map fun n => (Span.ofMillis n).min b.cap

def delayInWords? (b : Backoff) (attempt : UInt32) (offset : Nat) : Option Span := do
  let base ← b.baseDelayInWords? attempt
  let widest ← inBits? 128 (b.jitter.millis * 2)
  let moved ← inBits? 128 (base.millis + min offset widest)
  let millis ← inBits? 64 (min (moved - b.jitter.millis) 18446744073709551615)
  return .ofMillis millis

theorem inBits?_of_lt {bits n : Nat} (h : n < 2 ^ bits) : inBits? bits n = some n :=
  if_pos h

-- ---------------------------------------------------------------------------
-- The base
-- ---------------------------------------------------------------------------

theorem atLeastOne_factor (initial cap : Span) (factor : Float) (jitter : Span) :
    AtLeastOne (parts (Backoff.of initial cap factor jitter).factor) := by
  show AtLeastOne (parts (if factor > 1 then factor else 1))
  split
  · next h => exact atLeastOne_of_lt h
  · exact atLeastOne_one

theorem atLeastOne_power {a : Float} (ha : AtLeastOne (parts a)) (n : Nat) :
    AtLeastOne (parts (power a n)) :=
  power_keeps (P := fun _ x => AtLeastOne (parts x)) (fun _ _ _ _ hx hy => hx.mul hy) ha
    atLeastOne_one n

end Backoff

namespace RetryPolicy

open Backoff

variable (p : RetryPolicy) (n : UInt32)

theorem initial_backoff : p.backoff.initial.millis = p.delay.toNat :=
  Span.millis_ofMillis _

theorem cap_backoff : p.backoff.cap.millis = p.maxDelay.toNat :=
  Span.millis_ofMillis _

theorem jitter_backoff : p.backoff.jitter.millis = p.jitter.toNat :=
  Span.millis_ofMillis _

theorem baseDelay_backoff : ∃ base ≤ p.maxDelay.toNat, p.backoff.baseDelay n = .ofMillis base := by
  have hcap : p.backoff.cap = .ofMillis p.maxDelay.toNat := rfl
  simp only [baseDelay, hcap]
  split
  · exact ⟨_, Nat.le_refl _, rfl⟩
  · exact ⟨_, Nat.min_le_right _ _, min_ofMillis _ _⟩

theorem baseDelayInWords?_backoff :
    p.backoff.baseDelayInWords? n = some (p.backoff.baseDelay n) := by
  have hfactor : AtLeastOne (parts p.backoff.factor) := atLeastOne_factor _ _ _ _
  have hproduct := notNegative_ofNat_mul p.delay.toNat_lt (atLeastOne_power hfactor (exponent n))
  simp only [baseDelayInWords?, baseDelay, initial_backoff, cap_backoff]
  split
  · rfl
  · next h =>
    rw [Bool.or_eq_true, not_or, Bool.not_eq_true, Bool.not_eq_false', decide_eq_true_iff] at h
    rw [wholePart?, if_pos (hproduct.room h.1 p.maxDelay.toNat_lt h.2)]
    rfl

-- ---------------------------------------------------------------------------
-- The offset
-- ---------------------------------------------------------------------------

/-- What lies no further from the base than the jitter and is a number of 64 bits. -/
def InReach (base jitter d : Nat) : Prop :=
  base - jitter ≤ d ∧ d ≤ min (base + jitter) 18446744073709551615

theorem inReach_iff {base jitter d : Nat} (hbase : base < 2 ^ 64) :
    InReach base jitter d ↔
      ∃ offset ≤ 2 * jitter, min (base + offset - jitter) 18446744073709551615 = d := by
  constructor
  · intro ⟨hlower, hupper⟩
    exact ⟨d + jitter - base, by omega, by omega⟩
  · rintro ⟨offset, hoffset, rfl⟩
    exact ⟨by omega, by omega⟩

section
variable {p n} {base offset : Nat}

theorem delay_backoff (hbase : p.backoff.baseDelay n = .ofMillis base)
    (hoffset : offset ≤ 2 * p.jitter.toNat) :
    p.backoff.delay n offset =
      .ofMillis (min (base + offset - p.jitter.toNat) 18446744073709551615) := by
  rw [Backoff.delay, widest, hbase, jitter_backoff, Span.millis_ofMillis, Nat.min_eq_left hoffset]

theorem delayInWords?_backoff (hoffset : offset ≤ 2 * p.jitter.toNat) :
    p.backoff.delayInWords? n offset = some (p.backoff.delay n offset) := by
  obtain ⟨base, hle, hbase⟩ := p.baseDelay_backoff n
  have hcap := p.maxDelay.toNat_lt
  have hjitter := p.jitter.toNat_lt
  have hwidest : inBits? 128 (p.jitter.toNat * 2) = some (2 * p.jitter.toNat) := by
    rw [Nat.mul_comm]
    exact inBits?_of_lt (by omega)
  simp only [delayInWords?, baseDelayInWords?_backoff, hbase, jitter_backoff, hwidest,
    Span.millis_ofMillis, Nat.min_eq_left hoffset, Option.bind_eq_bind, Option.bind_some]
  rw [inBits?_of_lt (by omega), Option.bind_some, inBits?_of_lt (by omega), Option.bind_some,
    delay_backoff hbase hoffset]
  rfl

end

/-- The pauses after an attempt are what lies in reach of a base that the cap bounds, each of them
for some offset, and no step of their computation overflows. -/
theorem delays_fill_reach :
    ∃ base ≤ p.maxDelay.toNat, p.backoff.baseDelay n = .ofMillis base ∧
      (∀ offset ≤ 2 * p.jitter.toNat, ∃ d ≤ p.maxDelay.toNat + p.jitter.toNat,
        InReach base p.jitter.toNat d ∧ p.backoff.delay n offset = .ofMillis d ∧
          p.backoff.delayInWords? n offset = some (.ofMillis d)) ∧
      ∀ d, InReach base p.jitter.toNat d →
        ∃ offset ≤ 2 * p.jitter.toNat, p.backoff.delay n offset = .ofMillis d := by
  obtain ⟨base, hle, hbase⟩ := p.baseDelay_backoff n
  have hword : base < 2 ^ 64 := Nat.lt_of_le_of_lt hle p.maxDelay.toNat_lt
  refine ⟨base, hle, hbase, fun offset hoffset => ?_, fun d hd => ?_⟩
  · have hdelay := delay_backoff hbase hoffset
    have hreach := (inReach_iff hword).2 ⟨offset, hoffset, rfl⟩
    refine ⟨_, ?_, hreach, hdelay, hdelay ▸ delayInWords?_backoff hoffset⟩
    exact Nat.le_trans hreach.2 (by omega)
  · obtain ⟨offset, hoffset, rfl⟩ := (inReach_iff hword).1 hd
    exact ⟨offset, hoffset, delay_backoff hbase hoffset⟩

/-- With the greatest jitter a pause of a second at most may be none, and may be the greatest one
there is. -/
theorem greatest_jitter_reaches_ends :
    let p : RetryPolicy := ⟨3, 10, 1000, 2, 18446744073709551615, ""⟩
    (∃ offset ≤ 2 * 18446744073709551615, p.backoff.delay 1 offset = .ofMillis 0) ∧
      ∃ offset ≤ 2 * 18446744073709551615,
        p.backoff.delay 1 offset = .ofMillis 18446744073709551615 := by
  intro p
  obtain ⟨base, hle, -, -, hreached⟩ := p.delays_fill_reach 1
  have hbase : base ≤ 1000 := hle
  have hjitter : p.jitter.toNat = 18446744073709551615 := rfl
  rw [hjitter] at hreached
  exact ⟨hreached 0 ⟨by omega, by omega⟩, hreached _ ⟨by omega, by omega⟩⟩

end RetryPolicy

end Courier
