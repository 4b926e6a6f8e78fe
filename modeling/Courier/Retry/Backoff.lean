/-!
# Backoff

The pause before a retry grows by a factor from one retry to the next, up to a cap, and is then
shifted by a random amount of at most the jitter to either side.
-/

namespace Courier

/-- A span of time in microseconds. -/
structure Span where
  micros : Nat
deriving DecidableEq, Repr, Inhabited

namespace Span

def ofMillis (n : Nat) : Span := ⟨n * 1000⟩

def millis (s : Span) : Nat := s.micros / 1000

@[simp] theorem millis_ofMillis (n : Nat) : (ofMillis n).millis = n := by
  simp [ofMillis, millis]

protected def min (a b : Span) : Span :=
  if a.micros ≤ b.micros then a else b

end Span

structure Backoff where
  initial : Span
  cap : Span
  factor : Float
  jitter : Span

namespace Backoff

/-- Factors that would shrink the pause, and what is no number, count as one. -/
def of (initial cap : Span) (factor : Float) (jitter : Span) : Backoff :=
  ⟨initial, cap, if factor > 1 then factor else 1, jitter⟩

/-- `r * a ^ n` by repeated squaring. -/
def powerTimes (a r : Float) (n : Nat) : Float :=
  let r := if n % 2 = 1 then r * a else r
  if n / 2 = 0 then r else powerTimes (a * a) r (n / 2)
termination_by n
decreasing_by omega

def power (a : Float) (n : Nat) : Float :=
  powerTimes a 1 n

/-- Exponents stop at the greatest signed number of 32 bits. -/
def exponent (attempt : UInt32) : Nat :=
  min (attempt.toNat - 1) 2147483647

/-- The pause after the given attempt, before jitter. Whatever overflows is the cap. -/
def baseDelay (b : Backoff) (attempt : UInt32) : Span :=
  let millis := Float.ofNat b.initial.millis * power b.factor (exponent attempt)
  if !millis.isFinite || millis ≥ Float.ofNat b.cap.millis then b.cap
  else (Span.ofMillis millis.toUInt64.toNat).min b.cap

def widest (b : Backoff) : Nat :=
  2 * b.jitter.millis

/-- The pause for an offset drawn from zero to `widest`: the base, moved by the offset less the
jitter, but not below zero. -/
def delay (b : Backoff) (attempt : UInt32) (offset : Nat) : Span :=
  let base := (b.baseDelay attempt).millis
  .ofMillis (min (base + min offset b.widest - b.jitter.millis) 18446744073709551615)

end Backoff

end Courier
