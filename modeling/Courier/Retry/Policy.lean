import Courier.Http.Request
import Courier.Retry.Backoff
import Courier.Settings.Basic

/-!
# Retry policies

How often a call is repeated, how long it pauses, and which statuses are a success. A request
may override all but the success pattern.
-/

namespace Courier

structure RetryPolicy where
  retries : UInt32
  delay : UInt64
  maxDelay : UInt64
  factor : Float
  jitter : UInt64
  successPattern : String
deriving BEq

namespace RetryPolicy

def ofSettings (s : RetrySettings) : RetryPolicy :=
  ⟨s.retries, s.delay, s.maxDelay, s.factor, s.jitter, s.successPattern⟩

def standard : RetryPolicy := ofSettings {}

def override (p : RetryPolicy) (o : RetryOverrides) : RetryPolicy where
  retries := o.retries.getD p.retries
  delay := o.delay.getD p.delay
  maxDelay := o.maxDelay.getD p.maxDelay
  factor := o.factor.getD p.factor
  jitter := o.jitter.getD p.jitter
  successPattern := p.successPattern

def withPattern (p : RetryPolicy) (pattern : String) : RetryPolicy :=
  { p with successPattern := pattern }

/-- The first attempt included; at most the greatest number of 32 bits. -/
def maxAttempts (p : RetryPolicy) : UInt32 :=
  UInt32.ofNat (min (p.retries.toNat + 1) 4294967295)

theorem toNat_maxAttempts (p : RetryPolicy) :
    p.maxAttempts.toNat = min (p.retries.toNat + 1) 4294967295 := by
  simp only [maxAttempts, UInt32.toNat_ofNat']
  omega

def backoff (p : RetryPolicy) : Backoff :=
  .of (.ofMillis p.delay.toNat) (.ofMillis p.maxDelay.toNat) p.factor (.ofMillis p.jitter.toNat)

end RetryPolicy

end Courier
