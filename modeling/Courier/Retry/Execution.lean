import Courier.Retry.Invocation

/-!
# Execution

A call in one piece, from its request to its exchange. After every attempt the classifier is asked
again, by the text of the success pattern; that could refuse the call at any time.
-/

namespace Courier

inductive Act where
  | send (request : Request) (number : UInt32)
  | pause (delay : Span)

def Act.isSend : Act → Bool
  | .send _ _ => true
  | .pause _ => false

structure Course where
  acts : List Act
  exchange : Exchange

namespace Course

def sends (c : Course) : Nat :=
  c.acts.countP Act.isSend

def after (c : Course) (acts : List Act) : Course :=
  { c with acts := acts ++ c.acts }

end Course

variable [Pattern.Room]

def Classifier.judge (c : Classifier) (policy : RetryPolicy) (number : UInt32)
    (result : Except TransportError Response) : Except Rejection Decision × Classifier :=
  match result with
  | .ok response => c.decide policy number (.status response.status)
  | .error e => if e.isRetryable then c.decide policy number .noResponse else (.ok .failure, c)

theorem Classifier.lt_of_judge_retry {c c' : Classifier} {policy : RetryPolicy} {number : UInt32}
    {result : Except TransportError Response}
    (h : c.judge policy number result = (.ok .retry, c')) : number < policy.maxAttempts := by
  unfold judge at h
  cases result with
  | ok response => exact lt_of_decide_retry h
  | error e =>
    simp only at h
    split at h
    · exact lt_of_decide_retry h
    · cases h

namespace Invoker

/-- Attempt after attempt from the given one on. The outcome of the first attempt stands first in
`outcomes`. -/
def attempts (policy : RetryPolicy) (request : Request) (outcomes : Nat → Attempt)
    (c : Classifier) (number : UInt32) : Except Rejection Course × Classifier :=
  let a := outcomes (number.toNat - 1)
  match _h : c.judge policy number a.result with
  | (.error e, c) => (.error e, c)
  | (.ok .retry, c) =>
    let (rest, c) := attempts policy request outcomes c (number + 1)
    let pause := policy.backoff.delay number a.offset
    (rest.map (·.after [.send request number, .pause pause]), c)
  | (.ok d, c) =>
    let response := Invocation.responseOf a.result
    let exchange := .of request response a.elapsed a.moment number (d = .success)
    (.ok ⟨[.send request number], exchange⟩, c)
termination_by UInt32.size - number.toNat
decreasing_by
  have hn := UInt32.lt_iff_toNat_lt.1 (Classifier.lt_of_judge_retry _h)
  have hm := policy.maxAttempts.toNat_lt
  rw [UInt32.toNat_add]
  simp only [UInt32.size, UInt32.reduceToNat]
  omega

def execute (invoker : Invoker) (c : Classifier) (policy : RetryPolicy) (request : Request)
    (outcomes : Nat → Attempt) : Except Rejection Course × Classifier :=
  if invoker.requireCorrelationId && request.correlationId.isNone then
    (.error (.missing "correlationId"), c)
  else
    let policy := policy.override request.retry
    match c.pattern policy.successPattern with
    | (.error e, c) => (.error e, c)
    | (.ok _, c) => attempts policy request outcomes c 1

end Invoker

end Courier
