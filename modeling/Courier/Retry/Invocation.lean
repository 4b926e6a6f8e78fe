import Courier.Http.Exchange
import Courier.Retry.Classifier

/-!
# Invocations

One logical call with all its attempts. An invocation is always about to send its request; what
the attempt comes to either ends it with an exchange or sends it into a pause.
-/

namespace Courier

inductive TransportError where
  | timeout (reason : String)
  | connect (reason : String)
  | request (reason : String)
  | build (reason : String)
deriving Repr, DecidableEq

namespace TransportError

def message : TransportError → String
  | timeout reason => "Request timed out: " ++ reason
  | connect reason => "Connection failed: " ++ reason
  | request reason => "Request failed: " ++ reason
  | build reason => "Could not build request: " ++ reason

def isRetryable : TransportError → Bool
  | build _ => false
  | _ => true

end TransportError

/-- What an attempt came to, with the clock readings around it and the random offset of the pause
that may follow. -/
structure Attempt where
  result : Except TransportError Response
  moment : Moment
  /-- Milliseconds. -/
  elapsed : UInt64
  offset : Nat

inductive Metric where
  | attempt
  | retry
  | exchange (success : Bool)
  | published
  | dropped
  | skipped
deriving Repr, DecidableEq

def Metric.name : Metric → String
  | .attempt => "hs_http_attempts_total"
  | .retry => "hs_http_retries_total"
  | .exchange true => "hs_http_exchanges_total\x7bsuccess=true\x7d"
  | .exchange false => "hs_http_exchanges_total\x7bsuccess=false\x7d"
  | .published => "hs_queue_published_total"
  | .dropped => "hs_queue_dropped_total"
  | .skipped => "hs_source_skipped_total"

structure Invocation where
  request : Request
  policy : RetryPolicy
  pattern : SuccessPattern
  number : UInt32

/-- Who performs calls: the policy for requests that bring none, and whether a request must bring
a correlation id. -/
structure Invoker where
  policy : RetryPolicy
  requireCorrelationId : Bool := false

namespace Invocation

/-- The call of a request under a policy with the request's own overrides. A bad pattern is found
before anything is sent. -/
def start [Pattern.Room] (invoker : Invoker) (policy : RetryPolicy) (request : Request) :
    Except Rejection Invocation := do
  if invoker.requireCorrelationId && request.correlationId.isNone then
    .error (.missing "correlationId")
  let policy := policy.override request.retry
  let pattern ← SuccessPattern.compile policy.successPattern
  return ⟨request, policy, pattern, 1⟩

def decision (i : Invocation) (result : Except TransportError Response) : Decision :=
  let limited (o : Outcome) := (i.pattern.classify o).limit i.number i.policy.maxAttempts
  match result with
  | .ok response => limited (.status response.status)
  | .error e => if e.isRetryable then limited .noResponse else .failure

def responseOf : Except TransportError Response → Response
  | .ok response => response
  | .error e => .failure e.message

inductive Next where
  | pause (delay : Span) (i : Invocation)
  | done (x : Exchange)

def next (i : Invocation) (a : Attempt) : Next :=
  match i.decision a.result with
  | .retry => .pause (i.policy.backoff.delay i.number a.offset) { i with number := i.number + 1 }
  | d => .done (.of i.request (responseOf a.result) a.elapsed a.moment i.number (d = .success))

def metrics (next : Next) : List Metric :=
  match next with
  | .pause _ _ => [.attempt, .retry]
  | .done x => [.attempt, .exchange x.success]

end Invocation

end Courier
