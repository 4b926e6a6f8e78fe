import Courier.Delivery.Timeline
import Courier.Retry.Execution

/-!
# Schedules

A batch of records worked off in any order: of the calls under way any one may go on next, and
between its steps others may use the broker. The calls share a site and the patterns compiled so
far. Each keeps account of what it did.
-/

namespace Courier

def Invocation.follow (i : Invocation) (a : Attempt) : Decision → Next
  | .retry => .pause (i.policy.backoff.delay i.number a.offset) { i with number := i.number + 1 }
  | d => .done (.of i.request (responseOf a.result) a.elapsed a.moment i.number (d = .success))

variable [Pattern.Room]

def Invocation.startWith (c : Classifier) (invoker : Invoker) (policy : RetryPolicy)
    (request : Request) : Except Rejection Invocation × Classifier :=
  if invoker.requireCorrelationId && request.correlationId.isNone then
    (.error (.missing "correlationId"), c)
  else
    let policy := policy.override request.retry
    let (pattern, c) := c.pattern policy.successPattern
    (pattern.map fun p => ⟨request, policy, p, 1⟩, c)

def Delivery.prepareWith (t : Delivery) (c : Classifier) (ids : FreshIds)
    (record : InboundRecord) : Except Rejection Invocation × Classifier :=
  match buildRequest t.settings ids record with
  | .ok request => Invocation.startWith c t.invoker (t.policyFor record) request
  | .error e => (.error e, c)

namespace Schedule

variable {σ : Type}

inductive Effect where
  | drew (ids : FreshIds)
  | sent (request : Request) (number : UInt32)
  | published (x : Exchange)

def published (effects : List Effect) : List Exchange :=
  effects.filterMap fun
    | .published x => some x
    | _ => none

/-- What all calls of a batch share. -/
structure Shared (σ : Type) where
  site : Site σ
  classifier : Classifier := {}

structure Stretch (σ : Type) where
  leg : Leg
  effects : List Effect
  shared : Shared σ

-- ---------------------------------------------------------------------------
-- One call
-- ---------------------------------------------------------------------------

def depart (w : World σ) (s : Shared σ) (i : Invocation) : Stretch σ :=
  let ((ms, a), world) := w.send s.site.world i.request i.number
  ⟨.wait ms (.answering i a), [.sent i.request i.number],
    { s with site := { s.site with world } }⟩

def launch (w : World σ) (t : Delivery) (s : Shared σ) (record : InboundRecord) : Stretch σ :=
  let (ids, world) := w.freshIds s.site.world
  let site := { s.site with world }
  match t.prepareWith s.classifier ids record with
  | (.ok i, classifier) =>
    let stretch := depart w ⟨site, classifier⟩ i
    { stretch with effects := .drew ids :: stretch.effects }
  | (.error e, classifier) => ⟨.landed (.error e), [.drew ids], ⟨site, classifier⟩⟩

def publications (t : Delivery) (broker : Broker Exchange) (x : Exchange) : List Exchange :=
  if t.settings.publish && broker.hasConsumer t.settings.queueName then [x] else []

/-- The classifier could refuse a call even now. -/
def resume (w : World σ) (t : Delivery) (s : Shared σ) : Flight → Stretch σ
  | .pausing i => depart w s i
  | .answering i a =>
    match s.classifier.judge i.policy i.number a.result with
    | (.error e, classifier) => ⟨.landed (.error e), [], ⟨s.site.count [.attempt], classifier⟩⟩
    | (.ok d, classifier) =>
      let next := i.follow a d
      let site := s.site.count (Invocation.metrics next)
      match next with
      | .pause delay i => ⟨.wait delay.millis (.pausing i), [], ⟨site, classifier⟩⟩
      | .done x =>
        let (broker, metrics) := t.publish site.broker x
        ⟨.landed (.ok x), (publications t site.broker x).map .published,
          ⟨({ site with broker } : Site σ).count metrics, classifier⟩⟩

def run (w : World σ) (t : Delivery) (s : Shared σ) : InboundRecord ⊕ Flight → Stretch σ
  | .inl record => launch w t s record
  | .inr f => resume w t s f

-- ---------------------------------------------------------------------------
-- All calls
-- ---------------------------------------------------------------------------

structure Call (stage : Type) where
  place : Nat
  effects : List Effect
  stage : stage

/-- A batch that is worked off in no particular order. -/
structure State (σ : Type) where
  waiting : List (Nat × InboundRecord)
  flying : List (Call (InboundRecord ⊕ Flight))
  /-- Calls whose results wait for those of earlier records. -/
  landed : List (Call (Except Rejection Exchange))
  taken : List (Call (Except Rejection Exchange))
  shared : Shared σ

namespace State

def of (records : List InboundRecord) (shared : Shared σ) : State σ where
  waiting := records.zipIdx.map fun (record, place) => (place, record)
  flying := []
  landed := []
  taken := []
  shared := shared

def begun (b : State σ) : Nat :=
  b.flying.length + b.landed.length

def results (b : State σ) : List (Except Rejection Exchange) :=
  b.taken.map (·.stage)

def Done (b : State σ) : Prop :=
  b.waiting = [] ∧ b.flying = [] ∧ b.landed = []

end State

inductive Step (w : World σ) (t : Delivery) : State σ → State σ → Prop where
  | begin {b : State σ} {place : Nat} {record : InboundRecord}
      {waiting : List (Nat × InboundRecord)} (hroom : b.begun < t.width)
      (hwaiting : b.waiting = (place, record) :: waiting) :
      Step w t b { b with waiting, flying := ⟨place, [], .inl record⟩ :: b.flying }
  | wait {b : State σ} {call : Call (InboundRecord ⊕ Flight)}
      {rest : List (Call (InboundRecord ⊕ Flight))} {ms : Nat} {f : Flight}
      {effects : List Effect} {shared : Shared σ} (hcall : b.flying.Perm (call :: rest))
      (hrun : run w t b.shared call.stage = ⟨.wait ms f, effects, shared⟩) :
      Step w t b
        { b with shared, flying := ⟨call.place, call.effects ++ effects, .inr f⟩ :: rest }
  | land {b : State σ} {call : Call (InboundRecord ⊕ Flight)}
      {rest : List (Call (InboundRecord ⊕ Flight))} {result : Except Rejection Exchange}
      {effects : List Effect} {shared : Shared σ} (hcall : b.flying.Perm (call :: rest))
      (hrun : run w t b.shared call.stage = ⟨.landed result, effects, shared⟩) :
      Step w t b
        { b with
          shared, flying := rest
          landed := ⟨call.place, call.effects ++ effects, result⟩ :: b.landed }
  | take {b : State σ} {call : Call (Except Rejection Exchange)}
      {landed : List (Call (Except Rejection Exchange))} (hcall : b.landed.Perm (call :: landed))
      (hplace : call.place = b.taken.length) :
      Step w t b { b with landed, taken := b.taken ++ [call] }

/-- Any number of steps of the batch, which are counted. Between them others do to the broker what
they may, and anything to what else is shared. -/
inductive Run (w : World σ) (t : Delivery) (others : Broker Exchange → Broker Exchange → Prop)
    (start : State σ) : Nat → State σ → Prop where
  | start : Run w t others start 0 start
  | step {n : Nat} {b b' : State σ} (hrun : Run w t others start n b) (hstep : Step w t b b') :
      Run w t others start (n + 1) b'
  | outside {n : Nat} {b : State σ} {shared : Shared σ} (hrun : Run w t others start n b)
      (hothers : others b.shared.site.broker shared.site.broker) :
      Run w t others start n { b with shared }

/-- A broker to which these items are offered one after the other, while others do what they may
in between. -/
inductive Offered {α : Type} (others : Broker α → Broker α → Prop) (name : String)
    (start : Broker α) : List α → Broker α → Prop where
  | start : Offered others name start [] start
  | offer {items : List α} {b : Broker α} (h : Offered others name start items b) (a : α) :
      Offered others name start (items ++ [a]) (b.offer name a)
  | outside {items : List α} {b b' : Broker α} (h : Offered others name start items b)
      (hothers : others b b') : Offered others name start items b'

end Schedule

end Courier
