import Courier.Delivery.Task
import Courier.Relay

/-!
# Calls on a timeline

A batch of records is worked off with at most a given number of calls under way. A call waits for
answers and in pauses; while it waits others run. Results are taken in record order, and only a
taken result makes room for the next call.
-/

namespace Courier

/-- What calls run against: ids for requests without, and the answers to attempts with the time
until they come, in milliseconds. -/
structure World (σ : Type) where
  freshIds : σ → FreshIds × σ
  send : σ → Request → UInt32 → (Nat × Attempt) × σ

structure Site (σ : Type) where
  world : σ
  broker : Broker Exchange := {}
  metrics : List Metric := []

/-- A call between two waits: it has sent an attempt, or rests before the next one. -/
inductive Flight where
  | answering (i : Invocation) (a : Attempt)
  | pausing (i : Invocation)

inductive Leg where
  | wait (ms : Nat) (f : Flight)
  | landed (result : Except Rejection Exchange)

namespace Site

variable {σ : Type}

def count (s : Site σ) (ms : List Metric) : Site σ :=
  { s with metrics := ms.reverse ++ s.metrics }

def depart (w : World σ) (s : Site σ) (i : Invocation) : Leg × Site σ :=
  let ((ms, a), world) := w.send s.world i.request i.number
  (.wait ms (.answering i a), { s with world })

def launch [Pattern.Room] (w : World σ) (t : Delivery) (s : Site σ) (record : InboundRecord) :
    Leg × Site σ :=
  let (ids, world) := w.freshIds s.world
  match t.prepare ids record with
  | .ok i => depart w { s with world } i
  | .error e => (.landed (.error e), { s with world })

def resume (w : World σ) (t : Delivery) (s : Site σ) (f : Flight) : Leg × Site σ :=
  match f with
  | .pausing i => depart w s i
  | .answering i a =>
    let next := i.next a
    let s := s.count (Invocation.metrics next)
    match next with
    | .pause delay i => (.wait delay.millis (.pausing i), s)
    | .done x =>
      let (broker, metrics) := t.publish s.broker x
      (.landed (.ok x), ({ s with broker } : Site σ).count metrics)

def proceed (w : World σ) (t : Delivery) : Nat → Leg × Site σ → Leg × Site σ
  | fuel + 1, (.wait 0 f, s) => proceed w t fuel (resume w t s f)
  | _, leg => leg

/-- More waits than any call has: two for every attempt. -/
def patience : Nat := 4 * UInt32.size

def finish (w : World σ) (t : Delivery) : Nat → Nat → Leg × Site σ →
    (Except Rejection Exchange × Nat) × Site σ
  | fuel + 1, time, (.wait ms f, s) => finish w t fuel (time + ms) (resume w t s f)
  | _, time, (.landed result, s) => ((result, time), s)
  | 0, time, (.wait _ _, s) => ((.error (.invalid "call without end"), time), s)

def process [Pattern.Room] (w : World σ) (t : Delivery) (s : Site σ) (record : InboundRecord) :
    (Except Rejection Exchange × Nat) × Site σ :=
  finish w t patience 0 (launch w t s record)

end Site

structure Batch where
  waiting : List (Nat × InboundRecord)
  ready : List (Nat × (InboundRecord ⊕ Flight))
  /-- Calls that wait until a time, the first to have begun waiting first. -/
  resting : List (Nat × Nat × Flight)
  landed : List (Nat × Except Rejection Exchange)
  taken : List (Except Rejection Exchange)
  now : Nat

namespace Batch

variable {σ : Type}

def of (records : List InboundRecord) : Batch where
  waiting := records.zipIdx.map fun (record, place) => (place, record)
  ready := []
  resting := []
  landed := []
  taken := []
  now := 0

def begun (b : Batch) : Nat :=
  b.ready.length + b.resting.length + b.landed.length

def fill (width : Nat) (b : Batch) : Batch :=
  let room := b.waiting.take (width - b.begun)
  { b with
    waiting := b.waiting.drop (width - b.begun)
    ready := b.ready ++ room.map fun (place, record) => (place, .inl record) }

def take? (b : Batch) : Option Batch :=
  match b.landed.lookup b.taken.length with
  | some result =>
    some { b with
      landed := b.landed.filter (·.1 != b.taken.length)
      taken := result :: b.taken }
  | none => none

/-- Lets time pass until the first call that rests is to run again. -/
def awake? (b : Batch) : Option Batch :=
  match (b.resting.map (·.2.1)).min? with
  | none => none
  | some time =>
    let (due, later) := b.resting.partition (·.2.1 ≤ time)
    some { b with
      ready := b.ready ++ due.map fun (place, _, f) => (place, .inr f)
      resting := later
      now := time }

def run [Pattern.Room] (w : World σ) (t : Delivery) (b : Batch) (s : Site σ) (place : Nat)
    (job : InboundRecord ⊕ Flight) (rest : List (Nat × (InboundRecord ⊕ Flight))) :
    Batch × Site σ :=
  let start := match job with
    | .inl record => Site.launch w t s record
    | .inr f => Site.resume w t s f
  match Site.proceed w t Site.patience start with
  | (.wait ms f, s) =>
    ({ b with ready := rest, resting := b.resting ++ [(place, b.now + ms, f)] }, s)
  | (.landed result, s) => ({ b with ready := rest, landed := b.landed ++ [(place, result)] }, s)

/-- Works a batch off: takes what can be taken and begins new calls, else runs a call, else lets
time pass. At most `fuel` such steps. -/
def workOff [Pattern.Room] (w : World σ) (t : Delivery) (width : Nat) :
    Nat → Batch → Site σ → Batch × Site σ
  | 0, b, s => (b, s)
  | fuel + 1, b, s =>
    match b.take? with
    | some b => workOff w t width fuel (b.fill width) s
    | none =>
      match b.ready with
      | (place, job) :: rest =>
        let (b, s) := b.run w t s place job rest
        workOff w t width fuel b s
      | [] =>
        match b.awake? with
        | some b => workOff w t width fuel b s
        | none => (b, s)

end Batch

structure PutResult where
  results : List (Except Rejection Exchange)
  elapsed : Nat

def Delivery.width (t : Delivery) : Nat :=
  max t.settings.concurrency.toNat 1

def Site.put [Pattern.Room] (w : World σ) (t : Delivery) (s : Site σ)
    (records : List InboundRecord) : PutResult × Site σ :=
  let fuel := (records.length + 1) * (3 * patience)
  let worked := Batch.workOff w t t.width fuel ((Batch.of records).fill t.width) s
  (⟨worked.1.taken.reverse, worked.1.now⟩, worked.2)

/-- Executes a record while a relay waits for its queue. Whoever can run runs; when both can, they
take turns in going first. -/
def Site.watch (w : World σ) (t : Delivery) (r : Relay) (watch : Watch) (turn : Bool) :
    Nat → Nat → Leg × Site σ →
      (List OutboundRecord × Except Rejection Exchange × Nat) × Site σ
  | 0, time, (_, s) => (([], .error (.invalid "call without end"), time), s)
  | fuel + 1, time, (.landed result, s) =>
    let _ := fuel
    let (polled, broker) :=
      if (s.broker.mailbox r.settings.queueName).woken.contains watch.ticket then
        r.attend watch.ticket s.broker
      else (none, r.leave watch.ticket s.broker)
    match polled with
    | some p =>
      ((p.records, result, time), ({ s with broker := p.broker } : Site σ).count p.metrics)
    | none => (([], result, max time watch.deadline), { s with broker })
  | fuel + 1, time, (.wait ms f, s) =>
    let due := time + ms
    if watch.deadline < due ∨ watch.deadline = due ∧ turn then
      let s := { s with broker := r.leave watch.ticket s.broker }
      let ((result, due), s) := finish w t fuel due (resume w t s f)
      (([], result, due), s)
    else Site.watch w t r watch (!turn) fuel due (proceed w t patience (resume w t s f))

end Courier
