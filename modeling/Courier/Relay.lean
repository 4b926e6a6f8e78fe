import Courier.Queue.Broker
import Courier.Record.ExchangeRecord
import Courier.Record.StreamRecord
import Courier.Retry.Invocation
import Courier.Settings.Basic

/-!
# The relay task

Takes exchanges from a queue and gives them out as records, on one topic for successes and one
for failures. What cannot be given in the wanted form is skipped.
-/

namespace Courier

structure Relay where
  settings : SourceSettings
  started : Bool := false

/-- A relay that waits for a first exchange: under which ticket, and until when. -/
structure Watch where
  ticket : Nat
  deadline : Nat

namespace Relay

def exchangeSchema : String := "hs.HttpExchange"

def acknowledgementSchema : String := "hs.Acknowledgement"

def schemaVersion : UInt32 := 1

def topicFor (s : SourceSettings) (success : Bool) : String :=
  if success then s.successTopic else s.errorsTopic

def recordOf (s : SourceSettings) (x : Exchange) : Except Rejection OutboundRecord := do
  let (schema, value) ← match s.format with
    | .exchange => .ok (exchangeSchema, (ExchangeRecord.ofExchange x).toValue)
    | .acknowledgement => (x.acknowledge).map fun a => (acknowledgementSchema, a.toValue)
  return { topic := topicFor s x.success, key := x.request.correlationId, schema, schemaVersion,
           value }

/-- Registers as the consumer of the queue, which is what makes others publish to it. -/
def start (r : Relay) (broker : Broker Exchange) : Except QueueError (Relay × Broker Exchange) := do
  let broker ← broker.register r.settings.queueName
  return ({ r with started := true }, broker.ensure r.settings.queueName)

def batch (r : Relay) : Nat :=
  max r.settings.batchSize.toNat 1

def convert (r : Relay) (xs : List Exchange) : List OutboundRecord × List Metric :=
  xs.foldr (fun x (records, metrics) =>
    match recordOf r.settings x with
    | .ok record => (record :: records, metrics)
    | .error _ => (records, .skipped :: metrics)) ([], [])

structure Polled where
  records : List OutboundRecord
  metrics : List Metric
  broker : Broker Exchange

def poll (r : Relay) (broker : Broker Exchange) : Polled :=
  if r.started then
    let (xs, broker) := broker.drain r.settings.queueName r.batch
    let (records, metrics) := r.convert xs
    ⟨records, metrics, broker⟩
  else ⟨[], [], broker⟩

/-- What a wait gives out that received a first exchange: it takes the rest of its batch. -/
def pollAfter (r : Relay) (first : Exchange) (broker : Broker Exchange) : Polled :=
  let (rest, broker) := broker.drain r.settings.queueName (r.batch - 1)
  let (records, metrics) := r.convert (first :: rest)
  ⟨records, metrics, broker⟩

def attend (r : Relay) (ticket : Nat) (broker : Broker Exchange) :
    Option Polled × Broker Exchange :=
  let (item, mailbox) := (broker.mailbox r.settings.queueName).attend ticket
  let broker := broker.update r.settings.queueName fun _ => mailbox
  match item with
  | some x => (some (r.pollAfter x broker), broker)
  | none => (none, broker)

def Polled.andThen (p q : Polled) : Polled :=
  ⟨p.records ++ q.records, p.metrics ++ q.metrics, q.broker⟩

def polls (r : Relay) : Nat → Broker Exchange → Polled
  | 0, broker => ⟨[], [], broker⟩
  | n + 1, broker =>
    let p := r.poll broker
    p.andThen (r.polls n p.broker)

def backlog (r : Relay) (broker : Broker Exchange) : Nat :=
  (broker.mailbox r.settings.queueName).items.length

/-- What a relay gives out that waits again and again, until nothing is left to wait for. -/
def follow (r : Relay) (broker : Broker Exchange) : Polled :=
  r.polls (r.backlog broker) broker

def drainWithin (r : Relay) : Nat → Broker Exchange → Polled
  | 0, broker => ⟨[], [], broker⟩
  | fuel + 1, broker =>
    let p := r.poll broker
    if p.records.isEmpty then p else p.andThen (r.drainWithin fuel p.broker)

/-- The last polls before the program ends. Each takes something or is the last. -/
def drain (r : Relay) (broker : Broker Exchange) : Polled :=
  r.drainWithin (r.backlog broker + 1) broker

def leave (r : Relay) (ticket : Nat) (broker : Broker Exchange) : Broker Exchange :=
  broker.update r.settings.queueName (·.leave ticket)

inductive Wait where
  | ended (p : Polled)
  | suspended (broker : Broker Exchange)

/-- Runs a wait, for the first time or again. Its receiver looks for an exchange unless it sleeps;
without one, the wait is given up when its time has come. -/
def pollWait (r : Relay) (w : Watch) (now : Nat) (broker : Broker Exchange) : Wait :=
  if r.started then
    let asleep := w.ticket ∈ (broker.mailbox r.settings.queueName).sleeping
    match if asleep then (none, broker) else r.attend w.ticket broker with
    | (some p, _) => .ended p
    | (none, broker) =>
      if w.deadline ≤ now then .ended ⟨[], [], r.leave w.ticket broker⟩ else .suspended broker
  else .ended ⟨[], [], broker⟩

end Relay

end Courier
