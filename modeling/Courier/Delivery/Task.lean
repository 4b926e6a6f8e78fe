import Courier.Queue.Broker
import Courier.Record.ExchangeRecord
import Courier.Record.StreamRecord
import Courier.Retry.Invocation

/-!
# The delivery task

Turns inbound records into calls: the value of a record is a request record, static headers and
missing ids are filled in, and a record header may bring a success pattern of its own. The
exchange of a call is published when somebody consumes the queue.
-/

namespace Courier

structure Delivery where
  invoker : Invoker
  settings : SinkSettings

structure FreshIds where
  requestId : String
  correlationId : String

namespace Delivery

/-- The record header with a success pattern for that record only. -/
def patternHeader : String := "ws-success-code"

def described (record : InboundRecord) : Except Rejection Request := do
  match record.value with
  | none => .error (.missing "value")
  | some value =>
    let parsed ← (RequestRecord.form.decode value).mapError .undecodable
    parsed.toRequest

def fillIds (ids : FreshIds) (draft : Draft) : Draft :=
  { draft with
    requestId := draft.requestId <|> some ids.requestId
    correlationId := draft.correlationId <|> some ids.correlationId }

/-- A draft with every static header whose name it does not mention yet. -/
def withStaticHeaders (headers : OrderedMap String) (draft : Draft) : Draft :=
  headers.entries.foldl (fun d (name, value) => d.step (.defaultHeader name value)) draft

def buildRequest (settings : SinkSettings) (ids : FreshIds) (record : InboundRecord) :
    Except Rejection Request := do
  let request ← described record
  let draft := withStaticHeaders settings.staticHeaders request.reopen
  if settings.generateMissingIds then
    (fillIds ids draft).build
  else if settings.requireCorrelationId && request.correlationId.isNone then
    .error (.missing "correlationId")
  else draft.build

def policyFor (t : Delivery) (record : InboundRecord) : RetryPolicy :=
  match record.header? patternHeader with
  | some pattern => t.invoker.policy.withPattern pattern
  | none => t.invoker.policy

/-- The call for a record; nothing is sent yet. -/
def prepare [Pattern.Room] (t : Delivery) (ids : FreshIds) (record : InboundRecord) :
    Except Rejection Invocation := do
  let request ← buildRequest t.settings ids record
  Invocation.start t.invoker (t.policyFor record) request

def publish (t : Delivery) (broker : Broker Exchange) (x : Exchange) :
    Broker Exchange × List Metric :=
  if !t.settings.publish then (broker, [])
  else match broker.publish? t.settings.queueName x with
    | some broker => (broker, [.published])
    | none => (broker, [.dropped])

end Delivery

end Courier
