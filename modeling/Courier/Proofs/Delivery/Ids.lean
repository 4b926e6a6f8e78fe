import Courier.Delivery.Task
import Courier.Proofs.Http.Reopening

/-!
# Drawn ids

The ids drawn for a record decide nothing about its call. They stand in the request where the
record brings none of its own, and that is all.
-/

namespace Courier

variable {record : InboundRecord}

/-- The request with no ids but those that its record brings. -/
def Request.withIdsOf (r : Request) (record : InboundRecord) : Request :=
  { r with
    requestId := (Delivery.described record).toOption.bind (·.requestId)
    correlationId := (Delivery.described record).toOption.bind (·.correlationId) }

def Invocation.withIdsOf (i : Invocation) (record : InboundRecord) : Invocation :=
  { i with request := i.request.withIdsOf record }

theorem Invocation.of_withIdsOf {i i' : Invocation}
    (h : i.withIdsOf record = i'.withIdsOf record) :
    i.request.withIdsOf record = i'.request.withIdsOf record ∧ i.policy = i'.policy ∧
      i.pattern = i'.pattern := by
  simp only [withIdsOf, mk.injEq] at h
  exact ⟨h.1, h.2.1, h.2.2.1⟩

/-- Nothing about a request that is built depends on its ids. -/
theorem Draft.build_withIds (d : Draft) (requestId correlationId : Option String) :
    Draft.build { d with requestId, correlationId } =
      d.build.map fun r => { r with requestId, correlationId } :=
  build_map rfl rfl rfl fun _ _ _ _ => rfl

namespace Delivery

def seen (record : InboundRecord) (r : Request) : Request × Bool :=
  (r.withIdsOf record, r.correlationId.isNone)

theorem build_fillIds (ids : FreshIds) (d : Draft) :
    (fillIds ids d).build.map (seen record) =
      d.build.map fun r => (r.withIdsOf record, false) := by
  have hsome : (d.correlationId <|> some ids.correlationId).isNone = false := by
    cases d.correlationId <;> rfl
  rw [fillIds, Draft.build_withIds]
  cases d.build with
  | error e => rfl
  | ok r => simp only [Except.map, seen, hsome, Request.withIdsOf]

theorem buildRequest_seen (settings : SinkSettings) (record : InboundRecord)
    (ids ids' : FreshIds) :
    (buildRequest settings ids record).map (seen record) =
      (buildRequest settings ids' record).map (seen record) := by
  unfold buildRequest
  cases described record with
  | error e => rfl
  | ok request =>
    simp only [bind, Except.bind]
    split
    · rw [build_fillIds, build_fillIds]
    · rfl

variable [Pattern.Room]

theorem start_seen {invoker : Invoker} {policy : RetryPolicy} {r r' : Request}
    (h : seen record r = seen record r') :
    (Invocation.start invoker policy r).map (·.withIdsOf record) =
      (Invocation.start invoker policy r').map (·.withIdsOf record) := by
  have hrequest : r.withIdsOf record = r'.withIdsOf record := congrArg Prod.fst h
  have hnone : r.correlationId.isNone = r'.correlationId.isNone := congrArg Prod.snd h
  have hretry : r.retry = r'.retry := by
    simpa only [Request.withIdsOf] using congrArg Request.retry hrequest
  unfold Invocation.start
  rw [hnone, hretry]
  dsimp only
  split
  · rfl
  · cases SuccessPattern.compile (policy.override r'.retry).successPattern with
    | error e => rfl
    | ok p => exact congrArg (fun r => Except.ok (Invocation.mk r _ p 1)) hrequest

theorem prepare_withIdsOf (t : Delivery) (record : InboundRecord) (ids ids' : FreshIds) :
    (t.prepare ids record).map (·.withIdsOf record) =
      (t.prepare ids' record).map (·.withIdsOf record) := by
  have hseen := buildRequest_seen t.settings record ids ids'
  unfold prepare
  cases hr : buildRequest t.settings ids record <;>
    cases hr' : buildRequest t.settings ids' record <;> rw [hr, hr'] at hseen
  case error.error => exact congrArg Except.error (Except.error.inj hseen)
  case ok.ok => exact start_seen (Except.ok.inj hseen)
  all_goals cases hseen

end Delivery

end Courier
