import Courier.Proofs.Queue.Broker
import Courier.Relay

/-!
# Draining the relay

The last polls take batch after batch off the front of the queue, and end with the first batch
that has nothing to give out. Everything convertible in the batches taken is given out once and in
order. What stands behind a batch without any record stays: the queue is drained exactly if every
full batch with something behind it holds a convertible exchange. Exchanges in full form are always
convertible, acknowledgements need both ids.
-/

namespace Courier.Relay

def recordOf? (s : SourceSettings) (x : Exchange) : Option OutboundRecord :=
  (recordOf s x).toOption

def waiting (r : Relay) (broker : Broker Exchange) : List Exchange :=
  (broker.mailbox r.settings.queueName).items

/-- The exchanges that poll `k` takes of a queue, counting from zero. -/
def batchAt (r : Relay) (xs : List Exchange) (k : Nat) : List Exchange :=
  (xs.drop (k * r.batch)).take r.batch

def Yields (s : SourceSettings) (xs : List Exchange) : Prop :=
  ∃ x ∈ xs, (recordOf? s x).isSome = true

variable {r : Relay} {broker : Broker Exchange} {xs : List Exchange}

-- ---------------------------------------------------------------------------
-- One poll
-- ---------------------------------------------------------------------------

theorem one_le_batch (r : Relay) : 1 ≤ r.batch :=
  Nat.le_max_right _ _

theorem convert_fst (r : Relay) (xs : List Exchange) :
    (r.convert xs).1 = xs.filterMap (recordOf? r.settings) := by
  induction xs with
  | nil => rfl
  | cons x xs ih =>
    rw [List.filterMap_cons, ← ih, recordOf?]
    cases hx : recordOf r.settings x with
    | ok record => simp only [convert, List.foldr_cons, hx]; rfl
    | error e => simp only [convert, List.foldr_cons, hx]; rfl

theorem batchAt_zero : r.batchAt xs 0 = xs.take r.batch := by
  simp [batchAt]

theorem batchAt_drop (k : Nat) : r.batchAt (xs.drop r.batch) k = r.batchAt xs (k + 1) := by
  rw [batchAt, batchAt, List.drop_drop, Nat.add_mul, Nat.one_mul, Nat.add_comm]

theorem filterMap_recordOf?_eq_nil_iff {s : SourceSettings} :
    xs.filterMap (recordOf? s) = [] ↔ ¬ Yields s xs := by
  simp [Yields, List.filterMap_eq_nil_iff]

theorem drainWithin_of_empty {fuel : Nat} (h : (r.poll broker).records.isEmpty = true) :
    r.drainWithin (fuel + 1) broker = r.poll broker := if_pos h

theorem drainWithin_of_nonempty {fuel : Nat} (h : ¬ (r.poll broker).records.isEmpty = true) :
    r.drainWithin (fuel + 1) broker =
      (r.poll broker).andThen (r.drainWithin fuel (r.poll broker).broker) := if_neg h

section
variable (hs : r.started = true)
include hs

theorem records_poll :
    (r.poll broker).records =
      ((r.waiting broker).take r.batch).filterMap (recordOf? r.settings) := by
  simp only [poll, hs, if_true, convert_fst, Broker.drain_fst, waiting]

theorem waiting_poll : r.waiting (r.poll broker).broker = (r.waiting broker).drop r.batch := by
  simp only [poll, hs, if_true, waiting, Broker.items_drain]

-- ---------------------------------------------------------------------------
-- All polls
-- ---------------------------------------------------------------------------

theorem drainWithin_eq {fuel : Nat} (hf : (r.waiting broker).length < fuel) :
    ∃ n, (∀ k < n, Yields r.settings (r.batchAt (r.waiting broker) k)) ∧
      ¬ Yields r.settings (r.batchAt (r.waiting broker) n) ∧
      (r.drainWithin fuel broker).records =
        ((r.waiting broker).take ((n + 1) * r.batch)).filterMap (recordOf? r.settings) ∧
      r.waiting (r.drainWithin fuel broker).broker =
        (r.waiting broker).drop ((n + 1) * r.batch) := by
  induction fuel generalizing broker with
  | zero => exact absurd hf (Nat.not_lt_zero _)
  | succ fuel ih =>
    have hempty : (r.poll broker).records.isEmpty = true ↔
        ¬ Yields r.settings (r.batchAt (r.waiting broker) 0) := by
      rw [List.isEmpty_iff, records_poll hs, filterMap_recordOf?_eq_nil_iff, batchAt_zero]
    by_cases hy : Yields r.settings (r.batchAt (r.waiting broker) 0)
    · have hne : ¬ (r.poll broker).records.isEmpty = true := fun h => hempty.1 h hy
      -- Something was taken, so fewer exchanges are left than there is fuel.
      have hshorter : (r.waiting (r.poll broker).broker).length < fuel := by
        obtain ⟨x, hx, -⟩ := hy
        have := List.length_pos_of_mem (List.mem_of_mem_drop (List.mem_of_mem_take hx))
        have := r.one_le_batch
        rw [waiting_poll hs, List.length_drop]
        omega
      obtain ⟨n, hbefore, hlast, hrecords, hleft⟩ := ih hshorter
      simp only [waiting_poll hs, batchAt_drop] at hbefore hlast hrecords hleft
      refine ⟨n + 1, ?_, hlast, ?_, ?_⟩
      · intro k hk
        cases k with
        | zero => exact hy
        | succ k => exact hbefore k (by omega)
      · rw [drainWithin_of_nonempty hne, Polled.andThen, hrecords, records_poll hs,
          ← List.filterMap_append, ← List.take_add, Nat.add_comm r.batch, ← Nat.succ_mul]
      · rw [drainWithin_of_nonempty hne, Polled.andThen, hleft, List.drop_drop,
          Nat.add_comm r.batch, ← Nat.succ_mul]
    · have he : (r.poll broker).records.isEmpty = true := hempty.2 hy
      refine ⟨0, by simp, hy, ?_, ?_⟩
      · rw [drainWithin_of_empty he, records_poll hs, Nat.zero_add, Nat.one_mul]
      · rw [drainWithin_of_empty he, waiting_poll hs, Nat.zero_add, Nat.one_mul]

end

-- ---------------------------------------------------------------------------
-- What is convertible
-- ---------------------------------------------------------------------------

theorem isSome_recordOf?_iff {s : SourceSettings} {x : Exchange} :
    (recordOf? s x).isSome = true ↔ s.format = .exchange ∨
      x.request.correlationId.isSome = true ∧ x.request.requestId.isSome = true := by
  cases hf : s.format with
  | exchange =>
    simp [recordOf?, recordOf, hf, bind, Except.bind, pure, Except.pure, Except.toOption]
  | acknowledgement =>
    cases hc : x.request.correlationId <;> cases hr : x.request.requestId <;>
      simp [recordOf?, recordOf, hf, Exchange.acknowledge, hc, hr, bind, Except.bind, pure,
        Except.pure, Except.map, Except.toOption]

-- ---------------------------------------------------------------------------
-- The last polls
-- ---------------------------------------------------------------------------

/-- What the last polls of a started relay give out and leave, and when they leave nothing. -/
theorem drain_empties_queue_iff (s : SourceSettings) (broker : Broker Exchange) :
    let r : Relay := ⟨s, true⟩
    let xs := r.waiting broker
    let out := r.drain broker
    (∃ n, (∀ k < n, Yields s (r.batchAt xs k)) ∧ ¬ Yields s (r.batchAt xs n) ∧
      out.records = (xs.take ((n + 1) * r.batch)).filterMap (recordOf? s) ∧
      r.waiting out.broker = xs.drop ((n + 1) * r.batch)) ∧
    (r.waiting out.broker = [] ∧ out.records = xs.filterMap (recordOf? s) ↔
      ∀ k, (k + 1) * r.batch < xs.length → ∃ x ∈ r.batchAt xs k, s.format = .exchange ∨
        x.request.correlationId.isSome = true ∧ x.request.requestId.isSome = true) := by
  intro r xs out
  obtain ⟨n, hbefore, hlast, hrecords, hleft⟩ : ∃ n, (∀ k < n, Yields s (r.batchAt xs k)) ∧
      ¬ Yields s (r.batchAt xs n) ∧
      out.records = (xs.take ((n + 1) * r.batch)).filterMap (recordOf? s) ∧
      r.waiting out.broker = xs.drop ((n + 1) * r.batch) :=
    drainWithin_eq rfl (Nat.lt_succ_self _)
  refine ⟨⟨n, hbefore, hlast, hrecords, hleft⟩, ?_⟩
  simp only [← isSome_recordOf?_iff]
  constructor
  · rintro ⟨hempty, -⟩ k hk
    have hlength : xs.length ≤ (n + 1) * r.batch := by
      rwa [hleft, List.drop_eq_nil_iff] at hempty
    have hkn : k < n := by
      have := Nat.lt_of_mul_lt_mul_right (Nat.lt_of_lt_of_le hk hlength)
      omega
    exact hbefore k hkn
  · intro hfull
    have hlength : xs.length ≤ (n + 1) * r.batch :=
      Nat.le_of_not_lt fun hlt => hlast (hfull n hlt)
    rw [hleft, hrecords, List.drop_eq_nil_iff, List.take_of_length_le hlength]
    exact ⟨hlength, rfl⟩

/-- One exchange without a request id in front of a complete one, polled one by one: the drain
gives nothing out and leaves the complete one behind. -/
theorem drain_stops_before_convertible :
    ¬ ∀ (s : SourceSettings) (broker : Broker Exchange),
      let r : Relay := ⟨s, true⟩
      r.waiting (r.drain broker).broker = [] ∧
        (r.drain broker).records = (r.waiting broker).filterMap (recordOf? s) := by
  intro h
  let request (id : Option String) : Request :=
    { requestId := id, correlationId := some "c-1", url := "http://service.local/",
      method := .get, headers := .empty, timeout := none, retry := {}, body := .text "",
      addressed := by decide }
  let moment : Moment :=
    ⟨⟨2024, 1, 1, by decide, by decide, by decide⟩, 0, 0, 0, 0, by decide, by decide, by decide,
      by decide⟩
  let exchange (id : Option String) : Exchange :=
    .of (request id) ⟨200, "", "", .empty⟩ 0 moment 1 true
  let s : SourceSettings :=
    { enabled := true, queueName := "acks", successTopic := "ok", errorsTopic := "errors",
      batchSize := 1, format := .acknowledgement }
  let broker : Broker Exchange :=
    (({} : Broker Exchange).offer "acks" (exchange none)).offer "acks" (exchange (some "r-1"))
  have hleft := congrArg List.length (h s broker).1
  revert hleft
  decide

end Courier.Relay
