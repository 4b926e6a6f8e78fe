import Mathlib.Logic.Relation
import Courier.Proofs.Delivery.Identified
import Courier.Proofs.Record.RoundTrip
import Courier.Proofs.Relay.Waiting

/-!
# Acknowledging

A relay skips what lacks an id, and that only if it gives out acknowledgements. Each of those comes
back from its written form as it was made from its exchange, if its moment has a text of its own.
Where missing ids are generated, nothing that a batch publishes is skipped.
-/

namespace Courier

open Json

-- ---------------------------------------------------------------------------
-- Written acknowledgements
-- ---------------------------------------------------------------------------

theorem Forms.headerPairs_returns (pairs : List (String × String)) :
    Forms.headerPairs.Returns pairs pairs :=
  .list fun _ _ => .pair (.text _) (.text _)

namespace Acknowledgement

def arriving (a : Acknowledgement) : Acknowledgement :=
  { a with moment := a.moment.arriving }

theorem form_returns (a : Acknowledgement) : form.Returns a a.arriving := by
  refine .record (.as ?_ rfl)
  exact .cons (.required (.text _)) (by decide) <|
    .cons (.required (.text _)) (by decide) <|
    .cons (.required (.word16 _)) (by decide) <|
    .cons (.required (.text _)) (by decide) <|
    .cons (.required (Forms.headerPairs_returns _)) (by decide) <|
    .cons (.required (.text _)) (by decide) <|
    .cons (.required (.text _)) (by decide) <|
    .cons (.required (Forms.headerPairs_returns _)) (by decide) <|
    .cons (.required (.text _)) (by decide) <|
    .cons (.required (.text _)) (by decide) <|
    .cons (.required (.word64 _)) (by decide) <|
    .cons (.required (Forms.moment_returns _)) (by decide) <|
    .cons (.required (.word32 _)) (by decide) <|
    .cons (.required (.boolean _)) (by decide) .nil

theorem decode_toValue (a : Acknowledgement) : form.decode a.toValue = .ok a.arriving :=
  a.form_returns

theorem arriving_eq_iff {a : Acknowledgement} : a.arriving = a ↔ a.moment.Writable := by
  rw [← Moment.arriving_eq_iff]
  refine ⟨congrArg moment, fun h => ?_⟩
  rw [arriving, h]

end Acknowledgement

-- ---------------------------------------------------------------------------
-- Exchanges without a record
-- ---------------------------------------------------------------------------

theorem Exchange.acknowledge_eq_error_iff {x : Exchange} {e : Rejection} :
    x.acknowledge = .error e ↔
      x.request.correlationId = none ∧ e = .missing "correlationId" ∨
        x.request.correlationId ≠ none ∧ x.request.requestId = none ∧
          e = .missing "requestId" := by
  unfold acknowledge
  cases x.request.correlationId with
  | none => simp [eq_comm]
  | some c => cases x.request.requestId <;> simp [eq_comm]

namespace Relay

variable {s : SourceSettings} {x : Exchange} {record : OutboundRecord} {e : Rejection}
  {r : Relay} {broker : Broker Exchange}

theorem recordOf_eq_error_iff :
    recordOf s x = .error e ↔ s.format = .acknowledgement ∧ x.acknowledge = .error e := by
  cases hf : s.format with
  | exchange => simp [recordOf, hf, bind, Except.bind, pure, Except.pure]
  | acknowledgement =>
    cases ha : x.acknowledge <;>
      simp [recordOf, hf, ha, Except.map, bind, Except.bind, pure, Except.pure]

theorem recordOf_cases (h : recordOf s x = .ok record) :
    s.format = .exchange ∧ record.schema = exchangeSchema ∧
        record.value = (ExchangeRecord.ofExchange x).toValue ∨
      s.format = .acknowledgement ∧ record.schema = acknowledgementSchema ∧
        ∃ a, x.acknowledge = .ok a ∧ record.value = a.toValue := by
  cases hf : s.format with
  | exchange =>
    simp only [recordOf, hf, bind, Except.bind, pure, Except.pure, Except.ok.injEq] at h
    subst h
    exact .inl ⟨rfl, rfl, rfl⟩
  | acknowledgement =>
    cases ha : x.acknowledge with
    | error e => simp [recordOf, hf, ha, Except.map, bind, Except.bind] at h
    | ok a =>
      simp only [recordOf, hf, ha, Except.map, bind, Except.bind, pure, Except.pure,
        Except.ok.injEq] at h
      subst h
      exact .inr ⟨rfl, rfl, a, rfl, rfl⟩

theorem value_recordOf (h : recordOf s x = .ok record)
    (hschema : record.schema = acknowledgementSchema) :
    ∃ a, x.acknowledge = .ok a ∧ record.value = a.toValue := by
  rcases recordOf_cases h with ⟨-, hother, -⟩ | ⟨-, -, hvalue⟩
  · rw [hschema] at hother
    exact absurd hother (by decide)
  · exact hvalue

theorem recordOf?_eq_some_iff : recordOf? s x = some record ↔ recordOf s x = .ok record := by
  unfold recordOf?
  cases recordOf s x <;> simp [Except.toOption]

theorem recordOf_of_identified (h : x.request.Identified) (s : SourceSettings) :
    ∃ record, recordOf s x = .ok record := by
  have hsome : (recordOf? s x).isSome = true :=
    isSome_recordOf?_iff.2 (.inr ⟨h.correlationId, h.requestId⟩)
  obtain ⟨record, hrecord⟩ := Option.isSome_iff_exists.1 hsome
  exact ⟨record, recordOf?_eq_some_iff.1 hrecord⟩

-- ---------------------------------------------------------------------------
-- Polls that skip nothing
-- ---------------------------------------------------------------------------

theorem metrics_convert (r : Relay) (xs : List Exchange) :
    (r.convert xs).2 =
      List.replicate (xs.countP fun x => (recordOf? r.settings x).isNone) .skipped := by
  induction xs with
  | nil => rfl
  | cons x xs ih =>
    rw [List.countP_cons, recordOf?]
    cases hx : recordOf r.settings x with
    | ok record => simpa [convert, hx, Except.toOption] using ih
    | error e => simpa [convert, hx, Except.toOption, List.replicate_succ] using ih

theorem metrics_convert_of_identified {xs : List Exchange}
    (h : ∀ x ∈ xs, x.request.Identified) : (r.convert xs).2 = [] := by
  have hnone : xs.countP (fun x => (recordOf? r.settings x).isNone) = 0 := by
    refine List.countP_eq_zero.2 fun x hx => ?_
    obtain ⟨record, hrecord⟩ := recordOf_of_identified (h x hx) r.settings
    simp [recordOf?_eq_some_iff.2 hrecord]
  rw [metrics_convert, hnone, List.replicate_zero]

/-- What a relay comes to that polls, or that runs while it waits. -/
inductive Takes (r : Relay) (broker : Broker Exchange) : Polled → Prop where
  | polled : Takes r broker (r.poll broker)
  | received {ticket : Nat} {p : Polled} {b : Broker Exchange}
      (h : r.attend ticket broker = (some p, b)) : Takes r broker p
  | slept {ticket : Nat} {b : Broker Exchange} (h : r.attend ticket broker = (none, b)) :
      Takes r broker ⟨[], [], b⟩

variable {p : Polled}

theorem identified_drain {name : String} (h : broker.Identified name) (most : Nat) :
    (∀ x ∈ (broker.drain name most).1, x.request.Identified) ∧
      (broker.drain name most).2.Identified name := by
  refine ⟨fun x hx => h x (List.mem_of_mem_take hx), fun x hx => ?_⟩
  rw [Broker.items_drain] at hx
  exact h x (List.mem_of_mem_drop hx)

theorem Takes.identified (hp : r.Takes broker p) (h : broker.Identified r.settings.queueName) :
    p.metrics = [] ∧ p.broker.Identified r.settings.queueName := by
  cases hp with
  | polled =>
    unfold poll
    split
    · obtain ⟨htaken, hleft⟩ := identified_drain h r.batch
      exact ⟨metrics_convert_of_identified htaken, hleft⟩
    · exact ⟨rfl, h⟩
  | @received ticket p b hattend =>
    rcases r.attend_cases ticket broker with ⟨x, b', hwaiting, heq⟩ | ⟨b', -, heq⟩
    · rw [heq] at hattend
      cases hattend
      have hall : ∀ y ∈ x :: r.waiting b, y.request.Identified := hwaiting ▸ h
      obtain ⟨hx, hb⟩ := List.forall_mem_cons.1 hall
      obtain ⟨htaken, hleft⟩ := identified_drain hb (r.batch - 1)
      exact ⟨metrics_convert_of_identified (List.forall_mem_cons.2 ⟨hx, htaken⟩), hleft⟩
    · rw [heq] at hattend
      cases hattend
  | @slept ticket b hattend =>
    rcases r.attend_cases ticket broker with ⟨x, b', -, heq⟩ | ⟨b', hwaiting, heq⟩
    · rw [heq] at hattend
      cases hattend
    · rw [heq] at hattend
      cases hattend
      have hleft : ∀ x ∈ r.waiting b, x.request.Identified := by
        rw [hwaiting]
        exact h
      exact ⟨rfl, hleft⟩

/-- The broker before and after a relay takes. -/
def Leads (r : Relay) (b b' : Broker Exchange) : Prop :=
  ∃ p, r.Takes b p ∧ p.broker = b'

theorem Leads.identified {b b' : Broker Exchange} (hb : r.Leads b b')
    (h : b.Identified r.settings.queueName) : b'.Identified r.settings.queueName := by
  obtain ⟨p, hp, rfl⟩ := hb
  exact (hp.identified h).2

theorem metrics_of_leads {b b' : Broker Exchange} (hb : Relation.ReflTransGen r.Leads b b')
    (h : b.Identified r.settings.queueName) (hp : r.Takes b' p) : p.metrics = [] := by
  have hlast : b'.Identified r.settings.queueName := by
    clear hp
    induction hb with
    | refl => exact h
    | tail _ hlead ih => exact hlead.identified ih
  exact (hp.identified hlast).1

-- ---------------------------------------------------------------------------
-- Missing ids
-- ---------------------------------------------------------------------------

open Schedule in
/-- An exchange has no record exactly if an acknowledgement is wanted that an id is missing for, and
is counted as skipped then. An acknowledgement that is given out reads back as that of its exchange
but for a moment without a text of its own. Where missing ids are generated, whatever a batch
publishes has a record in either form: a relay that takes from a queue of such exchanges skips
nothing, neither while the batch is worked off nor afterwards. -/
theorem skips_only_missing_ids [Pattern.Room] :
    (∀ s x e, recordOf s x = .error e ↔ s.format = .acknowledgement ∧
      (x.request.correlationId = none ∧ e = .missing "correlationId" ∨
        x.request.correlationId ≠ none ∧ x.request.requestId = none ∧
          e = .missing "requestId")) ∧
    (∀ (r : Relay) xs, (r.convert xs).2 =
      List.replicate (xs.countP fun x => (recordOf? r.settings x).isNone) .skipped) ∧
    (∀ s x record, recordOf s x = .ok record → record.schema = acknowledgementSchema →
      ∃ a, x.acknowledge = .ok a ∧
        Acknowledgement.form.decode record.value =
          .ok { a with moment := x.moment.arriving } ∧
        (Acknowledgement.form.decode record.value = .ok a ↔ x.moment.Writable)) ∧
    ∀ {σ : Type} (w : World σ) (t : Delivery) (records : List InboundRecord) (shared : Shared σ),
      t.settings.generateMissingIds = true →
      (∀ others n b, Run w t others (.of records shared) n b →
        ∀ x ∈ b.published, ∀ s, ∃ record, recordOf s x = .ok record) ∧
      ∀ r : Relay, shared.site.broker.Identified r.settings.queueName →
        (∀ n b, Run w t r.Leads (.of records shared) n b →
          ∀ p, r.Takes b.shared.site.broker p → p.metrics = []) ∧
        ∀ b, Relation.ReflTransGen r.Leads (shared.site.put w t records).2.broker b →
          ∀ p, r.Takes b p → p.metrics = [] := by
  refine ⟨fun s x e => ?_, metrics_convert, fun s x record h hschema => ?_, ?_⟩
  · rw [recordOf_eq_error_iff, Exchange.acknowledge_eq_error_iff]
  · obtain ⟨a, ha, hvalue⟩ := value_recordOf h hschema
    have hmoment : a.moment = x.moment := Exchange.moment_of_acknowledge ha
    refine ⟨a, ha, ?_⟩
    rw [hvalue, a.decode_toValue, Except.ok.injEq a.arriving a, Acknowledgement.arriving_eq_iff,
      ← hmoment]
    exact ⟨rfl, Iff.rfl⟩
  · intro σ w t records shared hids
    refine ⟨fun others n b hrun x hx => ?_, fun r hstart => ⟨fun n b hrun p hp => ?_, ?_⟩⟩
    · exact recordOf_of_identified ((hrun.traced hids).published x hx)
    · obtain ⟨items, hoffered, hitems⟩ := (hrun.traced hids).offered
      exact (hp.identified (hoffered.identified hitems (fun _ _ => Leads.identified) hstart)).1
    · intro b hb p hp
      exact metrics_of_leads hb (put_identified w hids shared.site records hstart) hp

open Schedule in
open scoped Pattern.Room in
/-- An exchange of a leap second with a header of two values, and one call for a record without ids,
which a relay of acknowledgements waits for. -/
theorem acknowledges_generated_ids :
    let x : Exchange := { ExchangeRecord.leapExchange with
      request := { ExchangeRecord.leapExchange.request with requestId := some "r-1" } }
    let s : SourceSettings := { format := .acknowledgement }
    let t : Delivery := ⟨⟨.standard, true⟩, { publish := true, requireCorrelationId := true }⟩
    let w : World Unit :=
      ⟨fun _ => (⟨"r-2", "c-2"⟩, ()),
        fun _ _ _ => ((0, ⟨.ok ⟨200, "", "", .empty⟩, x.moment, 7, 0⟩), ())⟩
    let record : InboundRecord :=
      .of "calls" (.object [("url", .string "http://service.local/"), ("method", .string "GET")])
    let site : Site Unit := { world := (), broker := { consumers := [s.queueName] } }
    (∃ record a, recordOf s x = .ok record ∧ record.schema = acknowledgementSchema ∧
      Acknowledgement.form.decode record.value = .ok a ∧
      a.requestHeaders = [("Accept", "text/plain"), ("Accept", "*/*")] ∧
      a.moment = ExchangeRecord.leapExchange.moment) ∧
    t.settings.generateMissingIds = true ∧
    ∀ p, Relay.Takes ⟨s, true⟩ (site.put w t [record]).2.broker p → p.metrics = [] := by
  intro x s t w record site
  obtain ⟨-, -, hback, hbatch⟩ := skips_only_missing_ids
  refine ⟨?_, rfl, fun p hp => ?_⟩
  · have hrecord : ∃ record, recordOf s x = .ok record := ⟨_, rfl⟩
    obtain ⟨record, hrecord⟩ := hrecord
    have hschema : record.schema = acknowledgementSchema := by
      cases hrecord
      rfl
    obtain ⟨a, ha, -, hequal⟩ := hback s x record hrecord hschema
    refine ⟨record, a, hrecord, hschema, hequal.2 (by decide), ?_⟩
    cases ha
    exact ⟨rfl, rfl⟩
  · have hstart : site.broker.Identified s.queueName := fun _ h => nomatch h
    exact ((hbatch w t [record] ⟨site, {}⟩ rfl).2 ⟨s, true⟩ hstart).2 _ .refl p hp

/-- At a leap second inside a minute the acknowledgement that is given out reads back as one of the
second after. -/
theorem stray_acknowledgement_reads_back_later :
    let x : Exchange := { ExchangeRecord.strayExchange with
      request := { ExchangeRecord.strayExchange.request with requestId := some "r-1" } }
    ∃ record a b, recordOf { format := .acknowledgement } x = .ok record ∧
      record.schema = acknowledgementSchema ∧ x.acknowledge = .ok a ∧
      Acknowledgement.form.decode record.value = .ok b ∧ b ≠ a ∧
      (b.moment.second, b.moment.nano) = (5, 333333333) := by
  refine ⟨_, _, _, rfl, rfl, rfl, Acknowledgement.decode_toValue _, fun same => ?_, rfl⟩
  exact absurd (Acknowledgement.arriving_eq_iff.1 same) (by decide)

end Relay

end Courier
