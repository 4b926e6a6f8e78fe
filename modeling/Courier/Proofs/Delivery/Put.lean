import Courier.Proofs.Delivery.Alone
import Courier.Proofs.Delivery.Timeline

/-!
# Batches record by record

A batch gives one result for each record, in record order, and each is that of the record alone.
What is published is what the results hold, if somebody consumes the queue; else the broker is
left as it was. This holds in whatever order the calls go on, and so of the timeline.
-/

namespace Courier

variable {σ : Type} {w : World σ} {t : Delivery}
  {outcome : Request → UInt32 → Except TransportError Response}
  {others : Broker Exchange → Broker Exchange → Prop} {records : List InboundRecord}

namespace Schedule

variable [Pattern.Room] {b : State σ} {start : Broker Exchange}

namespace Orderly

theorem undisturbed (hw : w.Answers outcome) (h : Orderly w t outcome others records start b)
    {place : Nat} {record : InboundRecord} {call : Call (Except Rejection Exchange)}
    (hrecord : records[place]? = some record) (hcall : b.taken[place]? = some call) :
    Undisturbed w t outcome record call.effects call.stage := by
  obtain ⟨record', hrecord', hover⟩ := h.taken place call hcall
  obtain rfl := Option.some.inj (hrecord'.symm.trans hrecord)
  exact hover.undisturbed hw

theorem published_of_consumed (h : Orderly w t outcome others records start b)
    (hpublish : t.settings.publish = true)
    (hstart : start.hasConsumer t.settings.queueName = true)
    (hothers : ∀ b b', others b b' → b.hasConsumer t.settings.queueName = true →
      b'.hasConsumer t.settings.queueName = true) :
    (b.taken.flatMap fun call => published call.effects) = b.results.filterMap (·.toOption) := by
  have hb : ∀ b, Possible t others start b → ∀ x, publications t b x = [x] := by
    rintro b ⟨items, hoffered⟩ x
    simp [publications, hpublish, hoffered.hasConsumer_eq hstart hothers]
  rw [List.filterMap_eq_flatMap_toList, State.results, List.flatMap_map]
  refine List.flatMap_congr fun call hcall => ?_
  obtain ⟨place, hplace⟩ := List.mem_iff_getElem?.1 hcall
  obtain ⟨record, -, hover⟩ := h.taken place call hplace
  exact hover.published_of_always hb

theorem published_of_unconsumed (h : Orderly w t outcome others records start b)
    (hnone : t.settings.publish = false ∨ start.hasConsumer t.settings.queueName = false ∧
      ∀ b b', others b b' → b.hasConsumer t.settings.queueName = false →
        b'.hasConsumer t.settings.queueName = false) :
    (b.taken.flatMap fun call => published call.effects) = [] := by
  have hb : ∀ b, Possible t others start b → ∀ x, publications t b x = [] := by
    rintro b ⟨items, hoffered⟩ x
    rcases hnone with hpublish | ⟨hstart, hothers⟩
    · simp [publications, hpublish]
    · simp [publications, hoffered.hasConsumer_eq hstart hothers]
  refine List.flatMap_eq_nil_iff.2 fun call hcall => ?_
  obtain ⟨place, hplace⟩ := List.mem_iff_getElem?.1 hcall
  obtain ⟨record, -, hover⟩ := h.taken place call hplace
  exact hover.published_of_never hb

end Orderly

/-- What a batch came to, record by record. -/
structure Handled (w : World σ) (t : Delivery)
    (outcome : Request → UInt32 → Except TransportError Response)
    (others : Broker Exchange → Broker Exchange → Prop) (records : List InboundRecord)
    (start : Broker Exchange) (b : State σ) : Prop where
  results : b.results.length = records.length
  undisturbed : ∀ (place : Nat) (record : InboundRecord), records[place]? = some record →
    ∃ call, b.taken[place]? = some call ∧
      Undisturbed w t outcome record call.effects call.stage
  /-- The broker was changed by the others and by offers to the one queue only. -/
  offered : ∃ items, Offered others t.settings.queueName start items b.shared.site.broker ∧
    (t.settings.publish = true → start.hasConsumer t.settings.queueName = true →
      (∀ b b', others b b' → b.hasConsumer t.settings.queueName = true →
        b'.hasConsumer t.settings.queueName = true) →
      items.Perm (b.results.filterMap (·.toOption))) ∧
    (t.settings.publish = false ∨ start.hasConsumer t.settings.queueName = false ∧
      (∀ b b', others b b' → b.hasConsumer t.settings.queueName = false →
        b'.hasConsumer t.settings.queueName = false) →
      items = []) ∧
    ((∀ b b', others b b' → b' = b) →
      (b.shared.site.broker.mailbox t.settings.queueName).items =
        (start.mailbox t.settings.queueName).items ++ items ∧
      (items = [] → b.shared.site.broker = start))

theorem Orderly.handled (hw : w.Answers outcome)
    (h : Orderly w t outcome others records start b) (hdone : b.Done) :
    Handled w t outcome others records start b where
  results := by rw [State.results, List.length_map, h.length_taken hdone]
  undisturbed place record hrecord := by
    have hlt : place < b.taken.length := by
      rw [h.length_taken hdone]
      exact (List.getElem?_eq_some_iff.1 hrecord).1
    have hcall := List.getElem?_eq_getElem hlt
    exact ⟨_, hcall, h.undisturbed hw hrecord hcall⟩
  offered := by
    obtain ⟨items, hoffered, hitems⟩ := h.offered
    rw [hdone.2.2, List.nil_append] at hitems
    refine ⟨items, hoffered, fun hpublish hstart hothers => ?_, fun hnone => ?_, fun hclosed => ?_⟩
    · exact h.published_of_consumed hpublish hstart hothers ▸ hitems
    · rw [h.published_of_unconsumed hnone] at hitems
      exact hitems.eq_nil
    · have hfoldl := hoffered.eq_foldl hclosed
      rw [hfoldl]
      exact ⟨Offered.items_foldl .., fun hnil => by rw [hnil]; rfl⟩

end Schedule

-- ---------------------------------------------------------------------------
-- Batches
-- ---------------------------------------------------------------------------

open Schedule in
/-- In whatever order the calls of a batch go on, no more are under way than allowed, and the batch
comes to its end after so many steps at the latest. Each result is then that of its record alone,
and what was published is what the results hold. The timeline goes one of these ways. -/
theorem Site.put_record_by_record [Pattern.Room] (w : World σ) (t : Delivery)
    (others : Broker Exchange → Broker Exchange → Prop) (records : List InboundRecord)
    (shared : Shared σ) (hw : w.Answers outcome) :
    (∀ n b, Run w t others (.of records shared) n b →
      b.begun ≤ max t.settings.concurrency.toNat 1 ∧
      n ≤ records.length * (2 * UInt32.size + 2) ∧
      (b.Done ∨ ∃ b', Schedule.Step w t b b') ∧
      (b.Done → Handled w t outcome others records shared.site.broker b)) ∧
    ∃ n b, Run w t others (.of records shared) n b ∧ b.Done ∧
      b.results = (shared.site.put w t records).1.results ∧
      b.shared.site = (shared.site.put w t records).2 := by
  refine ⟨fun n b hrun => ?_, put_done hw others records shared⟩
  obtain ⟨horderly, hle⟩ := hrun.orderly hw
  refine ⟨horderly.room, by omega, ?_, horderly.handled hw⟩
  by_cases hdone : b.Done
  · exact .inl hdone
  · exact .inr (horderly.progress hdone)

open scoped Pattern.Room in
/-- Of two records the second has no value. The first is answered at its second attempt, and its
exchange alone is published. -/
theorem Site.put_two_records :
    let t : Delivery := ⟨⟨.standard, false⟩, { publish := true, concurrency := 0 }⟩
    let moment : Moment :=
      ⟨⟨2024, 2, 29, by decide, by decide, by decide⟩, 23, 59, 59, 1000000000, by decide, by decide,
        by decide, by decide⟩
    let outcome : Request → UInt32 → Except TransportError Response := fun _ number =>
      .ok ⟨if number = 1 then 503 else 200, "", "", .empty⟩
    let w : World Unit :=
      ⟨fun _ => (⟨"r-1", "c-1"⟩, ()),
        fun _ request number => ((0, ⟨outcome request number, moment, 7, 0⟩), ())⟩
    let first : InboundRecord :=
      ⟨"calls", none, [],
        some (.object [("url", .string "http://service.local/"), ("method", .string "GET")])⟩
    let second : InboundRecord := ⟨"calls", none, [], none⟩
    let shared : Schedule.Shared Unit := ⟨⟨(), { consumers := [defaultQueueName] }, []⟩, {}⟩
    w.Answers outcome ∧ ∃ x,
      (shared.site.put w t [first, second]).1.results = [.ok x, .error (.missing "value")] ∧
        ((shared.site.put w t [first, second]).2.broker.mailbox defaultQueueName).items = [x] := by
  intro t moment outcome w first second shared
  have hw : w.Answers outcome := fun _ _ _ => rfl
  refine ⟨hw, ?_⟩
  obtain ⟨hruns, n, b, hrun, hdone, hresults, hsite⟩ :=
    put_record_by_record w t (fun _ _ => False) [first, second] shared hw
  have handled := (hruns n b hrun).2.2.2 hdone
  rw [← hresults, ← hsite]
  clear hresults hsite
  obtain ⟨call₁, hcall₁, drawn₁, _, -, -, halone₁⟩ := handled.undisturbed 0 first rfl
  obtain ⟨call₂, hcall₂, drawn₂, _, -, -, halone₂⟩ := handled.undisturbed 1 second rfl
  have hone := ((halone₁ Unit w shared.site outcome hw fun _ _ _ _ _ => rfl).2 rfl).2
    fun _ _ _ _ => rfl
  have htwo := ((halone₂ Unit w shared.site outcome hw fun _ _ _ _ _ => rfl).2 rfl).2
    fun _ _ _ _ => rfl
  have hfirst := @Schedule.process_of_prepare _ w t first outcome _ hw shared.site
  have hsecond := @Schedule.process_of_prepare _ w t second outcome _ hw shared.site
  rw [← hone] at hfirst
  rw [← htwo] at hsecond
  obtain ⟨x, hx⟩ : ∃ x, call₁.stage = .ok x := by
    have hok : (t.prepare (w.freshIds shared.site.world).1 first).isOk = true := by decide
    split at hfirst
    · exact hfirst
    · next he =>
      rw [he] at hok
      cases hok
  have hy : call₂.stage = .error (.missing "value") := hsecond
  have hstages : b.results = [.ok x, .error (.missing "value")] := by
    obtain ⟨c₁, c₂, htaken⟩ :=
      List.length_eq_two.1 ((List.length_map ..).symm.trans handled.results)
    rw [htaken] at hcall₁ hcall₂
    cases hcall₁
    cases hcall₂
    simp only [Schedule.State.results, htaken, List.map_cons, List.map_nil, hx, hy]
  obtain ⟨items, -, hconsumed, -, hclosed⟩ := handled.offered
  have hitems : items = [x] := by
    have hperm := hconsumed rfl rfl (fun _ _ h => h.elim)
    rw [hstages] at hperm
    exact List.perm_singleton.1 hperm
  exact ⟨x, hstages, hitems ▸ (hclosed fun _ _ h => h.elim).1⟩

end Courier
