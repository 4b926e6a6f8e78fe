import Mathlib.Data.List.Induction
import Courier.Proofs.Queue.Turns
import Courier.Proofs.Relay.Draining

/-!
# Waiting at the relay's queue

A wait that finds exchanges takes what a poll would take, the first and then the rest of the batch.
One that finds none sleeps: others act at the queue, time passes, and it runs again, until it gets
an exchange or its time has come. Until then it takes nothing, and giving it up leaves the queue as
it is.
-/

namespace Courier.Relay

variable {r : Relay} {w : Watch} {now : Nat} {b : Broker Exchange}

-- ---------------------------------------------------------------------------
-- One run
-- ---------------------------------------------------------------------------

theorem attend_cases (r : Relay) (ticket : Nat) (broker : Broker Exchange) :
    (∃ x b, r.waiting broker = x :: r.waiting b ∧
      r.attend ticket broker = (some (r.pollAfter x b), b)) ∨
    ∃ b, r.waiting b = r.waiting broker ∧ r.attend ticket broker = (none, b) := by
  unfold attend Mailbox.attend waiting
  cases (broker.mailbox r.settings.queueName).items with
  | nil => exact .inr ⟨_, by rw [Broker.mailbox_update], rfl⟩
  | cons x rest => exact .inl ⟨x, _, by rw [Broker.mailbox_update], rfl⟩

@[simp] theorem waiting_leave (r : Relay) (ticket : Nat) (b : Broker Exchange) :
    r.waiting (r.leave ticket b) = r.waiting b := by
  rw [waiting, leave, Broker.mailbox_update, Mailbox.items_leave, waiting]

def unwoken (r : Relay) (ticket : Nat) (b : Broker Exchange) : Broker Exchange :=
  b.update r.settings.queueName fun m => { m with woken := m.woken.erase ticket }

@[simp] theorem waiting_unwoken (r : Relay) (ticket : Nat) (b : Broker Exchange) :
    r.waiting (r.unwoken ticket b) = r.waiting b := by
  rw [waiting, unwoken, Broker.mailbox_update, waiting]

theorem unwoken_of_new {ticket : Nat} (hnew : ticket ∉ (b.mailbox r.settings.queueName).woken)
    (hne : r.waiting b ≠ []) : r.unwoken ticket b = b := by
  have hsame : ({ b.mailbox r.settings.queueName with
      woken := (b.mailbox r.settings.queueName).woken.erase ticket } : Mailbox Exchange) =
      id (b.mailbox r.settings.queueName) := by
    rw [List.erase_of_not_mem hnew, id]
  rw [unwoken, Broker.update_congr hsame, Broker.update_id (Broker.mem_names_of_items hne)]

theorem attend_eq_poll (hs : r.started = true) (hne : r.waiting b ≠ []) (ticket : Nat) :
    (r.attend ticket b).1 = some (r.poll (r.unwoken ticket b)) := by
  obtain ⟨x, rest, hitems⟩ := List.exists_cons_of_ne_nil hne
  obtain ⟨k, hbatch⟩ : ∃ k, r.batch = k + 1 := Nat.exists_eq_add_of_le' r.one_le_batch
  rw [waiting] at hitems
  let b' := b.update r.settings.queueName fun m =>
    { m with woken := m.woken.erase ticket, items := rest }
  have hattend : (r.attend ticket b).1 = some (r.pollAfter x b') := by
    simp only [attend, Mailbox.attend, hitems]
    exact congrArg (fun b => some (r.pollAfter x b)) (Broker.update_congr rfl)
  have hdrain : (r.unwoken ticket b).drain r.settings.queueName (k + 1) =
      (x :: (b'.drain r.settings.queueName k).1, (b'.drain r.settings.queueName k).2) := by
    simp only [b', unwoken, Broker.drain, Broker.update_update, Broker.mailbox_update,
      Mailbox.drain, hitems, List.take_succ_cons, Prod.mk.injEq, true_and]
    apply Broker.update_congr
    simp only [Function.comp_apply, hitems, List.drop_succ_cons]
  rw [hattend]
  simp only [pollAfter, poll, hs, if_true, hbatch, Nat.add_sub_cancel, hdrain]

def Asleep (r : Relay) (w : Watch) (b : Broker Exchange) : Prop :=
  w.ticket ∈ (b.mailbox r.settings.queueName).sleeping

/-- Whoever is awake takes what is there, whatever the time. -/
theorem pollWait_of_waiting (hs : r.started = true) (hawake : ¬ r.Asleep w b)
    (hne : r.waiting b ≠ []) : r.pollWait w now b = .ended (r.poll (r.unwoken w.ticket b)) := by
  have hnot : w.ticket ∉ (b.mailbox r.settings.queueName).sleeping := hawake
  have hpoll := attend_eq_poll hs hne w.ticket
  simp only [pollWait, hs, if_true, hnot, if_false]
  cases hattend : r.attend w.ticket b with
  | mk polled b' =>
    rw [hattend] at hpoll
    obtain rfl : polled = some (r.poll (r.unwoken w.ticket b)) := hpoll
    rfl

/-- Whoever sleeps or finds nothing takes nothing, and goes on until its time has come. -/
theorem pollWait_of_nothing (hs : r.started = true) (h : r.Asleep w b ∨ r.waiting b = []) :
    ∃ b', r.waiting b' = r.waiting b ∧ r.pollWait w now b =
      if w.deadline ≤ now then .ended ⟨[], [], r.leave w.ticket b'⟩ else .suspended b' := by
  by_cases hasleep : w.ticket ∈ (b.mailbox r.settings.queueName).sleeping
  · refine ⟨b, rfl, ?_⟩
    simp only [pollWait, hs, if_true, hasleep]
  · have hempty : r.waiting b = [] := h.resolve_left hasleep
    rcases r.attend_cases w.ticket b with ⟨x, b', hitems, -⟩ | ⟨b', hwaiting, hattend⟩
    · simp [hempty] at hitems
    · refine ⟨b', hwaiting, ?_⟩
      simp only [pollWait, hs, if_true, hasleep, if_false, hattend]

theorem waiting_of_suspended (hs : r.started = true) {b' : Broker Exchange}
    (h : r.pollWait w now b = .suspended b') : r.waiting b' = r.waiting b := by
  by_cases hnothing : r.Asleep w b ∨ r.waiting b = []
  · obtain ⟨b'', hwaiting, heq⟩ := pollWait_of_nothing hs hnothing
    rw [heq] at h
    split at h
    · cases h
    · cases h
      exact hwaiting
  · rw [not_or] at hnothing
    rw [pollWait_of_waiting hs hnothing.1 hnothing.2] at h
    cases h

-- ---------------------------------------------------------------------------
-- A wait from its first run on
-- ---------------------------------------------------------------------------

inductive Happening where
  | turn (t : Mailbox.Turn Exchange)
  | pass (ms : Nat)
  /-- The wait runs again, be it woken, late or for no reason. -/
  | run

structure Course where
  now : Nat
  handed : List Exchange
  wait : Wait

def happen (r : Relay) (w : Watch) (c : Course) (h : Happening) : Course :=
  match c.wait, h with
  | .ended _, _ => c
  | .suspended b, .turn t =>
    let (items, m) := (b.mailbox r.settings.queueName).turn t
    { c with
      handed := c.handed ++ items
      wait := .suspended (b.update r.settings.queueName fun _ => m) }
  | .suspended _, .pass ms => { c with now := c.now + ms }
  | .suspended b, .run => { c with wait := r.pollWait w c.now b }

def course (r : Relay) (w : Watch) (now : Nat) (b : Broker Exchange) (hs : List Happening) :
    Course :=
  hs.foldl (r.happen w) ⟨now, [], r.pollWait w now b⟩

def Happening.offered? : Happening → Option Exchange
  | .turn (.offer x) => some x
  | _ => none

def Happening.passed : Happening → Nat
  | .pass ms => ms
  | _ => 0

/-- What is offered while a wait lasts, and how long it lasts. -/
def offered (hs : List Happening) : List Exchange :=
  hs.filterMap Happening.offered?

def passed (hs : List Happening) : Nat :=
  hs.foldl (fun ms h => ms + h.passed) 0

theorem course_snoc (r : Relay) (w : Watch) (now : Nat) (b : Broker Exchange)
    (happenings : List Happening) (h : Happening) :
    r.course w now b (happenings ++ [h]) = r.happen w (r.course w now b happenings) h :=
  List.foldl_append

theorem offered_snoc (happenings : List Happening) (h : Happening) :
    offered (happenings ++ [h]) = offered happenings ++ h.offered?.toList := by
  rw [offered, List.filterMap_append, offered]
  cases hoffered : h.offered? <;> simp [hoffered]

theorem passed_snoc (happenings : List Happening) (h : Happening) :
    passed (happenings ++ [h]) = passed happenings + h.passed :=
  List.foldl_append

variable {c : Course} {h : Happening} {happenings : List Happening}

theorem happen_of_ended {p : Polled} (hc : c.wait = .ended p) : r.happen w c h = c := by
  simp only [happen, hc]

theorem happen_turn (hc : c.wait = .suspended b) (t : Mailbox.Turn Exchange) :
    ∃ items b', r.happen w c (.turn t) = { c with
        handed := c.handed ++ items, wait := .suspended b' } ∧
      items ++ r.waiting b' = r.waiting b ++ (Happening.turn t).offered?.toList := by
  refine ⟨((b.mailbox r.settings.queueName).turn t).1,
    b.update r.settings.queueName fun _ => ((b.mailbox r.settings.queueName).turn t).2,
    by simp only [happen, hc], ?_⟩
  have hoffered : (Happening.turn t).offered?.toList = Mailbox.offered [t] := by
    cases t <;> rfl
  rw [waiting, Broker.mailbox_update, hoffered]
  exact Mailbox.items_turn (b.mailbox r.settings.queueName) t

theorem happen_pass (hc : c.wait = .suspended b) (ms : Nat) :
    r.happen w c (.pass ms) = { c with now := c.now + ms } := by
  simp only [happen, hc]

theorem happen_run (hc : c.wait = .suspended b) :
    r.happen w c .run = { c with wait := r.pollWait w c.now b } := by
  simp only [happen, hc]

/-- As long as a wait is suspended, all that is gone from the queue has gone to others. -/
theorem conserved_of_suspended (hs : r.started = true) {b' : Broker Exchange}
    (h : (r.course w now b happenings).wait = .suspended b') :
    (r.course w now b happenings).handed ++ r.waiting b' = r.waiting b ++ offered happenings := by
  -- from the last one back: what is suspended behind it was suspended before it
  induction happenings using List.reverseRecOn generalizing b' with
  | nil =>
    have hfirst : r.waiting b' = r.waiting b := waiting_of_suspended hs h
    rw [hfirst, offered, List.filterMap_nil, List.append_nil]
    rfl
  | append_singleton happenings last ih =>
    rw [course_snoc] at h ⊢
    rw [offered_snoc, ← List.append_assoc]
    cases hc : (r.course w now b happenings).wait with
    | ended p =>
      rw [happen_of_ended hc, hc] at h
      cases h
    | suspended before =>
      rw [← ih hc]
      cases last with
      | turn t =>
        obtain ⟨items, after, heq, hitems⟩ := happen_turn (r := r) (w := w) hc t
        rw [heq] at h ⊢
        cases h
        rw [List.append_assoc, hitems, List.append_assoc]
      | pass ms =>
        rw [happen_pass hc, hc] at h
        cases h
        simp [happen_pass hc, Happening.offered?]
      | run =>
        rw [happen_run hc] at h ⊢
        have hsame : r.waiting b' = r.waiting before := waiting_of_suspended hs h
        simp [hsame, Happening.offered?]

/-- Where a wait stands by the clock at a queue that stays empty. -/
inductive Vain (r : Relay) (w : Watch) (clock : Nat) (c : Course) : Prop where
  | suspended (b : Broker Exchange) (hc : c.wait = .suspended b) (hempty : r.waiting b = [])
      (hnow : c.now = clock)
  | ended (b : Broker Exchange) (hc : c.wait = .ended ⟨[], [], b⟩) (hempty : r.waiting b = [])
      (hdue : w.deadline ≤ clock)

theorem vain_of_run (hs : r.started = true) (hempty : r.waiting b = []) (handed : List Exchange) :
    r.Vain w now ⟨now, handed, r.pollWait w now b⟩ := by
  obtain ⟨b', hwaiting, heq⟩ := pollWait_of_nothing hs (.inr hempty)
  rw [heq]
  split
  · next hdue => exact .ended _ rfl (by rw [waiting_leave, hwaiting, hempty]) hdue
  · exact .suspended b' rfl (hwaiting.trans hempty) rfl

theorem vain_course (hs : r.started = true) (hempty : r.waiting b = [])
    (hoffered : offered happenings = []) :
    r.Vain w (now + passed happenings) (r.course w now b happenings) := by
  induction happenings using List.reverseRecOn with
  | nil => exact vain_of_run hs hempty []
  | append_singleton happenings last ih =>
    rw [offered_snoc, List.append_eq_nil_iff] at hoffered
    rw [course_snoc, passed_snoc, ← Nat.add_assoc]
    cases ih hoffered.1 with
    | ended b' hc hb' hdue =>
      rw [happen_of_ended hc]
      exact .ended b' hc hb' (Nat.le_add_right_of_le hdue)
    | suspended b' hc hb' hnow =>
      cases last with
      | turn t =>
        obtain ⟨items, after, heq, hitems⟩ := happen_turn (r := r) (w := w) hc t
        rw [hoffered.2, hb', List.append_nil, List.append_eq_nil_iff] at hitems
        rw [heq]
        exact .suspended after rfl hitems.2 hnow
      | pass ms =>
        rw [happen_pass hc]
        exact .suspended b' hc hb' (congrArg (· + ms) hnow)
      | run =>
        rw [happen_run hc, hnow]
        exact vain_of_run hs hb' _

-- ---------------------------------------------------------------------------
-- Waits and polls
-- ---------------------------------------------------------------------------

/-- A wait that runs awake over a queue with exchanges ends with the records of a poll and leaves
what a poll leaves, and is a poll if its receiver is new. At a queue that stays empty it is
suspended until its time has come, and then ends with nothing. Wherever it is suspended, giving it
up changes nothing in the queue, from which only others have taken anything. -/
theorem waits_as_it_polls (s : SourceSettings) (b : Broker Exchange) (w : Watch) (now : Nat) :
    let r : Relay := ⟨s, true⟩
    (r.waiting b ≠ [] → ¬ r.Asleep w b →
      ∃ p, r.pollWait w now b = .ended p ∧ p.records = (r.poll b).records ∧
        r.waiting p.broker = r.waiting (r.poll b).broker ∧
        (w.ticket ∉ (b.mailbox s.queueName).woken → p = r.poll b)) ∧
    (r.waiting b = [] → ∀ happenings, offered happenings = [] →
      (now + passed happenings < w.deadline →
        ∃ b', (r.course w now b happenings).wait = .suspended b' ∧ r.waiting b' = []) ∧
      (w.deadline ≤ now + passed happenings →
        ∃ b', (r.course w now b (happenings ++ [.run])).wait = .ended ⟨[], [], b'⟩ ∧
          r.waiting b' = [])) ∧
    ∀ happenings b', (r.course w now b happenings).wait = .suspended b' →
      r.waiting (r.leave w.ticket b') = r.waiting b' ∧
        (r.course w now b happenings).handed ++ r.waiting (r.leave w.ticket b') =
          r.waiting b ++ offered happenings := by
  intro r
  have hs : r.started = true := rfl
  refine ⟨fun hne hawake => ?_, fun hempty happenings hoffered =>
    ⟨fun hearly => ?_, fun hdue => ?_⟩, fun happenings b' h => ?_⟩
  · refine ⟨_, pollWait_of_waiting hs hawake hne, ?_, ?_, fun hnew => ?_⟩
    · rw [records_poll hs, waiting_unwoken, records_poll hs]
    · rw [waiting_poll hs, waiting_unwoken, waiting_poll hs]
    · rw [unwoken_of_new hnew hne]
  · have hvain : r.Vain w (now + passed happenings) (r.course w now b happenings) :=
      vain_course hs hempty hoffered
    cases hvain with
    | suspended b' hc hb' _ => exact ⟨b', hc, hb'⟩
    | ended b' _ _ hdue => exact absurd hdue (Nat.not_le_of_lt hearly)
  · have hvain : r.Vain w (now + passed happenings) (r.course w now b happenings) :=
      vain_course hs hempty hoffered
    rw [course_snoc]
    cases hvain with
    | ended b' hc hb' _ =>
      rw [happen_of_ended hc]
      exact ⟨b', hc, hb'⟩
    | suspended b' hc hb' hnow =>
      obtain ⟨b'', hwaiting, heq⟩ := pollWait_of_nothing hs (.inr hb')
      rw [happen_run hc, hnow, heq, if_pos hdue]
      exact ⟨_, rfl, by rw [waiting_leave, hwaiting, hb']⟩
  · rw [waiting_leave]
    exact ⟨rfl, conserved_of_suspended hs h⟩

/-- Two exchanges polled one by one by a new receiver without any time; a receiver that comes and
goes at an empty queue; and an exchange whose wake-up is in vain, since somebody else is faster. -/
theorem waits_as_it_polls_one_by_one :
    let request (id : String) : Request :=
      { requestId := none, correlationId := some id, url := "http://service.local/",
        method := .get, headers := .empty, timeout := none, retry := {}, body := .text "",
        addressed := by decide }
    let moment : Moment :=
      ⟨⟨2024, 1, 1, by decide, by decide, by decide⟩, 0, 0, 0, 0, by decide, by decide, by decide,
        by decide⟩
    let exchange (id : String) : Exchange := .of (request id) ⟨200, "", "", .empty⟩ 0 moment 1 true
    let s : SourceSettings :=
      { queueName := "acks", successTopic := "ok", errorsTopic := "errors", batchSize := 0 }
    let r : Relay := ⟨s, true⟩
    let empty : Broker Exchange := ({} : Broker Exchange).ensure "acks"
    let full := (empty.offer "acks" (exchange "c-1")).offer "acks" (exchange "c-2")
    let visit : List Happening := [.turn (.run 7), .pass 5, .run, .turn (.leave 7), .pass 5]
    let robbed : List Happening :=
      [.turn (.offer (exchange "c-1")), .turn .poll, .run, .turn (.offer (exchange "c-2"))]
    (r.waiting full = [exchange "c-1", exchange "c-2"] ∧ ¬ r.Asleep ⟨0, 3⟩ full ∧
      r.pollWait ⟨0, 3⟩ 3 full = .ended (r.poll full) ∧
        r.waiting (r.poll full).broker = [exchange "c-2"]) ∧
      (offered visit = [] ∧ 13 ≤ 3 + passed visit ∧
        ∃ b, (r.course ⟨0, 13⟩ 3 empty (visit ++ [.run])).wait = .ended ⟨[], [], b⟩ ∧
          r.waiting b = []) ∧
      ∃ b, (r.course ⟨0, 13⟩ 3 empty robbed).wait = .suspended b ∧
        [exchange "c-1"] ++ r.waiting (r.leave 0 b) = [exchange "c-1", exchange "c-2"] := by
  intro request moment exchange s r empty full visit robbed
  have hawake : ¬ r.Asleep ⟨0, 3⟩ full := List.not_mem_nil
  have hdue : 13 ≤ 3 + passed visit := by decide
  refine ⟨⟨rfl, hawake, ?_, rfl⟩, ⟨rfl, hdue, ?_⟩, ?_⟩
  · have hne : r.waiting full ≠ [] := List.cons_ne_nil _ _
    obtain ⟨p, hover, -, -, hsame⟩ := (waits_as_it_polls s full ⟨0, 3⟩ 3).1 hne hawake
    rw [hover, hsame List.not_mem_nil]
  · exact ((waits_as_it_polls s empty ⟨0, 13⟩ 3).2.1 rfl visit rfl).2 hdue
  · have hsuspended : ∃ b, (r.course ⟨0, 13⟩ 3 empty robbed).wait = .suspended b := ⟨_, rfl⟩
    obtain ⟨b, hb⟩ := hsuspended
    exact ⟨b, hb, ((waits_as_it_polls s empty ⟨0, 13⟩ 3).2.2 robbed b hb).2⟩

end Courier.Relay
