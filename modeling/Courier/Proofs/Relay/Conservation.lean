import Courier.Proofs.Relay.Draining

/-!
# What a relay passes on

Others publish to the queue of a relay that starts at some time and polls. Whatever is published
from its first start on waits in the queue or was taken by a poll, in order; what was published
before went back to its publisher. The polls give out the records of what they took and leave out
what has no record, and nothing else.
-/

namespace Courier.Relay

-- ---------------------------------------------------------------------------
-- Acts
-- ---------------------------------------------------------------------------

structure Post where
  relay : Relay
  broker : Broker Exchange

inductive Act where
  | publish (x : Exchange)
  | start
  | poll

inductive Outcome where
  | accepted
  | returned (x : Exchange)
  | started
  | refused (e : QueueError)
  | polled (records : List OutboundRecord)

namespace Post

def waiting (p : Post) : List Exchange :=
  p.relay.waiting p.broker

/-- A start that fails changes nothing. -/
def perform (p : Post) : Act → Outcome × Post
  | .publish x =>
    match p.broker.publish? p.relay.settings.queueName x with
    | some broker => (.accepted, { p with broker })
    | none => (.returned x, p)
  | .start =>
    match p.relay.start p.broker with
    | .ok (relay, broker) => (.started, ⟨relay, broker⟩)
    | .error e => (.refused e, p)
  | .poll =>
    let polled := p.relay.poll p.broker
    (.polled polled.records, { p with broker := polled.broker })

def performAll (p : Post) : List Act → List Outcome × Post
  | [] => ([], p)
  | a :: acts =>
    let (outcome, p) := p.perform a
    let (later, p) := p.performAll acts
    (outcome :: later, p)

end Post

-- ---------------------------------------------------------------------------
-- What acts and outcomes tell
-- ---------------------------------------------------------------------------

def Act.isStart : Act → Bool
  | .start => true
  | _ => false

def Act.published? : Act → Option Exchange
  | .publish x => some x
  | _ => none

def Outcome.records : Outcome → List OutboundRecord
  | .polled records => records
  | _ => []

def Starts (s : SourceSettings) (acts : List Act) : Prop :=
  s.queueName ≠ "" ∧ acts.any Act.isStart = true

/-- What is published from the first start on. No relay can start without a queue. -/
def heard (s : SourceSettings) (acts : List Act) : List Exchange :=
  if s.queueName = "" then []
  else (acts.dropWhile fun a => !a.isStart).filterMap Act.published?

def emitted (outcomes : List Outcome) : List OutboundRecord :=
  outcomes.flatMap Outcome.records

variable {s : SourceSettings} {acts : List Act} {p : Post}

theorem starts_snoc (a : Act) :
    Starts s (acts ++ [a]) ↔ Starts s acts ∨ s.queueName ≠ "" ∧ a.isStart = true := by
  simp [Starts, and_or_left]

theorem isEmpty_dropWhile_start :
    (acts.dropWhile fun a => !a.isStart).isEmpty = !acts.any Act.isStart := by
  induction acts with
  | nil => rfl
  | cons a acts ih => cases ha : a.isStart <;> simp [ha, ih]

theorem heard_snoc_of_starts (a : Act) (h : Starts s acts) :
    heard s (acts ++ [a]) = heard s acts ++ a.published?.toList := by
  have hempty : (acts.dropWhile fun a => !a.isStart).isEmpty = false := by
    rw [isEmpty_dropWhile_start, h.2, Bool.not_true]
  rw [heard, heard, if_neg h.1, if_neg h.1, List.dropWhile_append, hempty]
  cases a <;> simp [Act.published?]

theorem heard_snoc_of_not_starts (a : Act) (h : ¬ Starts s acts) :
    heard s (acts ++ [a]) = [] ∧ heard s acts = [] := by
  by_cases hname : s.queueName = ""
  · simp [heard, hname]
  · have hany : acts.any Act.isStart = false := by simpa [Starts, hname] using h
    have hempty : (acts.dropWhile fun a => !a.isStart) = [] := by
      rw [← List.isEmpty_iff, isEmpty_dropWhile_start, hany, Bool.not_false]
    rw [heard, heard, if_neg hname, if_neg hname, List.dropWhile_append, hempty]
    cases a <;> exact ⟨rfl, rfl⟩

theorem emitted_snoc (outcomes : List Outcome) (o : Outcome) :
    emitted (outcomes ++ [o]) = emitted outcomes ++ o.records := by
  simp [emitted]

theorem address_recordOf? {x : Exchange} {record : OutboundRecord}
    (h : recordOf? s x = some record) :
    record.topic = (if x.success then s.successTopic else s.errorsTopic) ∧
      record.key = x.request.correlationId := by
  simp only [recordOf?, recordOf, bind, Except.bind, pure, Except.pure] at h
  cases hf : s.format with
  | exchange =>
    simp only [hf, Except.toOption] at h
    cases h
    exact ⟨rfl, rfl⟩
  | acknowledgement =>
    cases ha : x.acknowledge with
    | error e => simp [hf, ha, Except.map, Except.toOption] at h
    | ok a =>
      simp only [hf, ha, Except.map, Except.toOption] at h
      cases h
      exact ⟨rfl, rfl⟩

-- ---------------------------------------------------------------------------
-- One act
-- ---------------------------------------------------------------------------

/-- What an act may come to. -/
inductive Does (p : Post) : Act → Outcome × Post → Prop where
  | returned (x : Exchange) (hc : p.broker.hasConsumer p.relay.settings.queueName = false) :
    Does p (.publish x) (.returned x, p)
  | accepted (x : Exchange) (hc : p.broker.hasConsumer p.relay.settings.queueName = true) :
    Does p (.publish x)
      (.accepted, { p with broker := p.broker.offer p.relay.settings.queueName x })
  | refused (hname : p.relay.settings.queueName = "") :
    Does p .start (.refused (.invalidName ""), p)
  | started (b : Broker Exchange) (hname : p.relay.settings.queueName ≠ "")
      (hconsumer : b.hasConsumer p.relay.settings.queueName = true)
      (hwaiting : p.relay.waiting b = p.waiting) :
    Does p .start (.started, ⟨{ p.relay with started := true }, b⟩)
  | idle (hs : p.relay.started = false) : Does p .poll (.polled [], p)
  | polled (taken : List Exchange) (b : Broker Exchange) (hs : p.relay.started = true)
      (hconsumers : b.consumers = p.broker.consumers)
      (hwaiting : p.waiting = taken ++ p.relay.waiting b)
      (hlength : taken.length = min (max 1 p.relay.settings.batchSize.toNat) p.waiting.length) :
    Does p .poll
      (.polled (taken.filterMap (recordOf? p.relay.settings)), { p with broker := b })

theorem Does.perform (p : Post) (a : Act) : Does p a (p.perform a) := by
  cases a with
  | publish x =>
    cases hc : p.broker.hasConsumer p.relay.settings.queueName with
    | true =>
      simp only [Post.perform, Broker.publish?, hc, if_true]
      exact .accepted x hc
    | false =>
      simp only [Post.perform, Broker.publish?, hc, Bool.false_eq_true, if_false]
      exact .returned x hc
  | start =>
    by_cases hname : p.relay.settings.queueName = ""
    · simp only [Post.perform, start, hname, Broker.register_of_empty, bind, Except.bind]
      exact .refused hname
    · obtain ⟨b, hb, hmailboxes, hconsumers⟩ := p.broker.register_of_ne hname
      have hmailbox : ∀ name, b.mailbox name = p.broker.mailbox name := fun name => by
        rw [Broker.mailbox, hmailboxes, Broker.mailbox]
      simp only [Post.perform, start, hb, bind, Except.bind, pure, Except.pure]
      refine .started _ hname ((hconsumers _).2 (.inr rfl)) ?_
      simp only [Post.waiting, waiting, Broker.ensure, Broker.mailbox_update, id_eq, hmailbox]
  | poll =>
    cases hs : p.relay.started with
    | true =>
      have hrecords : (p.relay.poll p.broker).records =
          (p.waiting.take p.relay.batch).filterMap (recordOf? p.relay.settings) := records_poll hs
      have hleft : p.relay.waiting (p.relay.poll p.broker).broker =
          p.waiting.drop p.relay.batch := waiting_poll hs
      simp only [Post.perform, hrecords]
      refine .polled _ _ hs ?_ ?_ ?_
      · simp only [poll, hs, if_true]
        rfl
      · rw [hleft, List.take_append_drop]
      · rw [List.length_take, batch, Nat.max_comm]
    | false =>
      simp only [Post.perform, poll, hs, Bool.false_eq_true, if_false]
      exact .idle hs

namespace Does

variable {result : Outcome × Post}

theorem publish_returned {x : Exchange} (h : Does p (.publish x) result)
    (hc : p.broker.hasConsumer p.relay.settings.queueName = false) : result = (.returned x, p) := by
  cases h with
  | returned => rfl
  | accepted _ htrue => simp [hc] at htrue

theorem start_refused (h : Does p .start result) (hname : p.relay.settings.queueName = "") :
    result = (.refused (.invalidName ""), p) := by
  cases h with
  | refused => rfl
  | started _ hne => exact absurd hname hne

theorem start_started (h : Does p .start result) (hname : p.relay.settings.queueName ≠ "") :
    result.1 = .started := by
  cases h with
  | refused hempty => exact absurd hempty hname
  | started => rfl

theorem poll_idle (h : Does p .poll result) (hs : p.relay.started = false) :
    result = (.polled [], p) := by
  cases h with
  | idle => rfl
  | polled _ _ htrue => simp [hs] at htrue

theorem poll_takes (h : Does p .poll result) (hs : p.relay.started = true) :
    ∃ taken, p.waiting = taken ++ result.2.waiting ∧
      taken.length = min (max 1 p.relay.settings.batchSize.toNat) p.waiting.length ∧
      result.1 = .polled (taken.filterMap (recordOf? p.relay.settings)) := by
  cases h with
  | idle hfalse => simp [hs] at hfalse
  | polled taken b _ _ hwaiting hlength => exact ⟨taken, hwaiting, hlength, rfl⟩

end Does

-- ---------------------------------------------------------------------------
-- Acts up to now
-- ---------------------------------------------------------------------------

structure Passes (s : SourceSettings) (acts : List Act) (outcomes : List Outcome) (p : Post) :
    Prop where
  settings : p.relay.settings = s
  started : p.relay.started = true ↔ Starts s acts
  consumer : p.broker.hasConsumer s.queueName = p.relay.started
  /-- What the polls took is the front of what was heard, and its records were given out. -/
  passed : ∃ taken, heard s acts = taken ++ p.waiting ∧
    emitted outcomes = taken.filterMap (recordOf? s)

namespace Passes

variable {outcomes : List Outcome} {b : Broker Exchange}

theorem new (hb : b.hasConsumer s.queueName = false) (hq : (b.mailbox s.queueName).items = []) :
    Passes s [] [] ⟨⟨s, false⟩, b⟩ where
  settings := rfl
  started := by simp [Starts]
  consumer := hb
  passed := ⟨[], by simp [heard, Post.waiting, waiting, hq], rfl⟩

theorem keep (h : Passes s acts outcomes p) {a : Act} {o : Outcome} (ho : o.records = [])
    (ha : a.published? = none ∨ p.relay.started = false) :
    ∃ taken, heard s (acts ++ [a]) = taken ++ p.waiting ∧
      emitted (outcomes ++ [o]) = taken.filterMap (recordOf? s) := by
  obtain ⟨taken, hheard, hemitted⟩ := h.passed
  refine ⟨taken, ?_, by rw [emitted_snoc, ho, List.append_nil, hemitted]⟩
  by_cases hst : Starts s acts
  · have hnone : a.published? = none := ha.resolve_right (by simp [h.started.2 hst])
    rw [heard_snoc_of_starts a hst, hnone, hheard]
    exact List.append_nil _
  · rw [← hheard, (heard_snoc_of_not_starts a hst).1, (heard_snoc_of_not_starts a hst).2]

theorem perform (h : Passes s acts outcomes p) (a : Act) :
    Passes s (acts ++ [a]) (outcomes ++ [(p.perform a).1]) (p.perform a).2 := by
  obtain rfl := h.settings
  obtain ⟨taken, hheard, hemitted⟩ := h.passed
  have hdoes := Does.perform p a
  generalize p.perform a = result at hdoes ⊢
  cases hdoes with
  | returned x hc =>
    have hs : p.relay.started = false := h.consumer.symm.trans hc
    exact ⟨rfl, by simp [starts_snoc, h.started, Act.isStart], h.consumer, h.keep rfl (.inr hs)⟩
  | accepted x hc =>
    have hst : Starts p.relay.settings acts := h.started.1 (h.consumer.symm.trans hc)
    refine ⟨rfl, by simp [starts_snoc, h.started, Act.isStart], h.consumer, taken, ?_, ?_⟩
    · rw [heard_snoc_of_starts _ hst, hheard, List.append_assoc]
      exact congrArg (taken ++ ·) (Broker.items_offer ..).symm
    · rw [emitted_snoc, hemitted]
      exact List.append_nil _
  | refused hname =>
    exact ⟨rfl, by simp [starts_snoc, h.started, hname], h.consumer, h.keep rfl (.inl rfl)⟩
  | started b hname hc hwaiting =>
    obtain ⟨taken, hheard, hemitted⟩ := h.keep (a := .start) (o := .started) rfl (.inl rfl)
    refine ⟨rfl, by simp [starts_snoc, hname, Act.isStart], hc, taken, ?_, hemitted⟩
    rw [hheard, ← hwaiting]
    rfl
  | idle hs =>
    exact ⟨rfl, by simp [starts_snoc, h.started, Act.isStart], h.consumer, h.keep rfl (.inl rfl)⟩
  | polled more b hs hconsumers hwaiting hlength =>
    have hc : b.hasConsumer p.relay.settings.queueName = p.relay.started := by
      rw [← h.consumer, Broker.hasConsumer, hconsumers, Broker.hasConsumer]
    refine ⟨rfl, by simp [starts_snoc, h.started, Act.isStart], hc, taken ++ more, ?_, ?_⟩
    · rw [heard_snoc_of_starts _ (h.started.1 hs), hheard, hwaiting, ← List.append_assoc]
      exact List.append_nil _
    · rw [emitted_snoc, hemitted, List.filterMap_append]
      rfl

theorem performAll (h : Passes s acts outcomes p) (more : List Act) :
    Passes s (acts ++ more) (outcomes ++ (p.performAll more).1) (p.performAll more).2 := by
  induction more generalizing acts outcomes p with
  | nil => simpa [Post.performAll] using h
  | cons a more ih => simpa [Post.performAll] using ih (h.perform a)

end Passes

-- ---------------------------------------------------------------------------
-- Runs
-- ---------------------------------------------------------------------------

/-- After any acts at a new post whose queue is empty and consumed by nobody else. -/
theorem passes_on_what_it_hears (s : SourceSettings) (b : Broker Exchange)
    (hb : b.hasConsumer s.queueName = false) (hq : (b.mailbox s.queueName).items = [])
    (acts : List Act) :
    let new : Post := ⟨⟨s, false⟩, b⟩
    let outcomes := (new.performAll acts).1
    let p := (new.performAll acts).2
    (∃ taken, heard s acts = taken ++ p.waiting ∧
      emitted outcomes = taken.filterMap (recordOf? s)) ∧
    (∀ x record, recordOf? s x = some record →
      record.topic = (if x.success then s.successTopic else s.errorsTopic) ∧
      record.key = x.request.correlationId) ∧
    (¬ Starts s acts → p.perform .poll = (.polled [], p) ∧
      ∀ x, p.perform (.publish x) = (.returned x, p)) ∧
    (Starts s acts → ∃ taken, p.waiting = taken ++ (p.perform .poll).2.waiting ∧
      taken.length = min (max 1 s.batchSize.toNat) p.waiting.length ∧
      (p.perform .poll).1 = .polled (taken.filterMap (recordOf? s))) ∧
    (s.queueName = "" → p.perform .start = (.refused (.invalidName ""), p)) ∧
    (s.queueName ≠ "" → (p.perform .start).1 = .started) := by
  intro new outcomes p
  have hpasses : Passes s acts outcomes p := (Passes.new hb hq).performAll acts
  clear_value p outcomes
  obtain ⟨rfl, hstarted, hconsumer, hpassed⟩ := hpasses
  refine ⟨hpassed, fun x record => address_recordOf?, fun hnot => ?_,
    fun hst => (Does.perform p .poll).poll_takes (hstarted.2 hst),
    (Does.perform p .start).start_refused, (Does.perform p .start).start_started⟩
  have hs : p.relay.started = false := by simpa using mt hstarted.1 hnot
  exact ⟨(Does.perform p .poll).poll_idle hs,
    fun x => (Does.perform p (.publish x)).publish_returned (hconsumer.trans hs)⟩

/-- One exchange before the start and one after it, at a broker with a consumer of another queue:
the polls give out the second and not the first. -/
theorem passes_on_after_start :
    let request (id : String) : Request :=
      { requestId := none, correlationId := some id, url := "http://service.local/",
        method := .get, headers := .empty, timeout := none, retry := {}, body := .text "",
        addressed := by decide }
    let moment : Moment :=
      ⟨⟨2024, 1, 1, by decide, by decide, by decide⟩, 0, 0, 0, 0, by decide, by decide, by decide,
        by decide⟩
    let exchange (id : String) : Exchange := .of (request id) ⟨200, "", "", .empty⟩ 0 moment 1 true
    let s : SourceSettings :=
      { queueName := "acks", successTopic := "ok", errorsTopic := "errors", batchSize := 1 }
    let b : Broker Exchange := { consumers := ["other"] }
    let acts : List Act :=
      [.publish (exchange "c-1"), .poll, .start, .publish (exchange "c-2"), .poll]
    b.hasConsumer s.queueName = false ∧ (b.mailbox s.queueName).items = [] ∧
      emitted (Post.performAll ⟨⟨s, false⟩, b⟩ acts).1 =
        [exchange "c-2"].filterMap (recordOf? s) := by
  intro request moment exchange s b acts
  have hb : b.hasConsumer s.queueName = false := by decide
  refine ⟨hb, rfl, ?_⟩
  obtain ⟨taken, hheard, hemitted⟩ := (passes_on_what_it_hears s b hb rfl acts).1
  have hwaiting : (Post.performAll ⟨⟨s, false⟩, b⟩ acts).2.waiting = [] := by rfl
  have htaken : taken = [exchange "c-2"] := by
    rw [hwaiting, List.append_nil] at hheard
    exact hheard.symm
  rw [hemitted, htaken]

end Courier.Relay
