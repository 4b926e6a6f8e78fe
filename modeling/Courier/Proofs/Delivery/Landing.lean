import Courier.Delivery.Schedule
import Courier.Proofs.Delivery.Flight
import Courier.Proofs.Delivery.Ids
import Courier.Proofs.Queue.Broker
import Courier.Proofs.Retry.WholeStatus

/-!
# How a call of a batch ends

Where the request and the number of an attempt settle what it comes to, they settle the end of a
call too: which attempt is the last, and what its exchange tells. Nothing else that happens in the
meantime counts, be it other calls or patterns compiled for them.
-/

namespace Courier

variable {σ τ : Type} {w : World σ} {t : Delivery} {record : InboundRecord}
  {outcome outcome' : Request → UInt32 → Except TransportError Response}

/-- What an attempt comes to is settled by its request and its number. -/
def World.Answers (w : World σ)
    (outcome : Request → UInt32 → Except TransportError Response) : Prop :=
  ∀ s request number, (w.send s request number).1.2.result = outcome request number

/-- Even the clock readings of an attempt are settled by its request and its number. -/
def World.Alike (w : World σ) (w' : World τ) : Prop :=
  ∀ s s' request number, (w.send s request number).1.2 = (w'.send s' request number).1.2

/-- What an exchange tells, drawn ids and clock readings apart. -/
def Exchange.account (record : InboundRecord) (x : Exchange) :
    Request × Response × UInt32 × Bool :=
  (x.request.withIdsOf record, x.response, x.attempts, x.success)

namespace Invocation

variable {i : Invocation} {n m : Nat}

def numbered (i : Invocation) (n : Nat) : Invocation :=
  { i with number := .ofNat n }

def exchange (i : Invocation) (n : Nat) (a : Attempt) : Exchange :=
  .of i.request (responseOf a.result) a.elapsed a.moment (.ofNat n) (i.pattern.Succeeds a.result)

/-- The call comes to make its attempt `n`. -/
structure Reaches (i : Invocation)
    (outcome : Request → UInt32 → Except TransportError Response) (n : Nat) : Prop where
  first : 1 ≤ n
  within : n ≤ i.policy.maxAttempts.toNat
  unsettled : ∀ k, 1 ≤ k → k < n → i.pattern.Unsettled (outcome i.request (.ofNat k))

structure EndsAt (i : Invocation)
    (outcome : Request → UInt32 → Except TransportError Response) (n : Nat) : Prop extends
    i.Reaches outcome n where
  settled : i.pattern.Unsettled (outcome i.request (.ofNat n)) → n = i.policy.maxAttempts.toNat

theorem EndsAt.not_reaches (h : i.EndsAt outcome n) (hlt : n < m) : ¬ i.Reaches outcome m := by
  intro hm
  have hn := h.settled (hm.unsettled n h.first hlt)
  have := hm.within
  omega

theorem EndsAt.unique (hn : i.EndsAt outcome n) (hm : i.EndsAt outcome m) : n = m := by
  rcases Nat.lt_trichotomy n m with hlt | heq | hgt
  · exact absurd hm.toReaches (hn.not_reaches hlt)
  · exact heq
  · exact absurd hn.toReaches (hm.not_reaches hgt)

theorem Reaches.one (i : Invocation) : i.Reaches outcome 1 where
  first := Nat.le_refl 1
  within := by
    rw [RetryPolicy.toNat_maxAttempts]
    omega
  unsettled k h1 hk := by omega

theorem Reaches.toNat_number (h : i.Reaches outcome n) : (i.numbered n).number.toNat = n :=
  UInt32.toNat_ofNat_of_lt' (Nat.lt_of_le_of_lt h.within i.policy.maxAttempts.toNat_lt)

theorem Reaches.next_cases {a : Attempt} (h : i.Reaches outcome n)
    (ha : a.result = outcome i.request (.ofNat n)) :
    (i.Reaches outcome (n + 1) ∧ ∃ delay, (i.numbered n).next a = .pause delay
      (i.numbered (n + 1))) ∨
    (i.EndsAt outcome n ∧ (i.numbered n).next a = .done (i.exchange n a)) := by
  by_cases hd : (i.numbered n).decision a.result = .retry
  · left
    obtain ⟨hu, hn⟩ := (decision_ofNat_eq_retry h.within).1 hd
    refine ⟨⟨by omega, hn, fun k h1 hk => ?_⟩, i.policy.backoff.delay (.ofNat n) a.offset, ?_⟩
    · rcases Nat.lt_succ_iff_lt_or_eq.1 hk with hlt | rfl
      · exact h.unsettled k h1 hlt
      · exact ha ▸ hu
    · rw [next_of_retry hd]
      simp only [numbered, UInt32.ofNat_add]
      rfl
  · right
    refine ⟨⟨h, fun hu => ?_⟩, next_of_stop hd⟩
    have hn : ¬ n < i.policy.maxAttempts.toNat := fun hn =>
      hd ((decision_ofNat_eq_retry h.within).2 ⟨ha ▸ hu, hn⟩)
    have := h.within
    omega

variable {i' : Invocation}

theorem EndsAt.congr (hi : i.withIdsOf record = i'.withIdsOf record)
    (hsame : ∀ number, outcome i.request number = outcome' i'.request number)
    (h : i.EndsAt outcome n) : i'.EndsAt outcome' n := by
  obtain ⟨-, hpolicy, hpattern⟩ := of_withIdsOf hi
  refine ⟨⟨h.first, hpolicy ▸ h.within, fun k h1 hk => ?_⟩, fun hu => ?_⟩
  · rw [← hpattern, ← hsame]
    exact h.unsettled k h1 hk
  · rw [← hpattern, ← hsame] at hu
    rw [← hpolicy]
    exact h.settled hu

theorem account_exchange {a a' : Attempt} (hi : i.withIdsOf record = i'.withIdsOf record)
    (ha : a.result = a'.result) :
    (i.exchange n a).account record = (i'.exchange n a').account record := by
  obtain ⟨hrequest, -, hpattern⟩ := of_withIdsOf hi
  simp only [exchange, Exchange.account, Exchange.of, hrequest, hpattern, ha]

end Invocation

-- ---------------------------------------------------------------------------
-- Effects
-- ---------------------------------------------------------------------------

namespace Schedule

def sends (request : Request) (n : Nat) : List Effect :=
  (List.range n).map fun k => .sent request (.ofNat (k + 1))

theorem sends_succ (request : Request) (n : Nat) :
    sends request (n + 1) = sends request n ++ [.sent request (.ofNat (n + 1))] := by
  simp [sends, List.range_succ]

@[simp] theorem published_append (first second : List Effect) :
    published (first ++ second) = published first ++ published second :=
  List.filterMap_append

@[simp] theorem published_drew (ids : FreshIds) (effects : List Effect) :
    published (.drew ids :: effects) = published effects := rfl

@[simp] theorem published_sends (request : Request) (n : Nat) :
    published (sends request n) = [] := by
  simp [published, sends]

@[simp] theorem published_map_published (xs : List Exchange) :
    published (xs.map .published) = xs := by
  simp [published, List.filterMap_map]

theorem publish_fst (b : Broker Exchange) (x : Exchange) :
    (t.publish b x).1 =
      (publications t b x).foldl (fun b x => b.offer t.settings.queueName x) b := by
  unfold Delivery.publish publications Broker.publish?
  cases t.settings.publish <;> cases b.hasConsumer t.settings.queueName <;> rfl

end Schedule

-- ---------------------------------------------------------------------------
-- Known patterns
-- ---------------------------------------------------------------------------

theorem Invocation.next_eq_follow (i : Invocation) (a : Attempt) :
    i.next a = i.follow a (i.decision a.result) := by
  cases hd : i.decision a.result <;> simp only [next, follow, hd]

variable [Pattern.Room]

theorem Invocation.startWith_fst (c : Classifier) (invoker : Invoker) (policy : RetryPolicy)
    (request : Request) :
    (startWith c invoker policy request).1 = start invoker policy request := by
  unfold startWith start
  split
  · rfl
  · simp only [Classifier.pattern_fst]
    cases SuccessPattern.compile (policy.override request.retry).successPattern <;> rfl

theorem Delivery.prepareWith_fst (t : Delivery) (c : Classifier) (ids : FreshIds)
    (record : InboundRecord) : (t.prepareWith c ids record).1 = t.prepare ids record := by
  unfold prepareWith prepare
  cases buildRequest t.settings ids record with
  | error e => rfl
  | ok request => exact Invocation.startWith_fst ..

theorem Delivery.prepare_first {ids : FreshIds} {i : Invocation}
    (h : t.prepare ids record = .ok i) :
    i.numbered 1 = i ∧ SuccessPattern.compile i.policy.successPattern = .ok i.pattern := by
  obtain ⟨request, -, hstart⟩ := prepare_ok h
  obtain ⟨-, -, hnumber, hpattern⟩ := Invocation.start_ok hstart
  have hone : i.numbered 1 = { i with number := 1 } := rfl
  exact ⟨by rw [hone, ← hnumber], hpattern⟩

namespace Schedule

theorem launch_eq (s : Shared σ) :
    ((launch w t s record).leg, (launch w t s record).shared.site) =
      Site.launch w t s.site record := by
  have hfst := t.prepareWith_fst s.classifier (w.freshIds s.site.world).1 record
  unfold launch Site.launch
  simp only [← hfst]
  split
  · next hp => simp only [hp, depart, Site.depart]
  · next hp => simp only [hp]

theorem resume_answering (s : Shared σ) {i : Invocation} (a : Attempt)
    (hp : SuccessPattern.compile i.policy.successPattern = .ok i.pattern) :
    ∃ classifier, resume w t s (.answering i a) =
      let site := s.site.count (Invocation.metrics (i.next a))
      match i.next a with
      | .pause delay j => ⟨.wait delay.millis (.pausing j), [], ⟨site, classifier⟩⟩
      | .done x =>
        let (broker, metrics) := t.publish site.broker x
        ⟨.landed (.ok x), (publications t s.site.broker x).map .published,
          ⟨({ site with broker } : Site σ).count metrics, classifier⟩⟩ := by
  have hfst := s.classifier.judge_fst hp i.request i.number a.result
  refine ⟨(s.classifier.judge i.policy i.number a.result).2, ?_⟩
  unfold resume
  simp only [Invocation.next_eq_follow]
  split
  · next hj =>
    rw [hj] at hfst
    cases hfst
  · next d c hj =>
    rw [hj] at hfst
    cases hfst
    rw [hj]
    rfl

theorem resume_eq (s : Shared σ) {f : Flight}
    (hp : ∀ i a, f = .answering i a →
      SuccessPattern.compile i.policy.successPattern = .ok i.pattern) :
    ((resume w t s f).leg, (resume w t s f).shared.site) = Site.resume w t s.site f := by
  cases f with
  | pausing i => rfl
  | answering i a =>
    obtain ⟨classifier, hresume⟩ := @resume_answering _ w t _ s i a (hp i a rfl)
    rw [hresume, Site.resume]
    cases i.next a <;> rfl

-- ---------------------------------------------------------------------------
-- Ways to go
-- ---------------------------------------------------------------------------

/-- A call begins with its first send, or its record is refused. -/
theorem launch_cases (w : World σ) (t : Delivery) (s : Shared σ) (record : InboundRecord) :
    (∃ i ms s', t.prepare (w.freshIds s.site.world).1 record = .ok i ∧
      (launch w t s record).leg =
        .wait ms (.answering (i.numbered 1) (w.send s' i.request (.ofNat 1)).1.2) ∧
      (launch w t s record).effects = .drew (w.freshIds s.site.world).1 :: sends i.request 1) ∨
    ∃ e, t.prepare (w.freshIds s.site.world).1 record = .error e ∧
      (launch w t s record).leg = .landed (.error e) ∧
      (launch w t s record).effects = [.drew (w.freshIds s.site.world).1] := by
  have hfst := t.prepareWith_fst s.classifier (w.freshIds s.site.world).1 record
  simp only [launch]
  split
  · next i c hp =>
    rw [hp] at hfst
    have hi : t.prepare (w.freshIds s.site.world).1 record = .ok i := hfst.symm
    refine .inl ⟨i, (w.send (w.freshIds s.site.world).2 i.request i.number).1.1,
      (w.freshIds s.site.world).2, hi, ?_⟩
    rw [← (Delivery.prepare_first hi).1]
    exact ⟨rfl, rfl⟩
  · next e c hp =>
    rw [hp] at hfst
    exact .inr ⟨e, hfst.symm, rfl, rfl⟩

/-- After an answer a call pauses for its next attempt, or ends and publishes its exchange. -/
theorem answering_cases {i : Invocation} {n : Nat} {a : Attempt} (t : Delivery) (s : Shared σ)
    (hp : SuccessPattern.compile i.policy.successPattern = .ok i.pattern)
    (hn : i.Reaches outcome n) (ha : a.result = outcome i.request (.ofNat n)) :
    (i.Reaches outcome (n + 1) ∧
      (∃ ms, (resume w t s (.answering (i.numbered n) a)).leg =
        .wait ms (.pausing (i.numbered (n + 1)))) ∧
      (resume w t s (.answering (i.numbered n) a)).effects = []) ∨
    (i.EndsAt outcome n ∧
      (resume w t s (.answering (i.numbered n) a)).leg = .landed (.ok (i.exchange n a)) ∧
      (resume w t s (.answering (i.numbered n) a)).effects =
        (publications t s.site.broker (i.exchange n a)).map .published) := by
  obtain ⟨classifier, hresume⟩ := @resume_answering _ w t _ s (i.numbered n) a hp
  rw [hresume]
  rcases hn.next_cases ha with ⟨hn', delay, hnext⟩ | ⟨hend, hnext⟩
  · refine .inl ⟨hn', ⟨delay.millis, ?_⟩, ?_⟩ <;> simp only [hnext]
  · refine .inr ⟨hend, ?_, ?_⟩ <;> simp only [hnext]

-- ---------------------------------------------------------------------------
-- Accounts
-- ---------------------------------------------------------------------------

/-- How far the call of a record is that did this and nothing else. -/
inductive Underway (w : World σ) (t : Delivery) (record : InboundRecord)
    (outcome : Request → UInt32 → Except TransportError Response) :
    List Effect → InboundRecord ⊕ Flight → Prop where
  | fresh : Underway w t record outcome [] (.inl record)
  | pausing {s : σ} {i : Invocation} {n : Nat}
      (hi : t.prepare (w.freshIds s).1 record = .ok i) (hn : i.Reaches outcome (n + 1)) :
      Underway w t record outcome (.drew (w.freshIds s).1 :: sends i.request n)
        (.inr (.pausing (i.numbered (n + 1))))
  | answering {s s' : σ} {i : Invocation} {n : Nat}
      (hi : t.prepare (w.freshIds s).1 record = .ok i) (hn : i.Reaches outcome n) :
      Underway w t record outcome (.drew (w.freshIds s).1 :: sends i.request n)
        (.inr (.answering (i.numbered n) (w.send s' i.request (.ofNat n)).1.2))

/-- What the call of a record came to that did this and nothing else. It published by a broker of
which `brokers` holds. -/
inductive Over (w : World σ) (t : Delivery) (record : InboundRecord)
    (outcome : Request → UInt32 → Except TransportError Response)
    (brokers : Broker Exchange → Prop) : List Effect → Except Rejection Exchange → Prop where
  | rejected {s : σ} {e : Rejection} (he : t.prepare (w.freshIds s).1 record = .error e) :
      Over w t record outcome brokers [.drew (w.freshIds s).1] (.error e)
  | ended {s s' : σ} {i : Invocation} {n : Nat} {x : Exchange} {b : Broker Exchange}
      (hi : t.prepare (w.freshIds s).1 record = .ok i) (hn : i.EndsAt outcome n)
      (hx : x = i.exchange n (w.send s' i.request (.ofNat n)).1.2) (hb : brokers b) :
      Over w t record outcome brokers
        (.drew (w.freshIds s).1 :: sends i.request n ++ (publications t b x).map .published) (.ok x)

def Gets (w : World σ) (t : Delivery) (record : InboundRecord)
    (outcome : Request → UInt32 → Except TransportError Response)
    (brokers : Broker Exchange → Prop) (effects : List Effect) : Leg → Prop
  | .wait _ f => Underway w t record outcome effects (.inr f)
  | .landed result => Over w t record outcome brokers effects result

variable {brokers : Broker Exchange → Prop} {effects : List Effect} {s : Shared σ}

theorem gets_launch :
    Gets w t record outcome brokers (launch w t s record).effects (launch w t s record).leg := by
  rcases launch_cases w t s record with ⟨i, ms, s', hi, hleg, heffects⟩ | ⟨e, he, hleg, heffects⟩
  · rw [hleg, heffects]
    exact .answering hi (.one i)
  · rw [hleg, heffects]
    exact .rejected he

theorem gets_resume (hw : w.Answers outcome) {f : Flight} (hs : brokers s.site.broker)
    (h : Underway w t record outcome effects (.inr f)) :
    Gets w t record outcome brokers (effects ++ (resume w t s f).effects)
      (resume w t s f).leg := by
  cases h with
  | @pausing s₀ i n hi hn =>
    have heffects : (resume w t s (.pausing (i.numbered (n + 1)))).effects =
      [.sent i.request (.ofNat (n + 1))] := rfl
    rw [heffects, List.cons_append, ← sends_succ]
    exact .answering hi hn
  | @answering s₀ s' i n hi hn =>
    rcases answering_cases t s (Delivery.prepare_first hi).2 hn (hw s' i.request (.ofNat n)) with
      ⟨hn', ⟨ms, hleg⟩, heffects⟩ | ⟨hend, hleg, heffects⟩
    · rw [hleg, heffects, List.append_nil]
      exact .pausing hi hn'
    · rw [hleg, heffects]
      exact .ended hi hend rfl hs

theorem gets_run (hw : w.Answers outcome) {job : InboundRecord ⊕ Flight}
    (hs : brokers s.site.broker) (h : Underway w t record outcome effects job) :
    Gets w t record outcome brokers (effects ++ (run w t s job).effects) (run w t s job).leg := by
  cases job with
  | inl r => cases h; exact gets_launch
  | inr f => exact gets_resume hw hs h

theorem Underway.compiled {f : Flight} (h : Underway w t record outcome effects (.inr f))
    (i : Invocation) (a : Attempt) (hf : f = .answering i a) :
    SuccessPattern.compile i.policy.successPattern = .ok i.pattern := by
  subst hf
  cases h with
  | answering hi hn => exact (Delivery.prepare_first hi).2

def runOn (w : World σ) (t : Delivery) (s : Site σ) : InboundRecord ⊕ Flight → Leg × Site σ
  | .inl record => Site.launch w t s record
  | .inr f => Site.resume w t s f

theorem run_eq {job : InboundRecord ⊕ Flight} (h : Underway w t record outcome effects job) :
    ((run w t s job).leg, (run w t s job).shared.site) = runOn w t s.site job := by
  cases job with
  | inl record => exact launch_eq s
  | inr f => exact resume_eq s h.compiled

-- ---------------------------------------------------------------------------
-- Publications
-- ---------------------------------------------------------------------------

theorem Underway.published_eq {job : InboundRecord ⊕ Flight}
    (h : Underway w t record outcome effects job) : published effects = [] := by
  cases h with
  | fresh => rfl
  | pausing => simp
  | answering => simp

/-- While the queue is consumed, a call publishes the exchange with which it ends. -/
theorem Over.published_of_always {result : Except Rejection Exchange}
    (h : Over w t record outcome brokers effects result)
    (hb : ∀ b, brokers b → ∀ x, publications t b x = [x]) :
    published effects = result.toOption.toList := by
  cases h with
  | rejected => rfl
  | ended hi hn hx hbroker =>
    rw [hb _ hbroker]
    simp [-List.map_cons, Except.toOption]

theorem Over.published_of_never {result : Except Rejection Exchange}
    (h : Over w t record outcome brokers effects result)
    (hb : ∀ b, brokers b → ∀ x, publications t b x = []) : published effects = [] := by
  cases h with
  | rejected => rfl
  | ended hi hn hx hbroker => simp [hb _ hbroker]

theorem over_drew {result : Except Rejection Exchange}
    (h : Over w t record outcome brokers effects result) :
    ∃ s more, effects = .drew (w.freshIds s).1 :: more ∧ ∀ e, result = .error e → more = [] := by
  cases h with
  | rejected => exact ⟨_, _, rfl, fun _ _ => rfl⟩
  | ended => exact ⟨_, _, rfl, fun _ h => nomatch h⟩

theorem broker_run (s : Shared σ) (job : InboundRecord ⊕ Flight) :
    (run w t s job).shared.site.broker =
      (published (run w t s job).effects).foldl (fun b x => b.offer t.settings.queueName x)
        s.site.broker := by
  match job with
  | .inl record =>
    simp only [run, launch]
    split <;> rfl
  | .inr (.pausing i) => rfl
  | .inr (.answering i a) =>
    simp only [run, resume]
    split
    · rfl
    · split
      · rfl
      · simp only [published_map_published]
        exact publish_fst s.site.broker _

-- ---------------------------------------------------------------------------
-- Attempts that are left
-- ---------------------------------------------------------------------------

def left : InboundRecord ⊕ Flight → Nat
  | .inl _ => 2 * UInt32.size + 1
  | .inr (.answering i _) => 2 * (UInt32.size - i.number.toNat) + 2
  | .inr (.pausing i) => 2 * (UInt32.size - i.number.toNat) + 3

def leftOf : Leg → Nat
  | .wait _ f => left (.inr f)
  | .landed _ => 1

theorem leftOf_launch_lt : leftOf (launch w t s record).leg < left (.inl record) := by
  have hsize : 1 < UInt32.size := by decide
  rcases launch_cases w t s record with ⟨i, ms, s', -, hleg, -⟩ | ⟨e, -, hleg, -⟩
  · have hone : (i.numbered 1).number.toNat = 1 := rfl
    rw [hleg]
    simp only [leftOf, left, hone]
    omega
  · rw [hleg]
    simp only [leftOf, left]
    omega

theorem leftOf_resume_lt (hw : w.Answers outcome) {f : Flight}
    (h : Underway w t record outcome effects (.inr f)) :
    leftOf (resume w t s f).leg < left (.inr f) := by
  cases h with
  | pausing hi hn => exact Nat.lt_succ_self _
  | @answering s₀ s' i n hi hn =>
    rcases answering_cases t s (Delivery.prepare_first hi).2 hn (hw s' i.request (.ofNat n)) with
      ⟨hn', ⟨ms, hleg⟩, -⟩ | ⟨-, hleg, -⟩
    · have hlt : i.policy.maxAttempts.toNat < UInt32.size := i.policy.maxAttempts.toNat_lt
      have hwithin := hn'.within
      rw [hleg]
      simp only [leftOf, left, hn.toNat_number, hn'.toNat_number]
      omega
    · rw [hleg]
      simp only [leftOf, left]
      omega

theorem leftOf_run_lt (hw : w.Answers outcome) {job : InboundRecord ⊕ Flight}
    (h : Underway w t record outcome effects job) : leftOf (run w t s job).leg < left job := by
  cases job with
  | inl r => exact leftOf_launch_lt
  | inr f => exact leftOf_resume_lt hw h

end Schedule

end Courier
