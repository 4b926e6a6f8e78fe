import Courier.Proofs.Retry.Classifier

/-!
# The course of a call

A call whose pattern compiles sends at least once and at most as often as its policy allows. It
goes on exactly while attempts come out unsettled, pauses once before every attempt but the first,
and its exchange tells of the last attempt.
-/

namespace Courier

open SuccessPattern

/-- The acts from attempt `first` on when `more` attempts follow it: one pause between any two, and
none behind the last. -/
def actsFrom (policy : RetryPolicy) (request : Request) (outcomes : Nat → Attempt)
    (first : Nat) : Nat → List Act
  | 0 => [.send request (.ofNat first)]
  | more + 1 =>
    .send request (.ofNat first) ::
      .pause (policy.backoff.delay (.ofNat first) (outcomes (first - 1)).offset) ::
        actsFrom policy request outcomes (first + 1) more

def lastExchange (p : SuccessPattern) (request : Request) (outcomes : Nat → Attempt)
    (last : Nat) : Exchange :=
  let a := outcomes (last - 1)
  .of request (Invocation.responseOf a.result) a.elapsed a.moment (.ofNat last)
    (p.Succeeds a.result)

/-- A call that is about to make attempt `first` makes `more` further ones and ends. -/
structure Course.Ends (policy : RetryPolicy) (p : SuccessPattern) (request : Request)
    (outcomes : Nat → Attempt) (first more : Nat) (course : Course) : Prop where
  within : first + more ≤ policy.maxAttempts.toNat
  unsettled : ∀ k < more, p.Unsettled (outcomes (first - 1 + k)).result
  settled : p.Unsettled (outcomes (first - 1 + more)).result →
    first + more = policy.maxAttempts.toNat
  acts : course.acts = actsFrom policy request outcomes first more
  exchange : course.exchange = lastExchange p request outcomes (first + more)

variable {policy : RetryPolicy} {p : SuccessPattern} {request : Request}
  {outcomes : Nat → Attempt} {first more : Nat}

theorem attempts_lastExchange {last : Nat} (h1 : 1 ≤ last) (hlt : last < UInt32.size) :
    (lastExchange p request outcomes last).attempts.toNat = last := by
  have hnat : (UInt32.ofNat last).toNat = last := UInt32.toNat_ofNat_of_lt' hlt
  have hne : UInt32.ofNat last ≠ 0 := by
    intro h
    rw [h] at hnat
    exact absurd hnat.symm (by simpa using Nat.ne_of_gt h1)
  simp only [lastExchange, Exchange.of, hne, if_false, hnat]

theorem sends_actsFrom :
    (actsFrom policy request outcomes first more).countP Act.isSend = more + 1 := by
  induction more generalizing first with
  | zero => rfl
  | succ more ih => simp [actsFrom, List.countP_cons, Act.isSend, ih]

-- ---------------------------------------------------------------------------
-- One attempt
-- ---------------------------------------------------------------------------

namespace Invoker

variable [Pattern.Room] {c c' : Classifier} {number : UInt32}

theorem attempts_of_retry
    (h : c.judge policy number (outcomes (number.toNat - 1)).result = (.ok .retry, c')) :
    (attempts policy request outcomes c number).1 =
      (attempts policy request outcomes c' (number + 1)).1.map
        (·.after [.send request number,
          .pause (policy.backoff.delay number (outcomes (number.toNat - 1)).offset)]) := by
  rw [attempts]
  split
  · next h' => rw [h] at h'; cases h'
  · next h' => rw [h] at h'; cases h'; rfl
  · next hd h' => rw [h] at h'; cases h'; exact absurd rfl hd

theorem attempts_of_stop {d : Decision} (hd : d ≠ .retry)
    (h : c.judge policy number (outcomes (number.toNat - 1)).result = (.ok d, c')) :
    (attempts policy request outcomes c number).1 =
      let a := outcomes (number.toNat - 1)
      .ok ⟨[.send request number],
        .of request (Invocation.responseOf a.result) a.elapsed a.moment number (d = .success)⟩ := by
  rw [attempts]
  split
  · next h' => rw [h] at h'; cases h'
  · next h' => rw [h] at h'; cases h'; exact absurd rfl hd
  · next h' => rw [h] at h'; cases h'; rfl

end Invoker

-- ---------------------------------------------------------------------------
-- All attempts
-- ---------------------------------------------------------------------------

theorem Course.Ends.cons {course : Course}
    (h : course.Ends policy p request outcomes (first + 1) more) (h1 : 1 ≤ first)
    (hu : p.Unsettled (outcomes (first - 1)).result) :
    (course.after [.send request (.ofNat first),
      .pause (policy.backoff.delay (.ofNat first) (outcomes (first - 1)).offset)]).Ends
        policy p request outcomes first (more + 1) where
  within := by have := h.within; omega
  unsettled k hk := by
    cases k with
    | zero => exact hu
    | succ k =>
      have hk := h.unsettled k (by omega)
      rwa [show first + 1 - 1 + k = first - 1 + (k + 1) by omega] at hk
  settled hs := by
    have := h.settled
    rw [show first + 1 - 1 + more = first - 1 + (more + 1) by omega] at this
    have := this hs
    omega
  acts := by simp [after, actsFrom, h.acts]
  exchange := by
    rw [after, h.exchange]
    congr 1
    omega

theorem Course.Ends.tail {course : Course}
    (h : course.Ends policy p request outcomes first (more + 1)) (h1 : 1 ≤ first) :
    (⟨actsFrom policy request outcomes (first + 1) more, course.exchange⟩ : Course).Ends
      policy p request outcomes (first + 1) more where
  within := by have := h.within; omega
  unsettled k hk := by
    rw [show first + 1 - 1 + k = first - 1 + (k + 1) by omega]
    exact h.unsettled (k + 1) (by omega)
  settled hs := by
    rw [show first + 1 - 1 + more = first - 1 + (more + 1) by omega] at hs
    have := h.settled hs
    omega
  acts := rfl
  exchange := by
    rw [h.exchange]
    congr 1
    omega

theorem Course.Ends.single (hm : first ≤ policy.maxAttempts.toNat)
    (hs : p.Unsettled (outcomes (first - 1)).result → first = policy.maxAttempts.toNat) :
    (⟨[.send request (.ofNat first)], lastExchange p request outcomes first⟩ : Course).Ends
      policy p request outcomes first 0 where
  within := hm
  unsettled k hk := absurd hk (Nat.not_lt_zero k)
  settled := hs
  acts := rfl
  exchange := rfl

theorem Course.Ends.sends {course : Course}
    (h : course.Ends policy p request outcomes first more) : course.sends = more + 1 := by
  rw [Course.sends, h.acts, sends_actsFrom]

namespace Invoker

variable [Pattern.Room]

theorem attempts_cases (hp : SuccessPattern.compile policy.successPattern = .ok p)
    (c : Classifier) (hm : first ≤ policy.maxAttempts.toNat) :
    (p.Unsettled (outcomes (first - 1)).result ∧ first < policy.maxAttempts.toNat ∧
      ∃ c', (attempts policy request outcomes c (.ofNat first)).1 =
        (attempts policy request outcomes c' (.ofNat (first + 1))).1.map
          (·.after [.send request (.ofNat first),
            .pause (policy.backoff.delay (.ofNat first) (outcomes (first - 1)).offset)])) ∨
    ((p.Unsettled (outcomes (first - 1)).result → first = policy.maxAttempts.toNat) ∧
      (attempts policy request outcomes c (.ofNat first)).1 =
        .ok ⟨[.send request (.ofNat first)], lastExchange p request outcomes first⟩) := by
  have hlt : first < UInt32.size := Nat.lt_of_le_of_lt hm policy.maxAttempts.toNat_lt
  have hnat : (UInt32.ofNat first).toNat = first := UInt32.toNat_ofNat_of_lt' hlt
  let i : Invocation := ⟨request, policy, p, .ofNat first⟩
  have hj := c.judge_fst hp request (.ofNat first) (outcomes (first - 1)).result
  obtain ⟨c', hc⟩ : ∃ c', c.judge policy (.ofNat first)
      (outcomes ((UInt32.ofNat first).toNat - 1)).result =
        (.ok (i.decision (outcomes (first - 1)).result), c') := by
    rw [hnat]
    exact ⟨_, Prod.ext_iff.2 ⟨hj, rfl⟩⟩
  by_cases hd : i.decision (outcomes (first - 1)).result = .retry
  · left
    obtain ⟨hu, hn⟩ := (Invocation.decision_ofNat_eq_retry hm).1 hd
    refine ⟨hu, hn, c', ?_⟩
    rw [hd] at hc
    rw [attempts_of_retry hc, hnat, UInt32.ofNat_add]
    rfl
  · right
    constructor
    · intro hu
      have hn : ¬ first < policy.maxAttempts.toNat := fun hn =>
        hd ((Invocation.decision_ofNat_eq_retry hm).2 ⟨hu, hn⟩)
      omega
    · have hs : decide (i.decision (outcomes (first - 1)).result = .success) =
          decide (p.Succeeds (outcomes (first - 1)).result) :=
        decide_eq_decide.2 Invocation.decision_eq_success
      rw [attempts_of_stop hd hc]
      simp only [hnat, hs, lastExchange]

theorem attempts_ends (hp : SuccessPattern.compile policy.successPattern = .ok p)
    (c : Classifier) (h1 : 1 ≤ first) (hm : first ≤ policy.maxAttempts.toNat) :
    ∃ more course, (attempts policy request outcomes c (.ofNat first)).1 = .ok course ∧
      course.Ends policy p request outcomes first more := by
  -- Induction on the attempts that are left; each repetition takes one of them.
  induction hleft : policy.maxAttempts.toNat - first generalizing first c with
  | zero =>
    rcases attempts_cases hp c hm with ⟨-, hlt, -⟩ | ⟨hs, he⟩
    · omega
    · exact ⟨0, _, he, .single hm hs⟩
  | succ left ih =>
    rcases attempts_cases hp c hm with ⟨hu, hlt, c', he⟩ | ⟨hs, he⟩
    · obtain ⟨more, course, hc, hends⟩ :=
        @ih (first + 1) c' (by omega) (by omega) (by omega)
      refine ⟨more + 1, _, ?_, hends.cons h1 hu⟩
      rw [he, hc]
      rfl
    · exact ⟨0, _, he, .single hm hs⟩

end Invoker

-- ---------------------------------------------------------------------------
-- Executions
-- ---------------------------------------------------------------------------

section

variable {invoker : Invoker}

theorem Invoker.not_missing
    (hid : invoker.requireCorrelationId = true → request.correlationId.isSome = true) :
    (invoker.requireCorrelationId && request.correlationId.isNone) = false := by
  cases hr : invoker.requireCorrelationId with
  | false => rfl
  | true =>
    obtain ⟨id, h⟩ := Option.isSome_iff_exists.1 (hid hr)
    simp [h]

variable [Pattern.Room]

theorem Invocation.start_eq_ok
    (hp : SuccessPattern.compile (policy.override request.retry).successPattern = .ok p)
    (hid : invoker.requireCorrelationId = true → request.correlationId.isSome = true) :
    start invoker policy request = .ok ⟨request, policy.override request.retry, p, 1⟩ := by
  simp only [start, Invoker.not_missing hid, hp]
  rfl

theorem Invocation.start_ok {i : Invocation} (h : start invoker policy request = .ok i) :
    i.request = request ∧ i.policy = policy.override request.retry ∧ i.number = 1 ∧
      SuccessPattern.compile i.policy.successPattern = .ok i.pattern := by
  unfold start at h
  split at h
  · exact nomatch h
  · cases hp : SuccessPattern.compile (policy.override request.retry).successPattern with
    | error e =>
      simp only [hp] at h
      exact nomatch h
    | ok p =>
      simp only [hp] at h
      cases h
      exact ⟨rfl, rfl, rfl, hp⟩

theorem Invoker.execute_ends (c : Classifier)
    (hp : SuccessPattern.compile (policy.override request.retry).successPattern = .ok p)
    (hid : invoker.requireCorrelationId = true → request.correlationId.isSome = true) :
    ∃ more course, (invoker.execute c policy request outcomes).1 = .ok course ∧
      course.Ends (policy.override request.retry) p request outcomes 1 more := by
  obtain ⟨c', hc'⟩ : ∃ c', c.pattern (policy.override request.retry).successPattern =
      (.ok p, c') := ⟨_, Prod.ext_iff.2 ⟨by rw [c.pattern_fst, hp], rfl⟩⟩
  have hone : 1 ≤ (policy.override request.retry).maxAttempts.toNat := by
    rw [RetryPolicy.toNat_maxAttempts]
    omega
  simp only [execute, not_missing hid, hc', Bool.false_eq_true, if_false]
  exact attempts_ends hp c' (Nat.le_refl 1) hone

end

end Courier
