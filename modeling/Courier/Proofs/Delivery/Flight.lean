import Mathlib.Algebra.BigOperators.Group.List.Basic
import Mathlib.Algebra.Ring.Nat
import Courier.Delivery.Timeline
import Courier.Proofs.Retry.Execution

/-!
# Calls on the timeline and in one piece

A call that flies alone, from wait to wait, comes to the exchange that its execution in one piece
has. The time it takes is that of the answers and of the pauses in its course, and no more. The
main statement says all about an execution: how often it sends, when it repeats, and what its
exchange tells.
-/

namespace Courier

variable {σ : Type}

namespace World

def afterSends (w : World σ) (s : σ) (request : Request) : Nat → σ
  | 0 => s
  | n + 1 => (w.send (w.afterSends s request n) request (.ofNat (n + 1))).2

def answer (w : World σ) (s : σ) (request : Request) (n : Nat) : Nat × Attempt :=
  (w.send (w.afterSends s request n) request (.ofNat (n + 1))).1

theorem send_afterSends (w : World σ) (s : σ) (request : Request) {n : Nat} (h : 1 ≤ n) :
    w.send (w.afterSends s request (n - 1)) request (.ofNat n) =
      (w.answer s request (n - 1), w.afterSends s request n) := by
  obtain ⟨k, rfl⟩ : ∃ k, n = k + 1 := ⟨n - 1, by omega⟩
  rfl

end World

def Act.rest : Act → Nat
  | .send _ _ => 0
  | .pause delay => delay.millis

namespace Invocation

variable {i : Invocation} {a : Attempt}

theorem next_of_retry (h : i.decision a.result = .retry) :
    i.next a =
      .pause (i.policy.backoff.delay i.number a.offset) { i with number := i.number + 1 } := by
  unfold next
  rw [h]

theorem next_of_stop (h : i.decision a.result ≠ .retry) :
    i.next a = .done (.of i.request (responseOf a.result) a.elapsed a.moment i.number
      (i.pattern.Succeeds a.result)) := by
  have hs : decide (i.decision a.result = .success) = decide (i.pattern.Succeeds a.result) :=
    decide_eq_decide.2 decision_eq_success
  unfold next
  rw [← hs]
  split
  · next hd => exact absurd hd h
  · next hd => rfl

end Invocation

namespace Site

variable {w : World σ} {t : Delivery} {s : Site σ} {i j : Invocation} {fuel time : Nat}

theorem finish_landed (fuel time : Nat) (result : Except Rejection Exchange) (s : Site σ) :
    finish w t fuel time (.landed result, s) = ((result, time), s) := by
  cases fuel <;> rfl

theorem finish_depart_of_pause {delay : Span}
    (h : i.next (w.send s.world i.request i.number).1.2 = .pause delay j) :
    ∃ s', s'.world = (w.send s.world i.request i.number).2 ∧
      finish w t (fuel + 2) time (depart w s i) =
        finish w t fuel (time + (w.send s.world i.request i.number).1.1 + delay.millis)
          (depart w s' j) := by
  refine ⟨({ s with world := (w.send s.world i.request i.number).2 } : Site σ).count
    (Invocation.metrics (.pause delay j)), rfl, ?_⟩
  simp only [depart, finish, resume, h]

theorem finish_depart_of_done {x : Exchange}
    (h : i.next (w.send s.world i.request i.number).1.2 = .done x) :
    (finish w t (fuel + 1) time (depart w s i)).1 =
        (.ok x, time + (w.send s.world i.request i.number).1.1) ∧
      (finish w t (fuel + 1) time (depart w s i)).2.world =
        (w.send s.world i.request i.number).2 := by
  simp only [depart, finish, resume, h, finish_landed, true_and]
  rfl

theorem finish_depart_of_ends {policy : RetryPolicy} {p : SuccessPattern} {request : Request}
    {outcomes : Nat → Attempt} {s₀ : σ} {first more : Nat} {course : Course}
    (h : course.Ends policy p request outcomes first more) (h1 : 1 ≤ first)
    (hs : s.world = w.afterSends s₀ request (first - 1))
    (ho : ∀ k, (w.answer s₀ request k).2 = outcomes k) (hf : 2 * more < fuel) :
    (finish w t fuel time (depart w s ⟨request, policy, p, .ofNat first⟩)).1 =
        (.ok course.exchange, time +
          ((List.range (more + 1)).map fun k => (w.answer s₀ request (first - 1 + k)).1).sum +
          (course.acts.map Act.rest).sum) ∧
      (finish w t fuel time (depart w s ⟨request, policy, p, .ofNat first⟩)).2.world =
        w.afterSends s₀ request (first + more) := by
  -- over the attempts that follow; each takes two of the fuel, for its pause and for itself
  induction more generalizing s first fuel time course with
  | zero =>
    have hm : first ≤ policy.maxAttempts.toNat := h.within
    have hd : Invocation.decision ⟨request, policy, p, .ofNat first⟩
        (outcomes (first - 1)).result ≠ .retry := by
      intro hd
      obtain ⟨hu, hn⟩ := (Invocation.decision_ofNat_eq_retry hm).1 hd
      exact absurd (h.settled hu) (by omega)
    have hsend : w.send s.world request (.ofNat first) = _ := hs ▸ w.send_afterSends s₀ request h1
    have hdone : Invocation.next ⟨request, policy, p, .ofNat first⟩
        (w.send s.world request (.ofNat first)).1.2 = .done course.exchange := by
      rw [hsend, ho, Invocation.next_of_stop hd, h.exchange]
      rfl
    obtain ⟨fuel, rfl⟩ : ∃ n, fuel = n + 1 := ⟨fuel - 1, by omega⟩
    obtain ⟨hr, hw⟩ := finish_depart_of_done hdone
    rw [hr, hw, h.acts, hsend]
    simp [actsFrom, Act.rest]
  | succ more ih =>
    have hn : first < policy.maxAttempts.toNat := by have := h.within; omega
    have hd : Invocation.decision ⟨request, policy, p, .ofNat first⟩
        (outcomes (first - 1)).result = .retry :=
      (Invocation.decision_ofNat_eq_retry (Nat.le_of_lt hn)).2 ⟨h.unsettled 0 (by omega), hn⟩
    have hsend : w.send s.world request (.ofNat first) = _ := hs ▸ w.send_afterSends s₀ request h1
    have hpause : Invocation.next ⟨request, policy, p, .ofNat first⟩
        (w.send s.world request (.ofNat first)).1.2 =
          .pause (policy.backoff.delay (.ofNat first) (outcomes (first - 1)).offset)
            ⟨request, policy, p, .ofNat (first + 1)⟩ := by
      rw [hsend, ho, Invocation.next_of_retry hd, UInt32.ofNat_add]
      rfl
    obtain ⟨fuel, rfl⟩ : ∃ n, fuel = n + 2 := ⟨fuel - 2, by omega⟩
    obtain ⟨s', hs', hfinish⟩ := finish_depart_of_pause hpause
    rw [hsend] at hs'
    obtain ⟨hr, hw⟩ := ih (h.tail h1) (by omega) hs' (by omega : 2 * more < fuel)
    rw [hfinish, hsend, hr, hw, h.acts]
    refine ⟨?_, by congr 1; omega⟩
    have hshift (k : Nat) : first - 1 + (k + 1) = first + 1 - 1 + k := by omega
    have hsum : ((List.range (more + 1 + 1)).map
        fun k => (w.answer s₀ request (first - 1 + k)).1).sum =
          (w.answer s₀ request (first - 1)).1 + ((List.range (more + 1)).map
            fun k => (w.answer s₀ request (first + 1 - 1 + k)).1).sum := by
      rw [List.sum_range_succ', Nat.add_zero]
      simp only [hshift]
    rw [hsum]
    simp only [actsFrom, List.map_cons, List.sum_cons, Act.rest, Prod.mk.injEq, true_and]
    omega

end Site

-- ---------------------------------------------------------------------------
-- Executions
-- ---------------------------------------------------------------------------

/-- A call with a good pattern, and with an id if it needs one, ends in exactly one exchange. -/
theorem Invoker.execute_ends_in_exchange [Pattern.Room] (invoker : Invoker) (c : Classifier)
    (policy : RetryPolicy) (request : Request) (outcomes : Nat → Attempt) {p : SuccessPattern}
    (hp : SuccessPattern.compile (policy.override request.retry).successPattern = .ok p)
    (hid : invoker.requireCorrelationId = true → request.correlationId.isSome = true) :
    ∃ course n, (invoker.execute c policy request outcomes).1 = .ok course ∧
      course.sends = n ∧ course.exchange.attempts.toNat = n ∧
      1 ≤ n ∧ n ≤ min ((request.retry.retries.getD policy.retries).toNat + 1) (UInt32.size - 1) ∧
      (∀ k, k + 1 < n → p.Unsettled (outcomes k).result) ∧
      (p.Unsettled (outcomes (n - 1)).result →
        n = min ((request.retry.retries.getD policy.retries).toNat + 1) (UInt32.size - 1)) ∧
      course.acts = actsFrom (policy.override request.retry) request outcomes 1 (n - 1) ∧
      course.exchange.request = request ∧
      (∀ r, (outcomes (n - 1)).result = .ok r → course.exchange.response = r) ∧
      (∀ e, (outcomes (n - 1)).result = .error e →
        course.exchange.response = ⟨500, e.message, "", .empty⟩) ∧
      (course.exchange.success = true ↔ p.Succeeds (outcomes (n - 1)).result) ∧
      course.exchange.moment = (outcomes (n - 1)).moment ∧
      course.exchange.duration = (outcomes (n - 1)).elapsed ∧
      ∀ {σ : Type} (w : World σ) (t : Delivery) (s : Site σ),
        (∀ k, (w.answer s.world request k).2 = outcomes k) →
        ∃ i, Invocation.start invoker policy request = .ok i ∧
          (Site.finish w t Site.patience 0 (Site.depart w s i)).1 =
            (.ok course.exchange,
              ((List.range n).map fun k => (w.answer s.world request k).1).sum +
                (course.acts.map Act.rest).sum) ∧
          (Site.finish w t Site.patience 0 (Site.depart w s i)).2.world =
            w.afterSends s.world request n := by
  have hmost : (policy.override request.retry).maxAttempts.toNat =
      min ((request.retry.retries.getD policy.retries).toNat + 1) (UInt32.size - 1) :=
    RetryPolicy.toNat_maxAttempts _
  obtain ⟨more, course, hcourse, hends⟩ : ∃ more course,
      (invoker.execute c policy request outcomes).1 = .ok course ∧
        course.Ends (policy.override request.retry) p request outcomes 1 more :=
    execute_ends c hp hid
  have hwithin := hends.within
  have hsettled := hends.settled
  have hunsettled := hends.unsettled
  have hx := hends.exchange
  simp only [Nat.sub_self, Nat.zero_add] at hsettled hunsettled
  rw [Nat.add_comm 1 more] at hx hwithin hsettled
  refine ⟨course, more + 1, hcourse, hends.sends, ?_, by omega, by omega,
    fun k hk => hunsettled k (by omega), fun hu => (hsettled hu).trans hmost, hends.acts,
    by rw [hx]; rfl, ?_, ?_, ?_, by rw [hx]; rfl, by rw [hx]; rfl, ?_⟩
  · rw [hx, attempts_lastExchange (by omega) (by omega)]
  · intro r hr
    simp only [Nat.add_sub_cancel] at hr
    simp [hx, lastExchange, Exchange.of, hr, Invocation.responseOf]
  · intro e he
    simp only [Nat.add_sub_cancel] at he
    simp [hx, lastExchange, Exchange.of, he, Invocation.responseOf, Response.failure]
  · rw [hx]
    exact decide_eq_true_iff
  · intro σ w t s ho
    refine ⟨_, Invocation.start_eq_ok hp hid, ?_⟩
    have hfuel : 2 * more < Site.patience := by
      simp only [Site.patience]
      omega
    obtain ⟨hr, hw⟩ := @Site.finish_depart_of_ends σ w t s Site.patience 0 _ p request outcomes
      s.world 1 more course hends (Nat.le_refl 1) rfl ho hfuel
    rw [Nat.add_comm 1 more] at hw
    refine ⟨hr.trans ?_, hw⟩
    simp only [Nat.sub_self, Nat.zero_add]

open scoped Pattern.Room in
/-- With one repetition allowed, a call that never gets a response is sent twice and fails. -/
theorem Invoker.execute_without_response :
    let invoker : Invoker := ⟨.standard, true⟩
    let request : Request :=
      { requestId := none, correlationId := some "c-1", url := "http://service.local/",
        method := .post, headers := .empty, timeout := none, retry := { retries := some 1 },
        body := .text "", addressed := by decide }
    let moment : Moment :=
      ⟨⟨2024, 2, 29, by decide, by decide, by decide⟩, 23, 59, 59, 1000000000, by decide, by decide,
        by decide, by decide⟩
    let outcomes : Nat → Attempt := fun _ => ⟨.error (.timeout "slow"), moment, 30000, 7⟩
    ∃ course, (invoker.execute {} invoker.policy request outcomes).1 = .ok course ∧
      course.sends = 2 ∧ course.exchange.success = false ∧
      course.exchange.response.message = "Request timed out: slow" := by
  intro invoker request moment outcomes
  have hok : (SuccessPattern.compile defaultPattern).isOk = true := by decide
  obtain ⟨p, hp⟩ : ∃ p, SuccessPattern.compile defaultPattern = .ok p := by
    cases h : SuccessPattern.compile defaultPattern with
    | ok p => exact ⟨p, rfl⟩
    | error e => rw [h] at hok; cases hok
  obtain ⟨course, n, hc, hn, -, h1, hle, -, hlast, -, -, -, hresponse, hsuccess, -⟩ :=
    Invoker.execute_ends_in_exchange invoker {} invoker.policy request outcomes hp (fun _ => rfl)
  have hmost : n = 2 := hlast rfl
  refine ⟨course, hc, hn.trans hmost, ?_, ?_⟩
  · cases hs : course.exchange.success with
    | false => rfl
    | true => exact (hsuccess.1 hs).elim
  · rw [hresponse (.timeout "slow") rfl]
    decide

end Courier
