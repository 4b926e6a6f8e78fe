import Courier.Retry.Execution

/-!
# What the classifier answers

Whatever it has kept, a classifier answers as if it compiled the pattern anew. Once a pattern
compiles, no later question about it is refused.
-/

namespace Courier

variable {p : SuccessPattern} {policy : RetryPolicy}

-- ---------------------------------------------------------------------------
-- Kept patterns
-- ---------------------------------------------------------------------------

namespace Classifier

variable [Pattern.Room]

theorem pattern_fst (c : Classifier) (text : String) :
    (c.pattern text).1 = SuccessPattern.compile text := by
  unfold pattern
  split
  · next p hp =>
    rw [← SuccessPattern.compile_effective, c.faithful _ _ hp]
  · split
    · next h => exact h.symm
    · next h => exact h.symm

theorem classify_fst (c : Classifier) (h : SuccessPattern.compile text = .ok p) (o : Outcome) :
    (c.classify text o).1 = .ok (p.classify o) := by
  cases o with
  | noResponse => rfl
  | status code =>
    have hc : (c.classify text (.status code)).1 =
        (c.pattern text).1.map (·.classify (.status code)) := rfl
    rw [hc, pattern_fst, h]
    rfl

theorem decide_fst (c : Classifier) (h : SuccessPattern.compile policy.successPattern = .ok p)
    (number : UInt32) (o : Outcome) :
    (c.decide policy number o).1 = .ok ((p.classify o).limit number policy.maxAttempts) := by
  have hc : (c.decide policy number o).1 =
      (c.classify policy.successPattern o).1.map (·.limit number policy.maxAttempts) := rfl
  rw [hc, c.classify_fst h]
  rfl

theorem judge_fst (c : Classifier) (h : SuccessPattern.compile policy.successPattern = .ok p)
    (request : Request) (number : UInt32) (result : Except TransportError Response) :
    (c.judge policy number result).1 =
      .ok (Invocation.decision ⟨request, policy, p, number⟩ result) := by
  cases result with
  | ok response => exact c.decide_fst h number _
  | error e =>
    unfold judge Invocation.decision
    simp only
    split
    · exact c.decide_fst h number _
    · rfl

end Classifier

-- ---------------------------------------------------------------------------
-- Decisions
-- ---------------------------------------------------------------------------

namespace SuccessPattern

/-- Worth another attempt: a server error that is no success, or an error that may pass. -/
def Unsettled (p : SuccessPattern) : Except TransportError Response → Prop
  | .ok response => p.accepts response.status = false ∧ 500 ≤ response.status
  | .error e => e.isRetryable = true

def Succeeds (p : SuccessPattern) : Except TransportError Response → Prop
  | .ok response => p.accepts response.status = true
  | .error _ => False

instance (p : SuccessPattern) (result : Except TransportError Response) :
    Decidable (p.Unsettled result) := by
  cases result <;> unfold Unsettled <;> infer_instance

instance (p : SuccessPattern) (result : Except TransportError Response) :
    Decidable (p.Succeeds result) := by
  cases result <;> unfold Succeeds <;> infer_instance

theorem classify_status_eq_retry {code : UInt16} :
    p.classify (.status code) = .retry ↔ p.accepts code = false ∧ 500 ≤ code := by
  unfold classify
  cases ha : p.accepts code with
  | false => by_cases h : 500 ≤ code <;> simp [ha, h]
  | true => simp [ha]

theorem classify_status_eq_success {code : UInt16} :
    p.classify (.status code) = .success ↔ p.accepts code = true := by
  unfold classify
  cases ha : p.accepts code with
  | false => by_cases h : 500 ≤ code <;> simp [ha, h]
  | true => simp [ha]

end SuccessPattern

namespace Invocation

theorem decision_eq_retry {i : Invocation} {result : Except TransportError Response} :
    i.decision result = .retry ↔
      i.pattern.Unsettled result ∧ i.number < i.policy.maxAttempts := by
  cases result with
  | ok response =>
    simp only [decision, Decision.limit_eq_retry, SuccessPattern.classify_status_eq_retry,
      SuccessPattern.Unsettled]
  | error e =>
    simp only [decision, SuccessPattern.Unsettled]
    split
    · next h => simp [Decision.limit_eq_retry, SuccessPattern.classify, h]
    · next h => simp [h]

theorem decision_ofNat_eq_retry {request : Request} {n : Nat}
    {result : Except TransportError Response} (hn : n ≤ policy.maxAttempts.toNat) :
    decision ⟨request, policy, p, .ofNat n⟩ result = .retry ↔
      p.Unsettled result ∧ n < policy.maxAttempts.toNat := by
  have hlt : n < UInt32.size := Nat.lt_of_le_of_lt hn policy.maxAttempts.toNat_lt
  rw [decision_eq_retry, UInt32.lt_iff_toNat_lt, UInt32.toNat_ofNat_of_lt' hlt]

theorem decision_eq_success {i : Invocation} {result : Except TransportError Response} :
    i.decision result = .success ↔ i.pattern.Succeeds result := by
  cases result with
  | ok response =>
    simp only [decision, Decision.limit_eq_success, SuccessPattern.classify_status_eq_success,
      SuccessPattern.Succeeds]
  | error e =>
    simp only [decision, SuccessPattern.Succeeds]
    split <;> simp [Decision.limit_eq_success, SuccessPattern.classify]

end Invocation

end Courier
