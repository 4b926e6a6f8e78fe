import Courier.Http.Exchange
import Courier.Proofs.OrderedMap

/-!
# Equal requests and equal exchanges

Requests, responses and exchanges are equal if their parts are, where headers only need the same
entries in any order and a factor that is no number equals nothing.
-/

namespace Courier

theorem Request.beq_iff {a b : Request} :
    (a == b) = true ↔ a.requestId = b.requestId ∧ a.correlationId = b.correlationId ∧
      a.url = b.url ∧ a.method = b.method ∧ a.headers.entries.Perm b.headers.entries ∧
      a.timeout = b.timeout ∧ (a.retry == b.retry) = true ∧ a.body = b.body := by
  change (_ && _) = true ↔ _
  simp only [Bool.and_eq_true, beq_iff_eq, OrderedMap.beq_iff_perm, and_assoc]

theorem Response.beq_iff {a b : Response} :
    (a == b) = true ↔ a.status = b.status ∧ a.message = b.message ∧ a.body = b.body ∧
      a.headers.entries.Perm b.headers.entries := by
  obtain ⟨⟩ := a
  obtain ⟨⟩ := b
  change instBEqResponse.beq _ _ = true ↔ _
  simp only [instBEqResponse.beq, Bool.and_eq_true, beq_iff_eq, OrderedMap.beq_iff_perm]

theorem Exchange.beq_iff {x y : Exchange} :
    (x == y) = true ↔ (x.request == y.request) = true ∧ (x.response == y.response) = true ∧
      x.duration = y.duration ∧ x.moment = y.moment ∧ x.attempts = y.attempts ∧
      x.success = y.success := by
  change (_ && _) = true ↔ _
  simp only [Bool.and_eq_true, beq_iff_eq, and_assoc]

end Courier
