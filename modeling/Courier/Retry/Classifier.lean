import Courier.Pattern.Meaning
import Courier.Retry.Policy

/-!
# Classifying attempts

An attempt ends a call with success or failure, or is worth another one. Success is a status
whose whole decimal text matches the success pattern. Compiled patterns can be kept for later
use; that changes no answer.
-/

namespace Courier

inductive Outcome where
  | status (code : UInt16)
  | noResponse
deriving Repr, DecidableEq

inductive Decision where
  | success
  | failure
  | retry
deriving Repr, DecidableEq

structure SuccessPattern where
  text : String
  regex : Pattern.Regex

namespace SuccessPattern

/-- A blank text stands for the default pattern. -/
def effective (text : String) : String :=
  if Text.allBlank text then defaultPattern else text

def source (p : SuccessPattern) : String :=
  Pattern.anchored p.text

def compile [Pattern.Room] (text : String) : Except Rejection SuccessPattern :=
  let text := effective text
  match Pattern.compile (Pattern.anchored text) with
  | .ok regex => .ok ⟨text, regex⟩
  | .error e => .error (.invalidPattern text e.message)

theorem allBlank_effective (text : String) : Text.allBlank (effective text) = false := by
  unfold effective
  split
  · decide
  · next h => simpa using h

@[simp] theorem effective_effective (text : String) :
    effective (effective text) = effective text := by
  rw [effective, if_neg]
  simp [allBlank_effective]

theorem compile_effective [Pattern.Room] (text : String) :
    compile (effective text) = compile text := by
  simp [compile]

theorem text_of_compile [Pattern.Room] {text : String} {p : SuccessPattern}
    (h : compile text = .ok p) : p.text = effective text := by
  simp only [compile] at h
  split at h
  · cases h; rfl
  · cases h

def accepts (p : SuccessPattern) (code : UInt16) : Bool :=
  p.regex.occurs (Decimal.digits code.toNat)

def classify (p : SuccessPattern) : Outcome → Decision
  | .noResponse => .retry
  | .status code =>
    if p.accepts code then .success
    else if 500 ≤ code then .retry
    else .failure

end SuccessPattern

/-- The last attempt allowed is not repeated. -/
def Decision.limit (d : Decision) (attempt most : UInt32) : Decision :=
  if d = .retry ∧ most ≤ attempt then .failure else d

theorem Decision.limit_eq_retry {d : Decision} {attempt most : UInt32} :
    d.limit attempt most = .retry ↔ d = .retry ∧ attempt < most := by
  unfold limit
  split
  · next h => simp [UInt32.not_lt.2 h.2]
  · next h =>
    simp only [not_and, UInt32.not_le] at h
    exact ⟨fun hd => ⟨hd, h hd⟩, And.left⟩

theorem Decision.limit_eq_success {d : Decision} {attempt most : UInt32} :
    d.limit attempt most = .success ↔ d = .success := by
  unfold limit
  split
  · next h => simp [h.1]
  · rfl

/-- The patterns compiled so far, by their effective text. What is kept is what compiling anew
would give. -/
structure Classifier [Pattern.Room] where
  compiled : OrderedMap SuccessPattern := .empty
  faithful : ∀ text p, compiled.get? text = some p → SuccessPattern.compile text = .ok p := by
    intro text p h
    cases h

namespace Classifier

variable [Pattern.Room]

def size (c : Classifier) : Nat :=
  c.compiled.entries.length

/-- Looks a pattern up, or compiles and keeps it. Failures are not kept. -/
def pattern (c : Classifier) (text : String) : Except Rejection SuccessPattern × Classifier :=
  match c.compiled.get? (SuccessPattern.effective text) with
  | some p => (.ok p, c)
  | none =>
    match h : SuccessPattern.compile text with
    | .ok p =>
      (.ok p, ⟨c.compiled.insert p.text p, fun key q hq => by
        rw [OrderedMap.get?_insert] at hq
        split at hq
        · next hk =>
          cases hq
          rw [hk, SuccessPattern.text_of_compile h, SuccessPattern.compile_effective, h]
        · exact c.faithful key q hq⟩)
    | .error e => (.error e, c)

def classify (c : Classifier) (text : String) (o : Outcome) :
    Except Rejection Decision × Classifier :=
  match o with
  | .noResponse => (.ok .retry, c)
  | .status code =>
    let (found, c) := c.pattern text
    (found.map (·.classify (.status code)), c)

def decide (c : Classifier) (policy : RetryPolicy) (attempt : UInt32) (o : Outcome) :
    Except Rejection Decision × Classifier :=
  let (decision, c) := c.classify policy.successPattern o
  (decision.map (·.limit attempt policy.maxAttempts), c)

theorem lt_of_decide_retry {c c' : Classifier} {policy : RetryPolicy} {attempt : UInt32}
    {o : Outcome} (h : c.decide policy attempt o = (.ok .retry, c')) :
    attempt < policy.maxAttempts := by
  simp only [decide, Prod.mk.injEq] at h
  cases hd : (c.classify policy.successPattern o).1 with
  | error e => simp [hd, Except.map] at h
  | ok d =>
    simp only [hd, Except.map, Except.ok.injEq, Decision.limit_eq_retry] at h
    exact h.1.2

end Classifier

end Courier
