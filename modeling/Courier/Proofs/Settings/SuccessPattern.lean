import Courier.Proofs.Pattern.Anchoring
import Courier.Proofs.Retry.Execution
import Courier.Settings.Validation

/-!
# Success patterns, checked and used

The check of the settings compiles a success pattern as it stands, calls compile it between
anchors. What the check lets through is usable exactly if it stays a pattern there.
-/

namespace Courier

open Pattern

/-- The success pattern, or the default that stands in for a blank one, is one between anchors
too. -/
def RetrySettings.PatternStands [Room] (s : RetrySettings) : Prop :=
  Anchorable (SuccessPattern.effective s.successPattern)

/-- Nothing comes of a call because of its success pattern. -/
def RefusesPattern (answer : Except Rejection α) : Prop :=
  ∃ text reason, answer = .error (.invalidPattern text reason)

variable {text : String} {s : Settings} {p : SuccessPattern} {invoker : Invoker}
  {policy : RetryPolicy} {request : Request}

theorem not_refusesPattern_ok (a : α) : ¬ RefusesPattern (.ok a) := by
  rintro ⟨_, _, h⟩
  cases h

theorem not_refusesPattern_missing (field : String) :
    ¬ RefusesPattern (.error (.missing field) : Except Rejection α) := by
  rintro ⟨_, _, h⟩
  cases h

theorem Invoker.missing_of_not
    (hid : ¬ (invoker.requireCorrelationId = true → request.correlationId.isSome = true)) :
    (invoker.requireCorrelationId && request.correlationId.isNone) = true := by
  rw [Classical.not_imp] at hid
  obtain ⟨hrequired, hnone⟩ := hid
  rw [hrequired, Option.not_isSome_iff_eq_none.1 hnone]
  rfl

section

variable [Room]

-- ---------------------------------------------------------------------------
-- What is checked and what is compiled
-- ---------------------------------------------------------------------------

theorem Settings.compile_of_validate (h : s.validate = .ok ()) :
    ∃ r, Pattern.compile s.retry.successPattern = .ok r := by
  have hflaw := (flaw?_eq_none_iff.1 (validate_eq_ok_iff.1 h)).1
  simp only [RetrySettings.flaw?] at hflaw
  split at hflaw
  · cases hflaw
  · split at hflaw
    · next r hr => exact ⟨r, hr⟩
    · cases hflaw

theorem SuccessPattern.compile_ok_or_refuses (text : String) :
    (∃ p, compile text = .ok p) ∨ RefusesPattern (compile text) := by
  simp only [compile]
  split
  · exact .inl ⟨_, rfl⟩
  · exact .inr ⟨_, _, rfl⟩

theorem SuccessPattern.compile_iff (text : String) :
    (∃ p, compile text = .ok p) ↔
      ∃ r, Pattern.compile (anchored (effective text)) = .ok r := by
  cases h : Pattern.compile (anchored (effective text)) with
  | ok r =>
    simp only [compile, h]
    exact ⟨fun _ => ⟨r, rfl⟩, fun _ => ⟨_, rfl⟩⟩
  | error e =>
    simp only [compile, h]
    constructor
    · rintro ⟨_, h⟩
      cases h
    · rintro ⟨_, h⟩
      cases h

theorem RetrySettings.compile_iff {s : RetrySettings}
    (h : Pattern.compile s.successPattern = .ok r) :
    (∃ p, SuccessPattern.compile s.successPattern = .ok p) ↔ s.PatternStands := by
  -- The default has a meaning; whether there is room for it is not known.
  obtain ⟨t, r', after, hread, hmeaning⟩ : ∃ t r after,
      read (SuccessPattern.effective s.successPattern) = .ok t ∧
        t.meaning {} = .ok (r, after) := by
    cases hblank : Text.allBlank s.successPattern with
    | true =>
      rw [SuccessPattern.effective, if_pos hblank]
      exact ⟨_, _, _, rfl, rfl⟩
    | false =>
      obtain ⟨t, after, hread, hmeaning, -⟩ := compile_ok.1 h
      rw [SuccessPattern.effective, if_neg (by simp [hblank])]
      exact ⟨t, r, after, hread, hmeaning⟩
  rw [SuccessPattern.compile_iff, PatternStands, compile_anchored_iff hread hmeaning]

-- ---------------------------------------------------------------------------
-- Refused calls
-- ---------------------------------------------------------------------------

theorem refusesPattern_iff {answer : Except Rejection α} {complete : Prop}
    (hmissing : ¬ complete → ∃ field, answer = .error (.missing field))
    (hrefused : complete → ∀ e, SuccessPattern.compile text = .error e → answer = .error e)
    (hcompiled : complete → ∀ p, SuccessPattern.compile text = .ok p → ∃ a, answer = .ok a) :
    RefusesPattern answer ↔ (¬ ∃ p, SuccessPattern.compile text = .ok p) ∧ complete := by
  by_cases hc : complete
  · rcases SuccessPattern.compile_ok_or_refuses text with ⟨p, hp⟩ | ⟨pattern, reason, he⟩
    · obtain ⟨a, rfl⟩ := hcompiled hc p hp
      exact ⟨fun h => absurd h (not_refusesPattern_ok a), fun h => absurd ⟨p, hp⟩ h.1⟩
    · refine ⟨fun _ => ⟨?_, hc⟩, fun _ => ⟨pattern, reason, hrefused hc _ he⟩⟩
      rintro ⟨p, hp⟩
      rw [he] at hp
      cases hp
  · obtain ⟨field, rfl⟩ := hmissing hc
    exact ⟨fun h => absurd h (not_refusesPattern_missing field), fun h => absurd h.2 hc⟩

theorem Invoker.execute_refusesPattern_iff (c : Classifier) (outcomes : Nat → Attempt) :
    RefusesPattern (invoker.execute c policy request outcomes).1 ↔
      (¬ ∃ p, SuccessPattern.compile policy.successPattern = .ok p) ∧
        (invoker.requireCorrelationId = true → request.correlationId.isSome = true) := by
  refine refusesPattern_iff (fun hid => ?_) (fun hid e he => ?_) (fun hid p hp => ?_)
  · simp only [execute, missing_of_not hid, if_true]
    exact ⟨_, rfl⟩
  · obtain ⟨c', hc'⟩ : ∃ c', c.pattern (policy.override request.retry).successPattern =
        (.error e, c') := ⟨_, Prod.ext_iff.2 ⟨(c.pattern_fst _).trans he, rfl⟩⟩
    simp only [execute, not_missing hid, hc', Bool.false_eq_true, if_false]
  · obtain ⟨_, course, hcourse, -⟩ := @execute_ends policy p request outcomes invoker _ c hp hid
    exact ⟨course, hcourse⟩

theorem Invocation.start_refusesPattern_iff :
    RefusesPattern (start invoker policy request) ↔
      (¬ ∃ p, SuccessPattern.compile policy.successPattern = .ok p) ∧
        (invoker.requireCorrelationId = true → request.correlationId.isSome = true) := by
  refine refusesPattern_iff (fun hid => ?_) (fun hid e he => ?_) (fun hid p hp => ?_)
  · simp only [start, Invoker.missing_of_not hid, if_true]
    exact ⟨_, rfl⟩
  · have hoverride : SuccessPattern.compile (policy.override request.retry).successPattern =
        .error e := he
    simp only [start, Invoker.not_missing hid, hoverride]
    rfl
  · exact ⟨_, start_eq_ok hp hid⟩

-- ---------------------------------------------------------------------------
-- Checked settings
-- ---------------------------------------------------------------------------

/-- Of checked settings, the classifier compiles the success pattern and no call under their
policy is refused for it, exactly if the pattern stands. -/
theorem Settings.pattern_agrees_iff (s : Settings) (h : s.validate = .ok ()) :
    (∀ c : Classifier, (∃ p, (c.pattern s.retry.successPattern).1 = .ok p) ↔
      s.retry.PatternStands) ∧
    ∀ invoker : Invoker, invoker.policy = .ofSettings s.retry → ∀ request,
      (∀ c outcomes, RefusesPattern (invoker.execute c invoker.policy request outcomes).1 ↔
        ¬ s.retry.PatternStands ∧
          (invoker.requireCorrelationId = true → request.correlationId.isSome = true)) ∧
      (RefusesPattern (Invocation.start invoker invoker.policy request) ↔
        ¬ s.retry.PatternStands ∧
          (invoker.requireCorrelationId = true → request.correlationId.isSome = true)) := by
  obtain ⟨r, hr⟩ := compile_of_validate h
  have hstands := RetrySettings.compile_iff hr
  refine ⟨fun c => by rw [c.pattern_fst, hstands], fun invoker hpolicy request => ⟨?_, ?_⟩⟩
  · intro c outcomes
    rw [Invoker.execute_refusesPattern_iff, hpolicy, ← hstands]
    rfl
  · rw [Invocation.start_refusesPattern_iff, hpolicy, ← hstands]
    rfl

end

open scoped Room in
theorem Settings.default_pattern_agrees :
    ({} : Settings).validate = .ok () ∧ ({} : RetrySettings).PatternStands :=
  ⟨rfl, ((pattern_agrees_iff {} rfl).1 {}).1 ⟨_, rfl⟩⟩

open scoped Room in
/-- A comment at the end of a pattern passes the check, but it takes the closing anchor along, and
every call is refused. -/
theorem Settings.comment_hides_anchor :
    let s : Settings := { retry := { successPattern := "(?x)2..#" } }
    s.validate = .ok () ∧
      (∀ c : Classifier, RefusesPattern (c.pattern s.retry.successPattern).1) ∧
      ∀ (c : Classifier) (request : Request) (outcomes : Nat → Attempt),
        RefusesPattern
          (Invoker.execute ⟨.ofSettings s.retry, false⟩ c (.ofSettings s.retry) request
            outcomes).1 := by
  have hcompile : SuccessPattern.compile "(?x)2..#" =
      .error (.invalidPattern "(?x)2..#" "unclosed group") := rfl
  refine ⟨rfl, fun c => ?_, fun c request outcomes => ?_⟩
  · rw [c.pattern_fst]
    exact ⟨_, _, hcompile⟩
  · refine (Invoker.execute_refusesPattern_iff c outcomes).2 ⟨?_, nofun⟩
    rintro ⟨p, hp⟩
    exact nomatch hcompile.symm.trans hp

end Courier
