import Mathlib.Data.Finset.Card
import Mathlib.Data.Finset.Dedup
import Courier.Proofs.OrderedMap
import Courier.Proofs.Retry.Classifier

/-!
# Questions to a classifier

A classifier that keeps patterns answers every question as one that was never asked before. What it
keeps can be told from the questions: the effective texts that were asked for and compile, each of
them once.
-/

namespace Courier.Classifier

-- ---------------------------------------------------------------------------
-- Questions
-- ---------------------------------------------------------------------------

inductive Question where
  | pattern (text : String)
  | classify (text : String) (o : Outcome)
  | decide (policy : RetryPolicy) (attempt : UInt32) (o : Outcome)

inductive Answer where
  | pattern (found : Except Rejection SuccessPattern)
  | decision (d : Except Rejection Decision)

def Answer.refusal? : Answer → Option Rejection
  | .pattern (.error e) => some e
  | .decision (.error e) => some e
  | _ => none

section

variable [Pattern.Room]

def ask (c : Classifier) : Question → Answer × Classifier
  | .pattern text =>
    let (found, c) := c.pattern text
    (.pattern found, c)
  | .classify text o =>
    let (d, c) := c.classify text o
    (.decision d, c)
  | .decide policy attempt o =>
    let (d, c) := c.decide policy attempt o
    (.decision d, c)

def askAll (c : Classifier) : List Question → List Answer × Classifier
  | [] => ([], c)
  | q :: qs =>
    let (answer, c) := c.ask q
    let (answers, c) := c.askAll qs
    (answer :: answers, c)

def classifyAnew (text : String) : Outcome → Except Rejection Decision
  | .noResponse => .ok .retry
  | .status code => (SuccessPattern.compile text).map (·.classify (.status code))

namespace Question

/-- The text of the pattern that has to be known. Without a response there is none. -/
def text? : Question → Option String
  | .pattern text => some text
  | .classify text (.status _) => some text
  | .decide policy _ (.status _) => some policy.successPattern
  | .classify _ .noResponse => none
  | .decide _ _ .noResponse => none

def compiled? (q : Question) : Option String :=
  (q.text?.filter fun text => (SuccessPattern.compile text).isOk).map SuccessPattern.effective

def answer : Question → Answer
  | .pattern text => .pattern (SuccessPattern.compile text)
  | .classify text o => .decision (classifyAnew text o)
  | .decide policy attempt o =>
    .decision ((classifyAnew policy.successPattern o).map (·.limit attempt policy.maxAttempts))

end Question

/-- The effective texts that questions made somebody compile. -/
def compiledBy (qs : List Question) : Finset String :=
  (qs.filterMap Question.compiled?).toFinset

variable {c : Classifier} {q : Question} {text key : String} {e : Rejection}

-- ---------------------------------------------------------------------------
-- One question
-- ---------------------------------------------------------------------------

theorem classify_fst_anew (c : Classifier) (text : String) (o : Outcome) :
    (c.classify text o).1 = classifyAnew text o := by
  cases o with
  | noResponse => rfl
  | status code =>
    have hc : (c.classify text (.status code)).1 =
        (c.pattern text).1.map (·.classify (.status code)) := rfl
    rw [hc, pattern_fst]
    rfl

theorem ask_fst (c : Classifier) (q : Question) : (c.ask q).1 = q.answer := by
  cases q with
  | pattern text => exact congrArg Answer.pattern (c.pattern_fst text)
  | classify text o => exact congrArg Answer.decision (c.classify_fst_anew text o)
  | decide policy attempt o =>
    have hc : (c.decide policy attempt o).1 =
        (c.classify policy.successPattern o).1.map (·.limit attempt policy.maxAttempts) := rfl
    rw [classify_fst_anew] at hc
    exact congrArg Answer.decision hc

theorem ask_snd (c : Classifier) (q : Question) :
    (c.ask q).2 = (q.text?.map fun text => (c.pattern text).2).getD c := by
  cases q with
  | pattern text => rfl
  | classify text o => cases o <;> rfl
  | decide policy attempt o => cases o <;> rfl

theorem refusal?_answer (hq : q.text? = some text) (h : SuccessPattern.compile text = .error e) :
    q.answer.refusal? = some e := by
  have hclassify (code : UInt16) : classifyAnew text (.status code) = .error e := by
    rw [classifyAnew, h]
    rfl
  cases q with
  | pattern text =>
    cases hq
    rw [Question.answer, h]
    rfl
  | classify text o =>
    cases o with
    | noResponse => cases hq
    | status code =>
      cases hq
      rw [Question.answer, hclassify]
      rfl
  | decide policy attempt o =>
    cases o with
    | noResponse => cases hq
    | status code =>
      cases hq
      rw [Question.answer, hclassify]
      rfl

-- ---------------------------------------------------------------------------
-- What is kept
-- ---------------------------------------------------------------------------

theorem mem_keys_iff : key ∈ c.compiled.keys ↔ ∃ p, c.compiled.get? key = some p := by
  simp only [OrderedMap.get?_eq_some_iff, OrderedMap.keys, List.mem_map, Prod.exists,
    exists_and_right, exists_eq_right]

theorem pattern_snd_of_error (h : SuccessPattern.compile text = .error e) :
    (c.pattern text).2 = c := by
  unfold pattern
  split
  · rfl
  · split
    · next hok =>
      rw [h] at hok
      cases hok
    · rfl

theorem mem_keys_pattern_of_ok {p : SuccessPattern} (h : SuccessPattern.compile text = .ok p) :
    key ∈ (c.pattern text).2.compiled.keys ↔
      key ∈ c.compiled.keys ∨ key = SuccessPattern.effective text := by
  have hold (hmem : SuccessPattern.effective text ∈ c.compiled.keys) :
      key ∈ c.compiled.keys ↔ key ∈ c.compiled.keys ∨ key = SuccessPattern.effective text := by
    constructor
    · exact .inl
    · rintro (hkey | rfl)
      · exact hkey
      · exact hmem
  unfold pattern
  split
  · next p hp => exact hold (mem_keys_iff.2 ⟨p, hp⟩)
  · split
    · next q hq =>
      simp only [OrderedMap.insert, OrderedMap.keys_alter, SuccessPattern.text_of_compile hq]
      split
      · next hmem => exact hold hmem
      · simp
    · next hq =>
      rw [h] at hq
      cases hq

theorem mem_keys_ask :
    key ∈ (c.ask q).2.compiled.keys ↔ key ∈ c.compiled.keys ∨ q.compiled? = some key := by
  rw [ask_snd, Question.compiled?]
  cases q.text? with
  | none => simp
  | some text =>
    cases h : SuccessPattern.compile text with
    | error e =>
      rw [Option.filter_some_neg (by simp [h, Except.isOk, Except.toBool])]
      simp [pattern_snd_of_error h]
    | ok p =>
      rw [Option.filter_some_pos (by simp [h, Except.isOk, Except.toBool])]
      simp [mem_keys_pattern_of_ok h, eq_comm]

-- ---------------------------------------------------------------------------
-- All questions
-- ---------------------------------------------------------------------------

theorem askAll_fst (c : Classifier) (qs : List Question) :
    (c.askAll qs).1 = qs.map Question.answer := by
  induction qs generalizing c with
  | nil => rfl
  | cons q qs ih =>
    have hcons : (c.askAll (q :: qs)).1 = (c.ask q).1 :: ((c.ask q).2.askAll qs).1 := rfl
    rw [hcons, ih, ask_fst, List.map_cons]

theorem mem_keys_askAll (c : Classifier) (qs : List Question) :
    key ∈ (c.askAll qs).2.compiled.keys ↔ key ∈ c.compiled.keys ∨ key ∈ compiledBy qs := by
  induction qs generalizing c with
  | nil => simp [askAll, compiledBy]
  | cons q qs ih =>
    have hcons : (c.askAll (q :: qs)).2 = ((c.ask q).2.askAll qs).2 := rfl
    simp only [hcons, ih, mem_keys_ask, or_assoc, compiledBy, List.mem_toFinset,
      List.mem_filterMap, List.mem_cons, exists_eq_or_imp]

theorem size_eq_card (c : Classifier) : c.size = c.compiled.keys.toFinset.card := by
  have hnodup : c.compiled.keys.Nodup := c.compiled.nodup
  rw [List.toFinset_card_of_nodup hnodup, OrderedMap.keys, List.length_map]
  rfl

/-- Whatever a new classifier is asked, it answers every time as a new one would. A pattern that
does not compile is never kept and refused whenever it has to be known, nothing changes where there
is no response, and the size is the number of effective patterns compiled so far. -/
theorem answers_as_new (qs : List Question) :
    let new : Classifier := {}
    let c := (new.askAll qs).2
    (new.askAll qs).1 = qs.map (fun q => (new.ask q).1) ∧
    (∀ text e, (new.pattern text).1 = .error e →
      c.compiled.get? (SuccessPattern.effective text) = none ∧
      ∀ q, q.text? = some text → (c.ask q).1.refusal? = some e ∧ (c.ask q).2 = c) ∧
    (∀ text, (c.ask (.classify text .noResponse)).2 = c) ∧
    (∀ policy attempt, (c.ask (.decide policy attempt .noResponse)).2 = c) ∧
    c.size = (compiledBy qs).card := by
  intro new c
  refine ⟨?_, fun text e he => ?_, fun _ => rfl, fun _ _ => rfl, ?_⟩
  · simp only [askAll_fst, ask_fst]
  · rw [pattern_fst] at he
    refine ⟨?_, fun q hq => ⟨?_, ?_⟩⟩
    · rw [Option.eq_none_iff_forall_ne_some]
      intro p hp
      have hok := c.faithful _ p hp
      rw [SuccessPattern.compile_effective, he] at hok
      cases hok
    · rw [ask_fst, refusal?_answer hq he]
    · rw [ask_snd, hq, Option.map_some, Option.getD_some, pattern_snd_of_error he]
  · rw [size_eq_card]
    congr 1
    ext key
    rw [List.mem_toFinset, mem_keys_askAll]
    simp [new, OrderedMap.empty, OrderedMap.keys]

end

open scoped Pattern.Room in
example : ((({} : Classifier).pattern "2..").2.pattern " ").2.size = 2 ∧
    ((({} : Classifier).pattern "2..").2.pattern "(").2.size = 1 :=
  ⟨rfl, rfl⟩

end Courier.Classifier
