import Courier.Delivery.Task
import Courier.Proofs.Pattern.Anchoring
import Courier.Proofs.Pattern.Repetitions
import Courier.Proofs.Retry.Execution

/-!
# Whole statuses

A status is a success if the success pattern covers all of its decimal text. This holds of every
text that is a pattern by itself, also of one that came with a record. A text that closes the group
between the anchors is none.
-/

namespace Courier

open Pattern Regex

variable {text : String} {r a : Regex} {p : SuccessPattern}

-- ---------------------------------------------------------------------------
-- Between anchors
-- ---------------------------------------------------------------------------

namespace Pattern

theorem ordered_compile [Room] (h : compile text = .ok r) : r.Ordered := by
  obtain ⟨t, after, hread, hmeaning, -⟩ := compile_ok.1 h
  have ht : t.Ordered := ordered_readBranches (read_ok.1 hread).1 trivial trivial
  exact ordered_meaning t ht hmeaning

theorem compile_anchored_eq [Room] (h : compile text = .ok r)
    (ha : compile (anchored text) = .ok a) :
    a = .concat (.look (Assertion.lineStart.holds {}))
      (.concat r (.look (Assertion.lineEnd.holds {}))) := by
  obtain ⟨t, after, hread, hmeaning, -⟩ := compile_ok.1 h
  obtain ⟨t', after', hread', hmeaning', -⟩ := compile_ok.1 ha
  have hclosed := ((compile_anchored_iff hread hmeaning).1 ⟨a, ha⟩).closed
  obtain ⟨rfl, -⟩ := (read_anchored_of_closed hread hclosed).1 hread'
  rw [meaning_anchored hmeaning] at hmeaning'
  cases hmeaning'
  rfl

theorem occurs_anchors_iff (hr : r.Ordered) (subject : List Char) :
    (Regex.concat (.look (Assertion.lineStart.holds {}))
      (.concat r (.look (Assertion.lineEnd.holds {})))).occurs subject = true ↔
        r.Covers subject := by
  have hordered : (Regex.concat (.look (Assertion.lineStart.holds {}))
      (.concat r (.look (Assertion.lineEnd.holds {})))).Ordered := ⟨trivial, hr, trivial⟩
  rw [occurs_iff hordered]
  simp only [matches_concat, matches_look]
  have hstart (i : Nat) (hi : i ≤ subject.length) :
      Assertion.lineStart.holds {} (before subject i) subject[i]? = true ↔ i = 0 := by
    cases i with
    | zero => simp [Assertion.holds, before]
    | succ i => simp [Assertion.holds, before, Nat.lt_of_succ_le hi]
  have hend (j : Nat) (hj : j ≤ subject.length) :
      Assertion.lineEnd.holds {} (before subject j) subject[j]? = true ↔ j = subject.length := by
    simp [Assertion.holds]
    omega
  constructor
  · rintro ⟨i, j, hi, _, ⟨hs, rfl⟩, _, hm, he, rfl⟩
    obtain rfl := (hstart i hi).1 hs
    obtain rfl := (hend _ (hm.bounds hi).2).1 he
    exact hm
  · intro hm
    have h0 := Nat.zero_le subject.length
    exact ⟨0, _, h0, 0, ⟨(hstart 0 h0).2 rfl, rfl⟩, _, hm, (hend _ (Nat.le_refl _)).2 rfl, rfl⟩

end Pattern

-- ---------------------------------------------------------------------------
-- Statuses
-- ---------------------------------------------------------------------------

namespace SuccessPattern

theorem accepts_iff [Room] (hblank : Text.allBlank text = false) (hp : compile text = .ok p)
    (hr : Pattern.compile text = .ok r) (code : UInt16) :
    p.accepts code = true ↔ r.Covers (Decimal.digits code.toNat) := by
  have heffective : effective text = text := by simp [effective, hblank]
  simp only [compile, heffective] at hp
  split at hp
  · next a ha =>
    cases hp
    rw [accepts, compile_anchored_eq hr ha]
    exact occurs_anchors_iff (ordered_compile hr) _
  · cases hp

theorem classify_status_eq_failure {code : UInt16} :
    p.classify (.status code) = .failure ↔ p.accepts code = false ∧ code < 500 := by
  unfold classify
  cases ha : p.accepts code with
  | false => by_cases h : 500 ≤ code <;> simp [ha, h, UInt16.not_le.1, UInt16.not_lt.2]
  | true => simp [ha]

end SuccessPattern

-- ---------------------------------------------------------------------------
-- Records with a pattern of their own
-- ---------------------------------------------------------------------------

namespace Delivery

variable {t : Delivery} {ids : FreshIds} {record : InboundRecord} {i : Invocation}

theorem prepare_ok [Room] (h : t.prepare ids record = .ok i) :
    ∃ request, buildRequest t.settings ids record = .ok request ∧
      Invocation.start t.invoker (t.policyFor record) request = .ok i := by
  unfold prepare at h
  cases hr : buildRequest t.settings ids record with
  | error e =>
    rw [hr] at h
    exact nomatch h
  | ok request =>
    rw [hr] at h
    exact ⟨request, rfl, h⟩

theorem pattern_of_header [Room] (hheader : record.header? patternHeader = some text)
    (hp : SuccessPattern.compile text = .ok p) (hi : t.prepare ids record = .ok i) :
    i.pattern = p := by
  obtain ⟨request, -, hstart⟩ := prepare_ok hi
  obtain ⟨-, hpolicy, -, hpattern⟩ := Invocation.start_ok hstart
  have htext : i.policy.successPattern = text := by
    rw [hpolicy, policyFor, hheader]
    rfl
  rw [htext, hp] at hpattern
  exact (Except.ok.inj hpattern).symm

end Delivery

-- ---------------------------------------------------------------------------
-- Success
-- ---------------------------------------------------------------------------

/-- Of a text that is a pattern by itself, a status is a success if the text matches all its
digits, also for a record that brings the text. Whatever the text, every other status is worth
another attempt from 500 on and is a failure below. -/
theorem SuccessPattern.classify_by_whole_status [Room] (hblank : Text.allBlank text = false)
    (hp : compile text = .ok p) :
    (∀ (c : Classifier) (code : UInt16),
      (c.classify text (.status code)).1 = .ok (p.classify (.status code))) ∧
    (∀ r, Pattern.compile text = .ok r → ∀ code : UInt16,
      p.classify (.status code) = .success ↔ r.Covers (Decimal.digits code.toNat)) ∧
    (∀ code : UInt16, p.classify (.status code) ≠ .success →
      (p.classify (.status code) = .retry ↔ 500 ≤ code) ∧
      (p.classify (.status code) = .failure ↔ code < 500)) ∧
    ∀ (t : Delivery) (ids : FreshIds) (record : InboundRecord) (i : Invocation),
      record.header? Delivery.patternHeader = some text → t.prepare ids record = .ok i →
        i.pattern = p := by
  refine ⟨fun c code => c.classify_fst hp _, fun r hr code => ?_, fun code hne => ?_,
    fun t ids record i hheader hi => Delivery.pattern_of_header hheader hp hi⟩
  · rw [classify_status_eq_success, accepts_iff hblank hp hr]
  · have ha : p.accepts code = false := by
      rw [Ne, classify_status_eq_success] at hne
      simpa using hne
    simp [classify_status_eq_retry, classify_status_eq_failure, ha]

open scoped Room in
/-- Of alternatives too, a status has to match one as a whole: a pattern for `304` and for three
digits that begin with `2` leaves out `2000`. -/
theorem SuccessPattern.alternatives_cover_whole :
    Text.allBlank "2..|304" = false ∧ ∃ p r, compile "2..|304" = .ok p ∧
      Pattern.compile "2..|304" = .ok r ∧ r.Covers (Decimal.digits 304) ∧
        ¬ r.Covers (Decimal.digits 2000) ∧ ∀ c : Classifier,
          (c.classify "2..|304" (.status 304)).1 = .ok .success ∧
            (c.classify "2..|304" (.status 2000)).1 = .ok .retry := by
  have hblank : Text.allBlank "2..|304" = false := by decide
  obtain ⟨p, hp, h304, h2000⟩ : ∃ p, compile "2..|304" = .ok p ∧
      p.classify (.status 304) = .success ∧ p.classify (.status 2000) = .retry :=
    ⟨_, rfl, by decide, by decide⟩
  obtain ⟨r, hr⟩ : ∃ r, Pattern.compile "2..|304" = .ok r := ⟨_, rfl⟩
  obtain ⟨hclassify, hcovers, -, -⟩ := classify_by_whole_status hblank hp
  refine ⟨hblank, p, r, hp, hr, (hcovers r hr 304).1 h304, fun hc => ?_, fun c => ⟨?_, ?_⟩⟩
  · have h := (hcovers r hr 2000).2 hc
    rw [h2000] at h
    cases h
  · rw [hclassify, h304]
  · rw [hclassify, h2000]

open scoped Room in
/-- A text that is no pattern by itself can be one between the anchors: its closing parenthesis
ends their group, and a status is a success if it begins like the first half or ends like the
other. -/
theorem SuccessPattern.closing_parenthesis_splits :
    Text.allBlank "2..)|(?:5.." = false ∧
      Pattern.compile "2..)|(?:5.." = .error .groupUnopened ∧
      (∃ p, compile "2..)|(?:5.." = .ok p) ∧
      ∀ c : Classifier,
        (c.classify "2..)|(?:5.." (.status 500)).1 = .ok .success ∧
          (c.classify "2..)|(?:5.." (.status 2000)).1 = .ok .success := by
  obtain ⟨p, hp, h500, h2000⟩ : ∃ p, compile "2..)|(?:5.." = .ok p ∧
      p.classify (.status 500) = .success ∧ p.classify (.status 2000) = .success :=
    ⟨_, rfl, by decide, by decide⟩
  refine ⟨by decide, rfl, ⟨p, hp⟩, fun c => ⟨?_, ?_⟩⟩
  · rw [c.classify_fst hp, h500]
  · rw [c.classify_fst hp, h2000]

end Courier
