import Courier.Proofs.Record.Acceptance
import Courier.Proofs.Record.RoundTrip

/-!
# The normal form of a request record

The record that is written for a request is read as that request again. It is the record that the
request was read from, but for the spelling of the method and for body members: the one that the
kind names is there, and the others are not. A record that is so already is written as it was read.
-/

namespace Courier

namespace RequestRecord

variable {r : RequestRecord} {q : Request}

/-- The method is spelled as it is written, and of the body's members only the one that the kind
names is there. A list of parts is there even if it is empty. -/
structure IsNormal (r : RequestRecord) : Prop where
  method : ∃ m : Method, r.method = m.name
  selected : r.kind = .parts ∨ (r.member? r.kind).isSome = true
  others : ∀ k ≠ r.kind, r.member? k = none

theorem isNormal_ofRequest (q : Request) : (ofRequest q).IsNormal := by
  refine ⟨⟨q.method, rfl⟩, ?_, fun k hk => ?_⟩
  · cases hbody : q.body with
    | parts ps => exact .inl (by simp [ofRequest, hbody, Body.kind])
    | _ => exact .inr (by simp [ofRequest, member?, hbody, Body.kind])
  · cases hbody : q.body <;> cases k <;> simp_all [ofRequest, member?, Body.kind]

theorem ofRequest_rest (h : r.Describes q) :
    { ofRequest q with method := r.method, text := r.text, bytes := r.bytes, parts := r.parts } =
      r := by
  simp only [ofRequest, h.kind, h.url, h.headers, h.requestId, h.correlationId, h.timeout, h.retry]

theorem ofRequest_eq (h : r.Describes q) (hmethod : q.method.name = r.method)
    (htext : (ofRequest q).text = r.text) (hbytes : (ofRequest q).bytes = r.bytes)
    (hparts : (ofRequest q).parts = r.parts) : ofRequest q = r := by
  rw [← ofRequest_rest h, ← hmethod, ← htext, ← hbytes, ← hparts]
  rfl

theorem ofRequest_of_isNormal (h : r.Describes q) (hnormal : r.IsNormal) : ofRequest q = r := by
  have hmethod : q.method.name = r.method := by
    obtain ⟨m, hm⟩ := hnormal.method
    rw [h.method, hm]
    exact Method.ofText?_eq_some_iff.1 (Method.ofText?_name m)
  have hbody := h.body
  have hselected := hnormal.selected
  have htext : .text ≠ r.kind → r.text = none := fun hk => by
    simpa [member?] using hnormal.others .text hk
  have hbytes : .bytes ≠ r.kind → r.bytes = none := fun hk => by
    simpa [member?] using hnormal.others .bytes hk
  have hparts : .parts ≠ r.kind → r.parts = [] := fun hk => by
    simpa [member?] using hnormal.others .parts hk
  cases hkind : r.kind with
  | text =>
    simp only [hkind, ne_eq, reduceCtorEq, not_false_eq_true, forall_const] at hbytes hparts
    obtain ⟨s, hs⟩ : ∃ s, r.text = some s := by
      simpa [hkind, member?, Option.isSome_iff_exists] using hselected
    simp only [hkind, member?, hs, Option.map_some, Option.getD_some] at hbody
    refine ofRequest_eq h hmethod ?_ ?_ ?_ <;> simp [ofRequest, hbody, hs, hbytes, hparts]
  | bytes =>
    simp only [hkind, ne_eq, reduceCtorEq, not_false_eq_true, forall_const] at htext hparts
    obtain ⟨bs, hbs⟩ : ∃ bs, r.bytes = some bs := by
      simpa [hkind, member?, Option.isSome_iff_exists] using hselected
    simp only [hkind, member?, hbs, Option.map_some, Option.getD_some] at hbody
    refine ofRequest_eq h hmethod ?_ ?_ ?_ <;> simp [ofRequest, hbody, hbs, htext, hparts]
  | parts =>
    simp only [hkind, ne_eq, reduceCtorEq, not_false_eq_true, forall_const] at htext hbytes
    have hps : q.body = .parts r.parts := by
      cases hps : r.parts <;> simpa [hkind, member?, hps, BodyKind.nothing] using hbody
    refine ofRequest_eq h hmethod ?_ ?_ ?_ <;> simp [ofRequest, hps, htext, hbytes]

theorem ofRequest_beq_iff (h : r.Describes q) (hw : r.retry.Writable) :
    (ofRequest q == r) = true ↔ r.IsNormal := by
  constructor
  · intro heq
    obtain ⟨-, -, -, -, -, -, hmethod, -, htext, hbytes, hparts⟩ := beq_iff.1 heq
    rw [← ofRequest_eq h hmethod htext hbytes hparts]
    exact isNormal_ofRequest q
  · intro hnormal
    rw [ofRequest_of_isNormal h hnormal]
    exact beq_iff.2 ⟨rfl, rfl, rfl, hw.beq_self, rfl, .refl _, rfl, rfl, rfl, rfl, rfl⟩

/-- What is read, written and read again is the same, and so is what is written then. -/
theorem ofRequest_normalizes (h : r.toRequest = .ok q) (hw : r.retry.Writable) :
    (∃ q', (ofRequest q).toRequest = .ok q' ∧ (q' == q) = true ∧ ofRequest q' = ofRequest q) ∧
      { ofRequest q with method := r.method, text := r.text, bytes := r.bytes, parts := r.parts } =
        r ∧
      (ofRequest q).method = Text.upper (Text.trim r.method) ∧
      ((ofRequest q == r) = true ↔ r.IsNormal) := by
  have hdescribes := describes_of_toRequest h
  have hwritable : q.retry.Writable := hdescribes.retry ▸ hw
  refine ⟨⟨q, toRequest_ofRequest q, q.beq_self hwritable, rfl⟩, ofRequest_rest hdescribes,
    hdescribes.method, ofRequest_beq_iff hdescribes hw⟩

/-- Written again it is another record: the method in capitals, no text, and bytes, though none. -/
theorem ofRequest_normalizes_paddedPost :
    ∃ q, (paddedPost.toRequest = .ok q ∧ paddedPost.retry.Writable) ∧
      (∃ q', (ofRequest q).toRequest = .ok q' ∧ (q' == q) = true ∧ ofRequest q' = ofRequest q) ∧
      (ofRequest q).method = "POST" ∧ (ofRequest q == paddedPost) = false := by
  obtain ⟨hverb, hstray, haddressed⟩ := paddedPost_acceptable
  obtain ⟨q, hq, -⟩ := toRequest_of_acceptable hverb hstray haddressed
  have hwritable : paddedPost.retry.Writable := fun x hx => by cases hx
  obtain ⟨hagain, -, hmethod, hnormal⟩ := ofRequest_normalizes hq hwritable
  refine ⟨q, ⟨hq, hwritable⟩, hagain, hmethod.trans (by decide), ?_⟩
  rw [← Bool.not_eq_true, hnormal]
  rintro ⟨⟨m, hm⟩, -, -⟩
  cases m <;> exact absurd hm (by decide)

end RequestRecord

end Courier
