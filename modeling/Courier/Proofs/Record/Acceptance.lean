import Courier.Proofs.Http.Drafting
import Courier.Record.RequestRecord

/-!
# Which records are requests

A record is a request if its method is a verb, no body stands in a member that its kind does not
name, and its address is not blank. They are looked at in this order, and the first that fails is
reported. The request has the body of the named member, the empty one of that kind if the member is
absent, and all the rest of the record as it is.
-/

namespace Courier

def BodyKind.nothing : BodyKind → Body
  | .text => .text ""
  | .bytes => .bytes []
  | .parts => .parts []

namespace RequestRecord

variable {r : RequestRecord} {q : Request}

/-- The body in the member of a kind. An empty list of parts is an absent member. -/
def member? (r : RequestRecord) : BodyKind → Option Body
  | .text => r.text.map .text
  | .bytes => r.bytes.map .bytes
  | .parts => if r.parts.isEmpty then none else some (.parts r.parts)

/-- The method is a verb in some letter case, with blanks around it or not. -/
def NamesVerb (r : RequestRecord) : Prop :=
  ∃ m : Method, Text.upper (Text.trim r.method) = m.name

/-- A body that is not empty stands in a member that the kind does not name. -/
def Stray (r : RequestRecord) : Prop :=
  ∃ k ≠ r.kind, ∃ b ∈ r.member? k, b.isEmpty = false

structure Describes (r : RequestRecord) (q : Request) : Prop where
  method : q.method.name = Text.upper (Text.trim r.method)
  kind : q.body.kind = r.kind
  body : q.body = (r.member? r.kind).getD r.kind.nothing
  url : q.url = r.url
  headers : q.headers = r.headers
  requestId : q.requestId = r.requestId
  correlationId : q.correlationId = r.correlationId
  timeout : q.timeout = r.timeout
  retry : q.retry = r.retry

-- ---------------------------------------------------------------------------
-- The body
-- ---------------------------------------------------------------------------

theorem kind_member? (h : b ∈ r.member? k) : b.kind = k := by
  cases k with
  | text =>
    obtain ⟨s, -, rfl⟩ := Option.map_eq_some_iff.1 h
    rfl
  | bytes =>
    obtain ⟨bs, -, rfl⟩ := Option.map_eq_some_iff.1 h
    rfl
  | parts =>
    simp only [member?, Option.mem_def, Option.ite_none_left_eq_some, Option.some.injEq] at h
    rw [← h.2]
    rfl

theorem kind_nothing (k : BodyKind) : k.nothing.kind = k := by
  cases k <;> rfl

theorem kind_body (r : RequestRecord) : ((r.member? r.kind).getD r.kind.nothing).kind = r.kind := by
  cases hmember : r.member? r.kind with
  | none => exact kind_nothing r.kind
  | some b => exact kind_member? hmember

def holds (r : RequestRecord) : BodyKind → Bool
  | .text => r.hasText
  | .bytes => r.hasBytes
  | .parts => r.hasParts

theorem holds_iff (k : BodyKind) : r.holds k = true ↔ ∃ b ∈ r.member? k, b.isEmpty = false := by
  cases k with
  | text => simp [holds, hasText, member?, Option.any_eq_true, Body.isEmpty]
  | bytes => simp [holds, hasBytes, member?, Option.any_eq_true, Body.isEmpty]
  | parts => cases hparts : r.parts <;> simp [holds, hasParts, member?, hparts, Body.isEmpty]

theorem body?_of_stray (h : r.Stray) : r.body? = .error .ambiguousBody := by
  obtain ⟨k, hk, hbody⟩ := h
  rw [← holds_iff] at hbody
  rw [body?]
  cases k <;> cases hkind : r.kind <;> simp_all [holds]

theorem body?_of_not_stray (h : ¬ r.Stray) :
    r.body? = .ok ((r.member? r.kind).getD r.kind.nothing) := by
  have hempty : ∀ k ≠ r.kind, r.holds k = false := fun k hk => by
    rw [← Bool.not_eq_true, holds_iff]
    exact fun hbody => h ⟨k, hk, hbody⟩
  rw [body?]
  cases hkind : r.kind with
  | text =>
    have hbytes : r.hasBytes = false := hempty .bytes (by simp [hkind])
    have hparts : r.hasParts = false := hempty .parts (by simp [hkind])
    simp only [hbytes, hparts]
    cases htext : r.text <;> simp [member?, htext, BodyKind.nothing]
  | bytes =>
    have htext : r.hasText = false := hempty .text (by simp [hkind])
    have hparts : r.hasParts = false := hempty .parts (by simp [hkind])
    simp only [htext, hparts]
    cases hbytes : r.bytes <;> simp [member?, hbytes, BodyKind.nothing]
  | parts =>
    have htext : r.hasText = false := hempty .text (by simp [hkind])
    have hbytes : r.hasBytes = false := hempty .bytes (by simp [hkind])
    simp only [htext, hbytes]
    cases hparts : r.parts <;> simp [member?, hparts, BodyKind.nothing]

-- ---------------------------------------------------------------------------
-- The request
-- ---------------------------------------------------------------------------

theorem namesVerb_iff : r.NamesVerb ↔ ∃ m, Method.ofText? r.method = some m := by
  simp only [NamesVerb, Method.ofText?_eq_some_iff]

def draft (r : RequestRecord) (verb : Method) : Draft :=
  { requestId := r.requestId
    correlationId := r.correlationId
    url := some r.url
    method := some verb
    headers := r.headers
    timeout := r.timeout
    retry := r.retry }

theorem toRequest_of_verb {verb : Method} (h : Method.ofText? r.method = some verb) :
    r.toRequest = r.body?.bind fun body => ((r.draft verb).setBody body).build := by
  rw [toRequest, h]
  rfl

theorem toRequest_of_no_verb (h : ¬ r.NamesVerb) :
    r.toRequest = .error (.unsupportedMethod r.method) := by
  rw [namesVerb_iff, not_exists] at h
  rw [toRequest, Option.eq_none_iff_forall_ne_some.2 h]
  rfl

theorem toRequest_of_stray (hverb : r.NamesVerb) (h : r.Stray) :
    r.toRequest = .error .ambiguousBody := by
  obtain ⟨verb, hmethod⟩ := namesVerb_iff.1 hverb
  rw [toRequest_of_verb hmethod, body?_of_stray h]
  rfl

theorem toRequest_of_blank (hverb : r.NamesVerb) (h : ¬ r.Stray)
    (hblank : Text.allBlank r.url = true) : r.toRequest = .error (.missing "url") := by
  obtain ⟨verb, hmethod⟩ := namesVerb_iff.1 hverb
  rw [toRequest_of_verb hmethod, body?_of_not_stray h]
  refine Draft.build_of_unaddressed fun url hurl => ?_
  rw [Draft.url_setBody] at hurl
  rw [← Option.some.inj hurl, hblank]

theorem build_draft (r : RequestRecord) (verb : Method) (body : Body)
    (h : Text.allBlank r.url = false) :
    ((r.draft verb).setBody body).build = .ok ((r.draft verb).requestOf r.url verb h body) := by
  have hurl : ((r.draft verb).setBody body).url = some r.url := Draft.url_setBody _ body
  have hmethod : ((r.draft verb).setBody body).method = some verb := Draft.method_setBody _ body
  rw [Draft.build_of_described hurl h hmethod]
  cases body <;> rfl

theorem toRequest_of_acceptable (hverb : r.NamesVerb) (h : ¬ r.Stray)
    (haddressed : Text.allBlank r.url = false) : ∃ q, r.toRequest = .ok q ∧ r.Describes q := by
  obtain ⟨verb, hmethod⟩ := namesVerb_iff.1 hverb
  rw [toRequest_of_verb hmethod, body?_of_not_stray h]
  refine ⟨_, build_draft r verb _ haddressed, ?_⟩
  exact
    { method := (Method.ofText?_eq_some_iff.1 hmethod).symm
      kind := r.kind_body
      body := rfl
      url := rfl
      headers := rfl
      requestId := rfl
      correlationId := rfl
      timeout := rfl
      retry := rfl }

theorem toRequest_cases (r : RequestRecord) :
    (¬ r.NamesVerb ∧ r.toRequest = .error (.unsupportedMethod r.method)) ∨
      (r.NamesVerb ∧ r.Stray ∧ r.toRequest = .error .ambiguousBody) ∨
      (r.NamesVerb ∧ ¬ r.Stray ∧ Text.allBlank r.url = true ∧
        r.toRequest = .error (.missing "url")) ∨
      r.NamesVerb ∧ ¬ r.Stray ∧ Text.allBlank r.url = false ∧
        ∃ q, r.toRequest = .ok q ∧ r.Describes q := by
  by_cases hverb : r.NamesVerb
  · by_cases hstray : r.Stray
    · exact .inr (.inl ⟨hverb, hstray, toRequest_of_stray hverb hstray⟩)
    · cases hblank : Text.allBlank r.url with
      | true =>
        exact .inr (.inr (.inl ⟨hverb, hstray, rfl, toRequest_of_blank hverb hstray hblank⟩))
      | false =>
        exact .inr (.inr (.inr
          ⟨hverb, hstray, rfl, toRequest_of_acceptable hverb hstray hblank⟩))
  · exact .inl ⟨hverb, toRequest_of_no_verb hverb⟩

theorem describes_of_toRequest (h : r.toRequest = .ok q) : r.Describes q := by
  rcases r.toRequest_cases with ⟨-, hr⟩ | ⟨-, -, hr⟩ | ⟨-, -, -, hr⟩ | ⟨-, -, -, q', hr, hdescribes⟩
  all_goals cases hr.symm.trans h
  exact hdescribes

/-- A record is refused for its method first, then for a stray body, then for a blank address. A
record without these faults is the request it describes. -/
theorem toRequest_describes (r : RequestRecord) :
    (r.toRequest = .error (.unsupportedMethod r.method) ↔ ¬ r.NamesVerb) ∧
      (r.toRequest = .error .ambiguousBody ↔ r.NamesVerb ∧ r.Stray) ∧
      (r.toRequest = .error (.missing "url") ↔
        r.NamesVerb ∧ ¬ r.Stray ∧ Text.allBlank r.url = true) ∧
      ((∃ q, r.toRequest = .ok q) ↔
        r.NamesVerb ∧ ¬ r.Stray ∧ Text.allBlank r.url = false) ∧
      ∀ q, r.toRequest = .ok q → r.Describes q := by
  rcases r.toRequest_cases with ⟨hverb, hr⟩ | ⟨hverb, hstray, hr⟩ | ⟨hverb, hstray, hblank, hr⟩ |
    ⟨hverb, hstray, hblank, q, hr, hdescribes⟩
  · simp [hr, hverb]
  · simp [hr, hverb, hstray]
  · simp [hr, hverb, hstray, hblank]
  · simp [hr, hverb, hstray, hblank, hdescribes]

def paddedPost : RequestRecord where
  requestId := none
  correlationId := some "c-1"
  timeout := none
  retry := { retries := some 2 }
  url := "http://x/y"
  headers := ⟨[("X", ["1"]), ("A", [])], by decide⟩
  method := " post "
  kind := .bytes
  text := some ""
  bytes := none
  parts := []

theorem paddedPost_acceptable :
    paddedPost.NamesVerb ∧ ¬ paddedPost.Stray ∧ Text.allBlank paddedPost.url = false := by
  refine ⟨⟨.post, by decide⟩, ?_, by decide⟩
  rintro ⟨k, hk, b, hb, hfull⟩
  cases k with
  | text =>
    obtain rfl := Option.some.inj hb
    cases hfull
  | bytes => exact hk rfl
  | parts => cases hb

theorem toRequest_describes_paddedPost :
    ∃ q, paddedPost.toRequest = .ok q ∧ paddedPost.Describes q ∧ q.body = .bytes [] := by
  obtain ⟨q, hq⟩ := (toRequest_describes paddedPost).2.2.2.1.2 paddedPost_acceptable
  have hdescribes := (toRequest_describes paddedPost).2.2.2.2 q hq
  exact ⟨q, hq, hdescribes, hdescribes.body⟩

end RequestRecord

end Courier
