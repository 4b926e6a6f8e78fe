import Courier.Proofs.Delivery.Ids
import Courier.Proofs.Http.Headers

/-!
# Requests from records

The request built for a record is the one that its value describes, with the static headers behind
that it does not mention and, if ids are to be generated, with ids where it has none. Nothing else
about it changes, and only a record is refused, never what is made of it.
-/

namespace Courier

theorem Draft.build_withHeaders (d : Draft) (headers : Headers) :
    Draft.build { d with headers } = d.build.map fun r => { r with headers } :=
  build_map rfl rfl rfl fun _ _ _ _ => rfl

namespace Delivery

variable {settings : SinkSettings} {ids : FreshIds} {record : InboundRecord} {q r : Request}
  {e : Rejection}

theorem withStaticHeaders_eq (headers : OrderedMap String) (d : Draft) :
    withStaticHeaders headers d = { d with headers := d.headers.withDefaults headers.entries } := by
  rw [withStaticHeaders, Headers.withDefaults]
  induction headers.entries generalizing d with
  | nil => rfl
  | cons h hs ih => exact ih _

def completed (settings : SinkSettings) (ids : FreshIds) (q : Request) : Request :=
  { q with
    headers := q.headers.withDefaults settings.staticHeaders.entries
    requestId := if settings.generateMissingIds then q.requestId <|> some ids.requestId
      else q.requestId
    correlationId := if settings.generateMissingIds then q.correlationId <|> some ids.correlationId
      else q.correlationId }

/-- A correlation id is required, and there is none nor will there be. -/
def lacksId (settings : SinkSettings) (q : Request) : Bool :=
  !settings.generateMissingIds && settings.requireCorrelationId && q.correlationId.isNone

theorem build_withStaticHeaders (headers : OrderedMap String) (q : Request) :
    (withStaticHeaders headers q.reopen).build =
      .ok { q with headers := q.headers.withDefaults headers.entries } := by
  have hheaders : q.reopen.headers = q.headers := by
    obtain ⟨_, _, _, _, _, _, _, body, _⟩ := q
    cases body <;> rfl
  rw [withStaticHeaders_eq, Draft.build_withHeaders, Request.build_reopen, hheaders]
  rfl

theorem fillIds_withStaticHeaders (ids : FreshIds) (headers : OrderedMap String) (q : Request) :
    fillIds ids (withStaticHeaders headers q.reopen) =
      { withStaticHeaders headers q.reopen with
        requestId := q.requestId <|> some ids.requestId
        correlationId := q.correlationId <|> some ids.correlationId } := by
  rw [withStaticHeaders_eq]
  obtain ⟨_, _, _, _, _, _, _, body, _⟩ := q
  cases body <;> rfl

/-- Only the described request is looked at, and what is made of it is never refused. -/
theorem buildRequest_eq (settings : SinkSettings) (ids : FreshIds) (record : InboundRecord) :
    buildRequest settings ids record = (described record).bind fun q =>
      if lacksId settings q then .error (.missing "correlationId")
      else .ok (completed settings ids q) := by
  rw [buildRequest]
  cases described record with
  | error e => rfl
  | ok q =>
    simp only [bind, Except.bind, lacksId, completed, fillIds_withStaticHeaders,
      Draft.build_withIds, build_withStaticHeaders]
    by_cases hgenerate : settings.generateMissingIds
    · simp [hgenerate, Except.map]
    · simp [hgenerate]

section
variable {value : Json.Value} {parsed : RequestRecord} {cause : Json.DecodeError}

theorem described_of_none (hvalue : record.value = none) :
    described record = .error (.missing "value") := by
  rw [described, hvalue]

theorem described_of_some (hvalue : record.value = some value) :
    described record =
      ((RequestRecord.form.decode value).mapError .undecodable).bind RequestRecord.toRequest := by
  rw [described, hvalue]
  rfl

theorem described_of_undecodable (hvalue : record.value = some value)
    (hparsed : RequestRecord.form.decode value = .error cause) :
    described record = .error (.undecodable cause) := by
  rw [described_of_some hvalue, hparsed]
  rfl

theorem described_of_parsed (hvalue : record.value = some value)
    (hparsed : RequestRecord.form.decode value = .ok parsed) :
    described record = parsed.toRequest := by
  rw [described_of_some hvalue, hparsed, Except.mapError, Except.bind]

theorem described_eq_ok_iff :
    described record = .ok q ↔ ∃ value parsed, record.value = some value ∧
      RequestRecord.form.decode value = .ok parsed ∧ parsed.toRequest = .ok q := by
  constructor
  · intro h
    cases hvalue : record.value with
    | none => simp [described_of_none hvalue] at h
    | some value =>
      cases hparsed : RequestRecord.form.decode value with
      | error cause => simp [described_of_undecodable hvalue hparsed] at h
      | ok parsed => exact ⟨value, parsed, rfl, hparsed, described_of_parsed hvalue hparsed ▸ h⟩
  · rintro ⟨value, parsed, hvalue, hparsed, hrequest⟩
    exact (described_of_parsed hvalue hparsed).trans hrequest

end

inductive Refused (settings : SinkSettings) (record : InboundRecord) : Rejection → Prop where
  | noValue : record.value = none → Refused settings record (.missing "value")
  | undecodable {value : Json.Value} {cause : Json.DecodeError} : record.value = some value →
    RequestRecord.form.decode value = .error cause → Refused settings record (.undecodable cause)
  | rejected {value : Json.Value} {parsed : RequestRecord} {e : Rejection} :
    record.value = some value → RequestRecord.form.decode value = .ok parsed →
    parsed.toRequest = .error e → Refused settings record e
  | unidentified {value : Json.Value} {parsed : RequestRecord} {q : Request} :
    record.value = some value → RequestRecord.form.decode value = .ok parsed →
    parsed.toRequest = .ok q → settings.generateMissingIds = false →
    settings.requireCorrelationId = true → q.correlationId = none →
    Refused settings record (.missing "correlationId")

theorem lacksId_iff :
    lacksId settings q = true ↔ settings.generateMissingIds = false ∧
      settings.requireCorrelationId = true ∧ q.correlationId = none := by
  simp [lacksId, and_assoc]

theorem Refused.of_described (h : described record = .error e) : Refused settings record e := by
  cases hvalue : record.value with
  | none =>
    rw [described_of_none hvalue, Except.error.injEq] at h
    exact h ▸ .noValue hvalue
  | some value =>
    cases hparsed : RequestRecord.form.decode value with
    | error cause =>
      rw [described_of_undecodable hvalue hparsed, Except.error.injEq] at h
      exact h ▸ .undecodable hvalue hparsed
    | ok parsed =>
      rw [described_of_parsed hvalue hparsed] at h
      exact .rejected hvalue hparsed h

theorem Refused.cases_described (h : Refused settings record e) :
    described record = .error e ∨
      ∃ q, described record = .ok q ∧ lacksId settings q = true ∧ e = .missing "correlationId" := by
  cases h with
  | noValue hvalue => exact .inl (described_of_none hvalue)
  | undecodable hvalue hparsed => exact .inl (described_of_undecodable hvalue hparsed)
  | rejected hvalue hparsed hrejected =>
    exact .inl ((described_of_parsed hvalue hparsed).trans hrejected)
  | unidentified hvalue hparsed hrequest hgenerate hrequire hnone =>
    have hdescribed := described_eq_ok_iff.2 ⟨_, _, hvalue, hparsed, hrequest⟩
    exact .inr ⟨_, hdescribed, lacksId_iff.2 ⟨hgenerate, hrequire, hnone⟩, rfl⟩

theorem buildRequest_eq_error_iff :
    buildRequest settings ids record = .error e ↔ Refused settings record e := by
  rw [buildRequest_eq]
  constructor
  · intro h
    cases hdescribed : described record with
    | error e' =>
      rw [hdescribed, Except.bind, Except.error.injEq] at h
      exact h ▸ .of_described hdescribed
    | ok q =>
      rw [hdescribed, Except.bind] at h
      split at h
      · next hlacks =>
        obtain ⟨value, parsed, hvalue, hparsed, hrequest⟩ := described_eq_ok_iff.1 hdescribed
        obtain ⟨hgenerate, hrequire, hnone⟩ := lacksId_iff.1 hlacks
        cases h
        exact .unidentified hvalue hparsed hrequest hgenerate hrequire hnone
      · cases h
  · intro h
    rcases h.cases_described with herror | ⟨q, hdescribed, hlacks, rfl⟩
    · rw [herror, Except.bind]
    · rw [hdescribed, Except.bind, if_pos hlacks]

theorem buildRequest_eq_ok_iff :
    buildRequest settings ids record = .ok r ↔
      ∃ q, described record = .ok q ∧ lacksId settings q = false ∧ completed settings ids q = r := by
  rw [buildRequest_eq]
  cases described record with
  | error e => simp [Except.bind]
  | ok q => by_cases hlacks : lacksId settings q <;> simp [Except.bind, hlacks]

/-- How a request that is built stands to the described one. -/
structure Completes (settings : SinkSettings) (ids : FreshIds) (q r : Request) : Prop where
  url : r.url = q.url
  method : r.method = q.method
  timeout : r.timeout = q.timeout
  retry : r.retry = q.retry
  body : r.body = q.body
  requestId : r.requestId =
    if settings.generateMissingIds then some (q.requestId.getD ids.requestId) else q.requestId
  correlationId : r.correlationId =
    if settings.generateMissingIds then some (q.correlationId.getD ids.correlationId)
    else q.correlationId
  headers : r.headers.entries = q.headers.entries ++
    (Headers.lacking q.headers settings.staticHeaders.entries).map fun d => (d.1, [d.2])
  complete : ∀ d ∈ settings.staticHeaders.entries, r.headers.mentions d.1 = true
  kept : ∀ name, q.headers.mentions name = true → r.headers.values? name = q.headers.values? name

theorem completes_completed (settings : SinkSettings) (ids : FreshIds) (q : Request) :
    Completes settings ids q (completed settings ids q) where
  url := rfl
  method := rfl
  timeout := rfl
  retry := rfl
  body := rfl
  requestId := by cases hid : q.requestId <;> simp [completed, hid]
  correlationId := by cases hid : q.correlationId <;> simp [completed, hid]
  headers := Headers.entries_withDefaults _ _
  complete d hd := by
    rw [completed, Headers.mentions_withDefaults, Bool.or_eq_true]
    exact .inr (List.any_eq_true.2 ⟨d, hd, Text.sameName_refl _⟩)
  kept _ hname := Headers.values?_withDefaults hname _

/-- A built request completes the one that the value of its record stands for, the reasons for
having none are known, and building what was reopened is none of them. -/
theorem buildRequest_completes_described (settings : SinkSettings) (ids : FreshIds)
    (record : InboundRecord) :
    (∀ r, buildRequest settings ids record = .ok r →
      ∃ value parsed q, record.value = some value ∧
        RequestRecord.form.decode value = .ok parsed ∧ parsed.toRequest = .ok q ∧
        Completes settings ids q r) ∧
    (∀ e, buildRequest settings ids record = .error e ↔ Refused settings record e) ∧
    ∀ q : Request,
      let draft := withStaticHeaders settings.staticHeaders q.reopen
      (∃ r, draft.build = .ok r) ∧ ∃ r, (fillIds ids draft).build = .ok r := by
  refine ⟨fun r h => ?_, fun _ => buildRequest_eq_error_iff, fun q => ⟨?_, ?_⟩⟩
  · obtain ⟨q, hdescribed, -, rfl⟩ := buildRequest_eq_ok_iff.1 h
    obtain ⟨value, parsed, hvalue, hparsed, hrequest⟩ := described_eq_ok_iff.1 hdescribed
    exact ⟨value, parsed, q, hvalue, hparsed, hrequest, completes_completed settings ids q⟩
  · exact ⟨_, build_withStaticHeaders _ _⟩
  · rw [fillIds_withStaticHeaders, Draft.build_withIds, build_withStaticHeaders]
    exact ⟨_, rfl⟩

/-- A header without values keeps a static one out, and one static header another. -/
theorem buildRequest_of_valueless_header :
    let settings : SinkSettings :=
      { staticHeaders := .ofList [("x-a", "1"), ("X-Source", "sink"), ("x-source", "other")] }
    let record : InboundRecord := .of "calls" (.object
      [("headers", .object [("X-A", .array [])]), ("method", .string "GET"),
        ("url", .string "http://service/")])
    ∃ parsed q r, record.value.map RequestRecord.form.decode = some (.ok parsed) ∧
      parsed.toRequest = .ok q ∧ Completes settings ⟨"r-1", "c-1"⟩ q r ∧
      r.headers.entries = [("X-A", []), ("X-Source", ["sink"])] := by
  intro settings record
  have hbuilt : ∃ r, buildRequest settings ⟨"r-1", "c-1"⟩ record = .ok r ∧
      r.headers.entries = [("X-A", []), ("X-Source", ["sink"])] := ⟨_, rfl, rfl⟩
  obtain ⟨r, hbuild, hheaders⟩ := hbuilt
  obtain ⟨value, parsed, q, hvalue, hparsed, hrequest, hcompletes⟩ :=
    (buildRequest_completes_described settings ⟨"r-1", "c-1"⟩ record).1 r hbuild
  exact ⟨parsed, q, r, by rw [hvalue, Option.map_some, hparsed], hrequest, hcompletes, hheaders⟩

end Delivery

end Courier
