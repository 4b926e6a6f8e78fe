import Courier.Record.ExchangeRecord
import Courier.Proofs.Base64
import Courier.Proofs.Http.Equality
import Courier.Proofs.Json.Codec
import Courier.Proofs.Moment

/-!
# Exchanges over the wire

An exchange record comes back from its written form with the entries of its headers in the order
of their names, and otherwise as it was; the record, and the exchange it stands for, are equal to
the ones that were sent. Two things do not survive: a factor that is no finite number is written as
`null`, and a leap second inside a minute is written as the second that follows.
-/

namespace Courier

open Json

-- ---------------------------------------------------------------------------
-- Forms
-- ---------------------------------------------------------------------------

namespace Forms

theorem decodeBytes_text (bs : Bytes) : decodeBytes (Base64.text bs) = .ok bs := by
  rw [decodeBytes, Base64.text, String.toList_ofList, Base64.decode_encode]
  rfl

theorem bytes_returns (bs : Bytes) : Forms.bytes.Returns bs bs :=
  .refine (.text _) (decodeBytes_text bs)

theorem parts_returns (ps : List Bytes) : Forms.parts.Returns ps ps := by
  refine .refine (.list fun s _ => .text s) ?_
  induction ps with
  | nil => rfl
  | cons p ps ih =>
    rw [List.map_cons, List.mapM_cons, decodeBytes_text, ih]
    rfl

theorem moment_returns (m : Moment) : Forms.moment.Returns m m.arriving := by
  simp only [Codec.Returns, Forms.moment, Value.canonical, Moment.parse_text]
  rfl

theorem bodyKind_returns (k : BodyKind) : Forms.bodyKind.Returns k k :=
  .variant (s := k.name) (by cases k <;> rfl)

theorem decode_map {c : Codec β} (h : ∀ b, c.Returns b b) (es : List (String × β)) :
    (Forms.map c).decode (.object (es.map fun e => (e.1, (c.encode e.2).canonical))) =
      .ok (.ofList es) := by
  simp only [Forms.map]
  rw [mapM_map_ok]
  · rfl
  · intro e _
    have back : c.decode (c.encode e.2).canonical = .ok e.2 := h e.2
    simp only [back]
    rfl

theorem map_returns {c : Codec β} (h : ∀ b, c.Returns b b) (m : OrderedMap β) :
    (Forms.map c).Returns m m.sorted := by
  have arrived : ((Forms.map c).encode m).canonical =
      .object (m.sorted.entries.map fun e => (e.1, (c.encode e.2).canonical)) := by
    simp only [Forms.map, Value.canonical, Value.canonicalMembers_eq_map, List.map_map]
    exact congrArg Value.object (Value.map_sortMembers fun b => (c.encode b).canonical).symm
  rw [Codec.Returns, arrived, decode_map h, OrderedMap.ofList_entries]

theorem headers_returns (h : Headers) : Forms.headers.Returns h h.sorted :=
  map_returns (fun _ => .list fun s _ => .text s) h

end Forms

-- ---------------------------------------------------------------------------
-- Records
-- ---------------------------------------------------------------------------

namespace RetryOverrides

/-- A factor that has a numeral, if there is one. -/
def Writable (o : RetryOverrides) : Prop :=
  ∀ x ∈ o.factor, x.isFinite = true

def arriving (o : RetryOverrides) : RetryOverrides :=
  { o with factor := o.factor.filter Float.isFinite }

theorem arriving_of_writable {o : RetryOverrides} (h : o.Writable) : o.arriving = o := by
  obtain ⟨retries, delay, maxDelay, factor, jitter⟩ := o
  cases factor with
  | none => rfl
  | some x => rw [arriving, Option.filter_some_pos (h x rfl)]

theorem writable_arriving (o : RetryOverrides) : o.arriving.Writable :=
  fun _ hx => (Option.mem_filter_iff.1 hx).2

theorem factor_returns (factor : Option Float) :
    (Field.optional key Codec.double).Returns factor (factor.filter Float.isFinite) := by
  cases factor with
  | none => rfl
  | some x =>
    by_cases hx : x.isFinite = true
    · rw [Option.filter_some_pos hx]
      exact (Codec.Returns.double hx).nullable rfl
    · rw [Option.filter_some_neg (Bool.eq_false_iff.2 hx)]
      simp [Field.Returns, Field.optional, Field.arriving, Field.read, Codec.nullable, Codec.double,
        Value.canonical, hx]

end RetryOverrides

namespace RequestRecord

def sorted (r : RequestRecord) : RequestRecord :=
  { r with headers := r.headers.sorted }

def arriving (r : RequestRecord) : RequestRecord :=
  { r.sorted with retry := r.retry.arriving }

theorem arriving_of_writable (r : RequestRecord) (h : r.retry.Writable) :
    r.arriving = r.sorted := by
  rw [arriving, RetryOverrides.arriving_of_writable h]
  rfl

theorem fields_returns_arriving (r : RequestRecord) : fields.Returns r r.arriving := by
  refine .as ?_ rfl
  exact .cons (.optional (fun s _ => .text s) rfl) (by decide) <|
    .cons (.optional (fun s _ => .text s) rfl) (by decide) <|
    .cons (.optional (fun n _ => .word64 n) rfl) (by decide) <|
    .cons (.optional (fun n _ => .word32 n) rfl) (by decide) <|
    .cons (.optional (fun n _ => .word64 n) rfl) (by decide) <|
    .cons (.optional (fun n _ => .word64 n) rfl) (by decide) <|
    .cons (RetryOverrides.factor_returns _) (by decide) <|
    .cons (.optional (fun n _ => .word64 n) rfl) (by decide) <|
    .cons (.required (.text _)) (by decide) <|
    .cons (.defaulted (Forms.headers_returns _)) (by decide) <|
    .cons (.required (.text _)) (by decide) <|
    .cons (.defaulted (Forms.bodyKind_returns _)) (by decide) <|
    .cons (.optional (fun s _ => .text s) rfl) (by decide) <|
    .cons (.optional (fun bs _ => Forms.bytes_returns bs) rfl) (by decide) <|
    .cons (.items (Forms.parts_returns _)) (by decide) .nil

theorem fields_returns (r : RequestRecord) (h : r.retry.Writable) :
    fields.Returns r r.sorted :=
  r.arriving_of_writable h ▸ r.fields_returns_arriving

theorem form_returns (r : RequestRecord) : form.Returns r r.arriving :=
  .record r.fields_returns_arriving

end RequestRecord

namespace ResponseRecord

def sorted (r : ResponseRecord) : ResponseRecord :=
  { r with headers := r.headers.sorted }

theorem form_returns (r : ResponseRecord) : form.Returns r r.sorted := by
  refine .record (.as ?_ rfl)
  exact .cons (.required (.word16 _)) (by decide) <|
    .cons (.defaulted (.text _)) (by decide) <|
    .cons (.defaulted (.text _)) (by decide) <|
    .cons (.defaulted (Forms.headers_returns _)) (by decide) .nil

end ResponseRecord

namespace ExchangeRecord

def sorted (r : ExchangeRecord) : ExchangeRecord :=
  { r with request := r.request.sorted, response := r.response.sorted }

def arriving (r : ExchangeRecord) : ExchangeRecord :=
  { r.sorted with request := r.request.arriving, moment := r.moment.arriving }

theorem fields_returns (r : ExchangeRecord) : fields.Returns r r.arriving := by
  refine .as ?_ rfl
  exact .cons (.required (.word64 _)) (by decide) <|
    .cons (.required (Forms.moment_returns _)) (by decide) <|
    .cons (.required (.word32 _)) (by decide) <|
    .cons (.required (.boolean _)) (by decide) <|
    .cons (.required (RequestRecord.form_returns _)) (by decide) <|
    .cons (.required (ResponseRecord.form_returns _)) (by decide) .nil

theorem ofValue_toValue (r : ExchangeRecord) : ofValue r.toValue = .ok r.arriving := by
  have : form.decode (form.encode r).canonical = .ok r.arriving :=
    Codec.Returns.record r.fields_returns
  rw [ofValue, toValue, this]
  rfl

end ExchangeRecord

-- ---------------------------------------------------------------------------
-- Equality
-- ---------------------------------------------------------------------------

theorem float_beq_self {x : Float} (h : x.isFinite = true) : (x == x) = true := by
  change x.toModel.unpack.isFinite = true at h
  change x.toModel.unpack.beq x.toModel.unpack = true
  cases hx : x.toModel.unpack with
  | notANumber =>
    rw [hx] at h
    cases h
  | infinity s =>
    rw [hx] at h
    cases h
  | zero s => rfl
  | finite s m e hm =>
    have same : (compare e e).then (compare m m) = .eq := by simp
    cases s with
    | positive =>
      change (some ((compare e e).then (compare m m)) == some .eq) = true
      rw [same]
      rfl
    | negative =>
      change (some ((compare e e).then (compare m m)).swap == some .eq) = true
      rw [same]
      rfl

theorem RetryOverrides.Writable.beq_self {o : RetryOverrides} (h : o.Writable) :
    (o == o) = true := by
  obtain ⟨retries, delay, maxDelay, factor, jitter⟩ := o
  change instBEqRetryOverrides.beq _ _ = true
  simp only [instBEqRetryOverrides.beq, beq_self_eq_true, Bool.true_and, Bool.and_true]
  cases factor with
  | none => rfl
  | some x => exact float_beq_self (h x rfl)

theorem RetryOverrides.writable_of_arriving {o : RetryOverrides}
    (h : (o.arriving == o) = true) : o.Writable := by
  obtain ⟨retries, delay, maxDelay, factor, jitter⟩ := o
  change instBEqRetryOverrides.beq _ _ = true at h
  simp only [instBEqRetryOverrides.beq, arriving, Bool.and_eq_true] at h
  rintro x rfl
  by_contra hx
  rw [Option.filter_some_neg (Bool.eq_false_iff.2 hx)] at h
  cases h.2.2.2.1

theorem RequestRecord.beq_iff {r r' : RequestRecord} :
    (r == r') = true ↔ r.requestId = r'.requestId ∧ r.correlationId = r'.correlationId ∧
      r.timeout = r'.timeout ∧ (r.retry == r'.retry) = true ∧ r.url = r'.url ∧
      r.headers.entries.Perm r'.headers.entries ∧ r.method = r'.method ∧ r.kind = r'.kind ∧
      r.text = r'.text ∧ r.bytes = r'.bytes ∧ r.parts = r'.parts := by
  obtain ⟨⟩ := r
  obtain ⟨⟩ := r'
  change instBEqRequestRecord.beq _ _ = true ↔ _
  simp only [instBEqRequestRecord.beq, Bool.and_eq_true, beq_iff_eq, OrderedMap.beq_iff_perm]

theorem RequestRecord.sorted_beq (r : RequestRecord) (h : r.retry.Writable) :
    (r.sorted == r) = true :=
  beq_iff.2 ⟨rfl, rfl, rfl, h.beq_self, rfl, r.headers.sorted_perm, rfl, rfl, rfl, rfl, rfl⟩

theorem ResponseRecord.sorted_beq (r : ResponseRecord) : (r.sorted == r) = true := by
  obtain ⟨⟩ := r
  change instBEqResponseRecord.beq _ _ = true
  simp only [instBEqResponseRecord.beq, ResponseRecord.sorted, beq_self_eq_true, Bool.true_and,
    OrderedMap.beq_iff_perm, OrderedMap.sorted_perm]

theorem ExchangeRecord.beq_iff {r r' : ExchangeRecord} :
    (r == r') = true ↔ r.duration = r'.duration ∧ r.moment = r'.moment ∧
      r.attempts = r'.attempts ∧ r.success = r'.success ∧ (r.request == r'.request) = true ∧
      (r.response == r'.response) = true := by
  obtain ⟨⟩ := r
  obtain ⟨⟩ := r'
  change instBEqExchangeRecord.beq _ _ = true ↔ _
  simp only [instBEqExchangeRecord.beq, Bool.and_eq_true, beq_iff_eq]

theorem ExchangeRecord.arriving_beq (r : ExchangeRecord) (h : r.request.retry.Writable) :
    (r.arriving == { r with moment := r.moment.arriving }) = true := by
  have hrequest : (r.request.arriving == r.request) = true := by
    rw [r.request.arriving_of_writable h]
    exact r.request.sorted_beq h
  exact beq_iff.2 ⟨rfl, rfl, rfl, rfl, hrequest, r.response.sorted_beq⟩

theorem ExchangeRecord.arriving_beq_iff (r : ExchangeRecord) (h : r.request.retry.Writable) :
    (r.arriving == r) = true ↔ r.moment.Writable := by
  obtain ⟨-, -, -, -, hrequest, hresponse⟩ := beq_iff.1 (r.arriving_beq h)
  rw [beq_iff, ← Moment.arriving_eq_iff]
  exact ⟨fun same => same.2.1, fun same => ⟨rfl, same, rfl, rfl, hrequest, hresponse⟩⟩

-- ---------------------------------------------------------------------------
-- Exchanges
-- ---------------------------------------------------------------------------

theorem Method.ofText?_name (m : Method) : Method.ofText? m.name = some m :=
  Method.ofText?_eq_some_iff.2 (by cases m <;> decide)

theorem RequestRecord.body?_ofRequest (q : Request) : (ofRequest q).body? = .ok q.body := by
  cases hq : q.body <;> simp [ofRequest, body?, hq, Body.kind, hasText, hasBytes, hasParts]

theorem RequestRecord.toRequest_ofRequest (q : Request) : (ofRequest q).toRequest = .ok q := by
  have method : Method.ofText? (ofRequest q).method = some q.method := Method.ofText?_name q.method
  obtain ⟨requestId, correlationId, url, verb, headers, timeout, retry, body, addressed⟩ := q
  simp only [toRequest, method, body?_ofRequest, bind, Except.bind, Draft.build]
  cases body <;> simp [Draft.setBody, Draft.body?, ofRequest, addressed, Except.map]

theorem Request.beq_self (q : Request) (h : q.retry.Writable) : (q == q) = true :=
  beq_iff.2 ⟨rfl, rfl, rfl, rfl, .refl _, rfl, h.beq_self, rfl⟩

def Request.sorted (q : Request) : Request :=
  { q with headers := q.headers.sorted }

theorem Request.sorted_beq (q : Request) (h : q.retry.Writable) : (q.sorted == q) = true :=
  beq_iff.2 ⟨rfl, rfl, rfl, rfl, q.headers.sorted_perm, rfl, h.beq_self, rfl⟩

def Exchange.sorted (x : Exchange) : Exchange :=
  { x with
    request := x.request.sorted
    response := { x.response with headers := x.response.headers.sorted } }

theorem Exchange.sorted_beq (x : Exchange) (h : x.request.retry.Writable) :
    (x.sorted == x) = true := by
  have answered : (x.sorted.response == x.response) = true :=
    Response.beq_iff.2 ⟨rfl, rfl, rfl, x.response.headers.sorted_perm⟩
  exact beq_iff.2 ⟨x.request.sorted_beq h, answered, rfl, rfl, rfl, rfl⟩

/-- The exchange that is written: without a factor that has no numeral, and at a moment that has a
text of its own. -/
def Exchange.written (x : Exchange) : Exchange :=
  { x with
    request := { x.request with retry := x.request.retry.arriving }
    moment := x.moment.arriving }

theorem Exchange.sorted_written_beq (x : Exchange) (h : x.request.retry.Writable) :
    (x.written.sorted == { x with moment := x.moment.arriving }) = true := by
  have hwritten : x.written = { x with moment := x.moment.arriving } := by
    rw [written, RetryOverrides.arriving_of_writable h]
  rw [hwritten]
  exact sorted_beq _ h

theorem Exchange.sorted_written_beq_iff (x : Exchange) :
    (x.written.sorted == x) = true ↔ x.request.retry.Writable ∧ x.moment.Writable := by
  constructor
  · intro hbeq
    obtain ⟨hrequest, -, -, hmoment, -⟩ := beq_iff.1 hbeq
    obtain ⟨-, -, -, -, -, -, hretry, -⟩ := Request.beq_iff.1 hrequest
    exact ⟨RetryOverrides.writable_of_arriving hretry, Moment.arriving_eq_iff.1 hmoment⟩
  · rintro ⟨hretry, hmoment⟩
    have hsame : x.written = x := by
      rw [written, RetryOverrides.arriving_of_writable hretry, Moment.arriving_eq_iff.2 hmoment]
    rw [hsame]
    exact x.sorted_beq hretry

theorem Exchange.moment_of_acknowledge {x : Exchange} (h : x.acknowledge = .ok a) :
    a.moment = x.moment := by
  rw [acknowledge] at h
  split at h
  · cases h
  · cases h
  · cases h
    rfl

theorem Exchange.of_eq (request : Request) (response : Response) (duration : UInt64)
    (moment : Moment) (attempts : UInt32) (success : Bool) (h : attempts ≠ 0) :
    Exchange.of request response duration moment attempts success =
      ⟨request, response, duration, moment, attempts, success, h⟩ := by
  unfold Exchange.of
  congr
  exact if_neg h

theorem ExchangeRecord.toExchange_ofExchange (x : Exchange) (h : x.response.status ≠ 0) :
    (ofExchange x).sorted.toExchange = .ok x.sorted := by
  have request : (ofExchange x).sorted.request.toRequest = .ok x.request.sorted :=
    RequestRecord.toRequest_ofRequest x.request.sorted
  have response : (ofExchange x).sorted.response.toResponse =
      .ok { x.response with headers := x.response.headers.sorted } := if_neg h
  simp only [toExchange, request, response, bind, Except.bind]
  exact congrArg Except.ok (Exchange.of_eq _ _ _ _ _ _ x.attempted)

theorem ExchangeRecord.toExchange_of_unanswered (x : Exchange) (h : x.response.status = 0) :
    (ofExchange x).sorted.toExchange =
      .error (.invalid "response status code must be positive") := by
  have request : (ofExchange x).sorted.request.toRequest = .ok x.request.sorted :=
    RequestRecord.toRequest_ofRequest x.request.sorted
  have response : (ofExchange x).sorted.response.toResponse =
      .error (.invalid "response status code must be positive") := if_pos h
  simp only [toExchange, request, response, bind, Except.bind]

-- ---------------------------------------------------------------------------
-- What is left out
-- ---------------------------------------------------------------------------

namespace RequestRecord

def leftOut (r : RequestRecord) : List String :=
  ([("requestId", r.requestId.isNone), ("correlationId", r.correlationId.isNone),
    ("timeoutInMs", r.timeout.isNone), ("retries", r.retry.retries.isNone),
    ("retryDelayInMs", r.retry.delay.isNone), ("retryMaxDelayInMs", r.retry.maxDelay.isNone),
    ("retryDelayFactor", r.retry.factor.isNone), ("retryJitter", r.retry.jitter.isNone),
    ("bodyAsString", r.text.isNone), ("bodyAsByteArray", r.bytes.isNone),
    ("bodyAsMultipart", r.parts.isEmpty)].filter Prod.snd).map Prod.fst

theorem get?_leftOut (r : RequestRecord) (h : r.retry.Writable) (hname : name ∈ r.leftOut) :
    (form.encode r).canonical.get? name = none := by
  rw [form, (r.fields_returns h).get?_encode]
  simp only [leftOut, List.mem_map, List.mem_filter, Prod.exists, exists_and_right, exists_eq_right,
    List.mem_cons, Prod.mk.injEq, List.not_mem_nil, or_false] at hname
  rcases hname with ⟨rfl, hnone⟩ | ⟨rfl, hnone⟩ | ⟨rfl, hnone⟩ | ⟨rfl, hnone⟩ | ⟨rfl, hnone⟩ |
    ⟨rfl, hnone⟩ | ⟨rfl, hnone⟩ | ⟨rfl, hnone⟩ | ⟨rfl, hnone⟩ | ⟨rfl, hnone⟩ | ⟨rfl, hnone⟩
  all_goals
    change (Fields.arriving (Fields.cons _ _) _).lookup _ = none
    simp [Fields.Returns.lookup_arriving_cons, Fields.Returns.lookup_arriving_nil,
      Field.optional, Field.required, Field.defaulted, Field.items, Field.arriving, ← hnone]

end RequestRecord

-- ---------------------------------------------------------------------------
-- Over the wire
-- ---------------------------------------------------------------------------

namespace ExchangeRecord

/-- An exchange with a response comes back, and so does every record: equal exactly if the moment
has a text of its own, and otherwise equal but for the moment. The members that a record has nothing
for are not in the value that it comes back from. -/
theorem comes_back_equal_iff :
    (∀ x : Exchange, x.response.status ≠ 0 → x.request.retry.Writable →
      ∃ r y, ofValue (ofExchange x).toValue = .ok r ∧ r.toExchange = .ok y ∧
        ((y == x) = true ↔ x.moment.Writable) ∧
        (y == { x with moment := x.moment.arriving }) = true) ∧
    ∀ r : ExchangeRecord, r.request.retry.Writable →
      (∃ r', ofValue r.toValue = .ok r' ∧ ((r' == r) = true ↔ r.moment.Writable) ∧
        (r' == { r with moment := r.moment.arriving }) = true) ∧
      ∃ q, r.toValue.get? "httpRequest" = some q ∧
        ∀ name ∈ r.request.leftOut, q.get? name = none := by
  refine ⟨fun x answered writable => ?_, fun r writable => ⟨?_, ?_⟩⟩
  · have hback : ofValue (ofExchange x).toValue = .ok (ofExchange x.written).sorted :=
      (ofExchange x).ofValue_toValue
    have hequal : (x.written.sorted == x) = true ↔ x.moment.Writable :=
      x.sorted_written_beq_iff.trans (and_iff_right writable)
    exact ⟨_, _, hback, toExchange_ofExchange x.written answered, hequal,
      x.sorted_written_beq writable⟩
  · exact ⟨_, r.ofValue_toValue, r.arriving_beq_iff writable, r.arriving_beq writable⟩
  · refine ⟨(RequestRecord.form.encode r.request).canonical, ?_, ?_⟩
    · rw [toValue, form, r.fields_returns.get?_encode]
      rfl
    · exact fun name left => r.request.get?_leftOut writable left

def leapExchange : Exchange where
  request :=
    { requestId := none
      correlationId := some "c-1"
      url := "http://localhost"
      method := .post
      headers := ⟨[("X-None", []), ("Accept", ["text/plain", "*/*"])], by decide⟩
      timeout := some 2000
      retry := { factor := some 1.5 }
      body := .parts [[], [0, 159, 146, 150]]
      addressed := by decide }
  response := ⟨503, "busy", "", .empty⟩
  duration := 12
  moment := ⟨⟨2016, 12, 31, by decide, by decide, by decide⟩, 23, 59, 59, 1500000000, by decide,
    by decide, by decide, by decide⟩
  attempts := 3
  success := false
  attempted := by decide

theorem writable_leapExchange : leapExchange.request.retry.Writable := by
  rintro x ⟨⟩
  decide +kernel

theorem leapExchange_over_wire :
    (leapExchange.response.status ≠ 0 ∧ leapExchange.request.retry.Writable) ∧
      (∃ r y, ofValue (ofExchange leapExchange).toValue = .ok r ∧ r.toExchange = .ok y ∧
        (y == leapExchange) = true) ∧
      ∃ r, ofValue (ofExchange leapExchange).toValue = .ok r ∧
        (r == ofExchange leapExchange) = true := by
  have answered : leapExchange.response.status ≠ 0 := by decide
  have regular : leapExchange.moment.Writable := by decide
  obtain ⟨hexchange, hrecord⟩ := comes_back_equal_iff
  obtain ⟨r, y, hr, hy, hequal, -⟩ := hexchange leapExchange answered writable_leapExchange
  obtain ⟨⟨r', hr', hequal', -⟩, -⟩ := hrecord (ofExchange leapExchange) writable_leapExchange
  exact ⟨⟨answered, writable_leapExchange⟩, ⟨r, y, hr, hy, hequal.2 regular⟩,
    r', hr', hequal'.2 regular⟩

/-- The same exchange at a leap second inside a minute. -/
def strayExchange : Exchange :=
  { leapExchange with
    moment := ⟨⟨2016, 12, 31, by decide, by decide, by decide⟩, 23, 56, 4, 1333333333, by decide,
      by decide, by decide, by decide⟩ }

theorem strayExchange_comes_back_later :
    (strayExchange.response.status ≠ 0 ∧ strayExchange.request.retry.Writable) ∧
      ∃ r y, ofValue (ofExchange strayExchange).toValue = .ok r ∧ r.toExchange = .ok y ∧
        (y == strayExchange) = false ∧ (r == ofExchange strayExchange) = false ∧
        (y.moment.second, y.moment.nano) = (5, 333333333) := by
  have answered : strayExchange.response.status ≠ 0 := by decide
  have stray : ¬ strayExchange.moment.Writable := by decide
  have hrecord := (ofExchange strayExchange).arriving_beq_iff writable_leapExchange
  refine ⟨⟨answered, writable_leapExchange⟩, _, _, ofValue_toValue _,
    toExchange_ofExchange strayExchange.written answered, ?_, ?_, rfl⟩
  · rw [Bool.eq_false_iff, ne_eq, Exchange.sorted_written_beq_iff]
    exact fun both => stray both.2
  · rw [Bool.eq_false_iff, ne_eq, hrecord]
    exact stray

end ExchangeRecord

end Courier
