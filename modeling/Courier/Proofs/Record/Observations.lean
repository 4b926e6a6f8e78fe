import Courier.Proofs.Http.Reordering
import Courier.Proofs.Record.RoundTrip

/-!
# What equal exchanges show

Equal exchanges may differ in the order of their header names. A look-up shows it for a name that is
spelled in several ways with different values, and an acknowledgement for names that have values. An
exchange comes back over the wire with its names in ascending order, and at the moment that was
written.
-/

namespace Courier

/-- The same but for the turns that header names take: every name has the same pairs in the same
order. -/
structure Acknowledgement.Reorders (a b : Acknowledgement) : Prop where
  rest : { a with requestHeaders := b.requestHeaders, responseHeaders := b.responseHeaders } = b
  request : ∀ name,
    a.requestHeaders.filter (·.1 == name) = b.requestHeaders.filter (·.1 == name)
  response : ∀ name,
    a.responseHeaders.filter (·.1 == name) = b.responseHeaders.filter (·.1 == name)

theorem Request.values?_of_beq {a b : Request} (h : (a == b) = true)
    (hname : a.headers.Unanimous name) : a.headers.values? name = b.headers.values? name := by
  obtain ⟨-, -, -, -, hheaders, -⟩ := beq_iff.1 h
  exact Headers.values?_of_perm hheaders hname

theorem Request.exists_beq_of_not_unanimous {a : Request} (h : (a == a) = true)
    (hname : ¬ a.headers.Unanimous name) :
    ∃ b : Request, (a == b) = true ∧ a.headers.values? name ≠ b.headers.values? name := by
  obtain ⟨other, hperm, hvalues⟩ := Headers.exists_perm_of_not_unanimous hname
  obtain ⟨-, -, -, -, -, -, hretry, -⟩ := beq_iff.1 h
  exact ⟨{ a with headers := other }, beq_iff.2 ⟨rfl, rfl, rfl, rfl, hperm, rfl, hretry, rfl⟩,
    hvalues⟩

namespace Exchange

-- ---------------------------------------------------------------------------
-- Acknowledgements
-- ---------------------------------------------------------------------------

def SameOrder (x y : Exchange) : Prop :=
  x.request.headers.valued = y.request.headers.valued ∧
    x.response.headers.valued = y.response.headers.valued

def Ascending (x : Exchange) : Prop :=
  x.request.headers.valued.Pairwise (· < ·) ∧ x.response.headers.valued.Pairwise (· < ·)

inductive AcknowledgedAlike (x y : Exchange) : Prop
  | refused (hx : x.acknowledge = .error e) (hy : y.acknowledge = .error e)
  | acknowledged (hx : x.acknowledge = .ok a) (hy : y.acknowledge = .ok b)
    (reorders : a.Reorders b) (same : a = b ↔ x.SameOrder y)

variable {x y : Exchange}

theorem headers_of_acknowledge (h : x.acknowledge = .ok a) :
    a.requestHeaders = x.request.headers.flatten ∧
      a.responseHeaders = x.response.headers.flatten := by
  rw [acknowledge] at h
  split at h
  · cases h
  · cases h
  · cases h
    exact ⟨rfl, rfl⟩

theorem acknowledge_of_beq (h : (x == y) = true) :
    y.acknowledge = x.acknowledge.map fun a =>
      { a with
        requestHeaders := y.request.headers.flatten
        responseHeaders := y.response.headers.flatten } := by
  obtain ⟨hrequest, hresponse, hduration, hmoment, hattempts, hsuccess⟩ := beq_iff.1 h
  obtain ⟨hid, hcorrelation, hurl, hmethod, -, -, -, hbody⟩ := Request.beq_iff.1 hrequest
  obtain ⟨hstatus, hmessage, htext, -⟩ := Response.beq_iff.1 hresponse
  simp only [acknowledge, hid, hcorrelation, hurl, hmethod, hbody, hstatus, hmessage, htext,
    hduration, hmoment, hattempts, hsuccess]
  cases y.request.correlationId with
  | none => rfl
  | some correlationId => cases y.request.requestId <;> rfl

theorem acknowledgedAlike_of_beq (h : (x == y) = true) : x.AcknowledgedAlike y := by
  have hy := acknowledge_of_beq h
  obtain ⟨hrequest, hresponse, -⟩ := beq_iff.1 h
  obtain ⟨-, -, -, -, hasked, -⟩ := Request.beq_iff.1 hrequest
  obtain ⟨-, -, -, hanswered⟩ := Response.beq_iff.1 hresponse
  cases hx : x.acknowledge with
  | error e =>
    rw [hx] at hy
    exact .refused hx hy
  | ok a =>
    rw [hx] at hy
    obtain ⟨hrequestHeaders, hresponseHeaders⟩ := headers_of_acknowledge hx
    refine .acknowledged hx hy ⟨rfl, fun name => ?_, fun name => ?_⟩ ?_
    · rw [hrequestHeaders, Headers.filter_flatten, Headers.filter_flatten,
        Headers.valuesOf_of_perm hasked]
    · rw [hresponseHeaders, Headers.filter_flatten, Headers.filter_flatten,
        Headers.valuesOf_of_perm hanswered]
    · rw [SameOrder, ← Headers.flatten_eq_iff hasked, ← Headers.flatten_eq_iff hanswered,
        ← hrequestHeaders, ← hresponseHeaders]
      constructor
      · intro heq
        exact ⟨congrArg Acknowledgement.requestHeaders heq,
          congrArg Acknowledgement.responseHeaders heq⟩
      · rintro ⟨hrequestSame, hresponseSame⟩
        rw [← hrequestSame, ← hresponseSame]

-- ---------------------------------------------------------------------------
-- Over the wire
-- ---------------------------------------------------------------------------

/-- What an exchange is to the one that comes back: its names stand in ascending order, a factor
without a numeral is gone, and a moment without a text of its own is another one. -/
structure Returns (x y : Exchange) : Prop where
  equal : (y == x) = true ↔ x.request.retry.Writable ∧ x.moment.Writable
  lookup : ∀ name, x.request.headers.Unanimous name →
    y.request.headers.values? name = x.request.headers.values? name
  alike : y.AcknowledgedAlike { x with moment := x.moment.arriving }
  same : ∀ a, x.acknowledge = .ok a →
    (y.acknowledge = .ok a ↔ x.Ascending ∧ x.moment.Writable)
  ascending : y.request.headers.keys.Pairwise (· < ·) ∧ y.response.headers.keys.Pairwise (· < ·)
  order : y.SameOrder x ↔ x.Ascending

theorem sameOrder_sorted_written_iff (x : Exchange) :
    x.written.sorted.SameOrder x ↔ x.Ascending :=
  and_congr Headers.valued_sorted_iff Headers.valued_sorted_iff

theorem alike_sorted_written (x : Exchange) :
    x.written.sorted.AcknowledgedAlike { x with moment := x.moment.arriving } := by
  have hbeq : (x.written.sorted == x.written) = true :=
    x.written.sorted_beq x.request.retry.writable_arriving
  cases acknowledgedAlike_of_beq hbeq with
  | refused hy hx => exact .refused hy hx
  | acknowledged hy hx reorders same => exact .acknowledged hy hx reorders same

theorem acknowledge_sorted_written_iff (hx : x.acknowledge = .ok a) :
    x.written.sorted.acknowledge = .ok a ↔ x.Ascending ∧ x.moment.Writable := by
  constructor
  · intro hy
    have hmoment : x.moment.arriving = x.moment :=
      (moment_of_acknowledge hy).symm.trans (moment_of_acknowledge hx)
    have hsame := x.alike_sorted_written
    rw [hmoment] at hsame
    cases hsame with
    | refused hy' => rw [hy] at hy'; cases hy'
    | acknowledged hy' hx' reorders same =>
      rw [hy] at hy'
      rw [hx] at hx'
      cases hy'
      cases hx'
      exact ⟨x.sameOrder_sorted_written_iff.1 (same.1 rfl), Moment.arriving_eq_iff.1 hmoment⟩
  · rintro ⟨hascending, hwritable⟩
    have hsame := x.alike_sorted_written
    rw [Moment.arriving_eq_iff.2 hwritable] at hsame
    cases hsame with
    | refused hy' hx' => rw [hx] at hx'; cases hx'
    | acknowledged hy' hx' reorders same =>
      rw [hx] at hx'
      cases hx'
      rw [hy', same.2 (x.sameOrder_sorted_written_iff.2 hascending)]

theorem returns_sorted_written (x : Exchange) : x.Returns x.written.sorted where
  equal := x.sorted_written_beq_iff
  lookup _ hname := (Headers.values?_of_perm x.request.headers.sorted_perm.symm hname).symm
  alike := x.alike_sorted_written
  same _ := acknowledge_sorted_written_iff
  ascending := ⟨x.request.headers.ascending_sorted, x.response.headers.ascending_sorted⟩
  order := x.sameOrder_sorted_written_iff

theorem over_wire (x : Exchange) :
    ∃ r, ExchangeRecord.ofValue (ExchangeRecord.ofExchange x).toValue = .ok r ∧
      if x.response.status = 0 then
        r.toExchange = .error (.invalid "response status code must be positive")
      else ∃ y, r.toExchange = .ok y ∧ x.Returns y := by
  have hread := (ExchangeRecord.ofExchange x).ofValue_toValue
  refine ⟨(ExchangeRecord.ofExchange x.written).sorted, hread, ?_⟩
  split
  · next hnone => exact ExchangeRecord.toExchange_of_unanswered x.written hnone
  · next hanswered =>
    exact ⟨_, ExchangeRecord.toExchange_ofExchange x.written hanswered, x.returns_sorted_written⟩

/-- Equal requests answer alike for a name whose spellings agree, and for that alone. Equal
exchanges are acknowledged alike. An exchange with a response comes back over the wire. -/
theorem observations_of_beq :
    (∀ a b : Request, (a == b) = true → ∀ name, a.headers.Unanimous name →
      a.headers.values? name = b.headers.values? name) ∧
    (∀ a : Request, (a == a) = true → ∀ name, ¬ a.headers.Unanimous name →
      ∃ b : Request, (a == b) = true ∧ a.headers.values? name ≠ b.headers.values? name) ∧
    (∀ x y : Exchange, (x == y) = true → x.AcknowledgedAlike y) ∧
    ∀ x : Exchange, ∃ r, ExchangeRecord.ofValue (ExchangeRecord.ofExchange x).toValue = .ok r ∧
      if x.response.status = 0 then
        r.toExchange = .error (.invalid "response status code must be positive")
      else ∃ y, r.toExchange = .ok y ∧ x.Returns y := by
  refine ⟨fun a b hbeq name hname => ?_, fun a hself name hname => ?_, fun x y hbeq => ?_,
    over_wire⟩
  · exact Request.values?_of_beq hbeq hname
  · exact Request.exists_beq_of_not_unanimous hself hname
  · exact acknowledgedAlike_of_beq hbeq

/-- A name in small letters in front of the same name in a capital letter. -/
def spelledTwice : Exchange where
  request :=
    { requestId := some "r-1"
      correlationId := some "c-1"
      url := "http://x/y"
      method := .get
      headers := ⟨[("x", ["1"]), ("X", ["2"]), ("Accept", ["*/*"])], by decide⟩
      timeout := none
      retry := {}
      body := .text ""
      addressed := by decide }
  response := ⟨200, "OK", "", .empty⟩
  duration := 1
  moment := ⟨⟨2024, 1, 1, by decide, by decide, by decide⟩, 0, 0, 0, 0, by decide, by decide,
    by decide, by decide⟩
  attempts := 1
  success := true
  attempted := by decide

theorem writable_spelledTwice : spelledTwice.request.retry.Writable :=
  fun x hx => by cases hx

theorem observations_of_spelledTwice :
    ((spelledTwice.sorted.request == spelledTwice.request) = true ∧
      spelledTwice.sorted.request.headers.Unanimous "accept" ∧
      (spelledTwice.request == spelledTwice.request) = true ∧
      ¬ spelledTwice.request.headers.Unanimous "x" ∧
      (spelledTwice.sorted == spelledTwice) = true) ∧
    spelledTwice.sorted.request.headers.values? "accept" =
      spelledTwice.request.headers.values? "accept" ∧
    (∃ b : Request, (spelledTwice.request == b) = true ∧
      spelledTwice.request.headers.values? "x" ≠ b.headers.values? "x") ∧
    spelledTwice.sorted.AcknowledgedAlike spelledTwice := by
  have hbeq := spelledTwice.sorted_beq writable_spelledTwice
  have hrequest := (beq_iff.1 hbeq).1
  have hself := spelledTwice.request.beq_self writable_spelledTwice
  have hone : spelledTwice.sorted.request.headers.Unanimous "accept" := by
    unfold Headers.Unanimous
    decide
  have htwo : ¬ spelledTwice.request.headers.Unanimous "x" := by
    unfold Headers.Unanimous
    decide
  obtain ⟨hlookup, hother, hacknowledged, -⟩ := observations_of_beq
  exact ⟨⟨hrequest, hone, hself, htwo, hbeq⟩, hlookup _ _ hrequest _ hone, hother _ hself _ htwo,
    hacknowledged _ _ hbeq⟩

def unanswered : Exchange :=
  { spelledTwice with response := { spelledTwice.response with status := 0 } }

def boundless : Exchange :=
  { spelledTwice with
    request := { spelledTwice.request with retry := { factor := some (1.0 / 0.0) } } }

theorem sorted_written_boundless_beq : (boundless.written.sorted == boundless) = false := by
  rw [Bool.eq_false_iff, ne_eq, sorted_written_beq_iff]
  rintro ⟨hwritable, -⟩
  have hfinite : (1.0 / 0.0 : Float).isFinite = true := hwritable _ rfl
  revert hfinite
  decide +kernel

def stray : Exchange :=
  { spelledTwice with moment := ExchangeRecord.strayExchange.moment }

theorem sorted_written_stray_beq : (stray.written.sorted == stray) = false := by
  rw [Bool.eq_false_iff, ne_eq, sorted_written_beq_iff]
  rintro ⟨-, hwritable⟩
  revert hwritable
  decide

/-- Over the wire the capital letter comes first. The look-up finds other values then, and the
acknowledgement lists the pairs in another order. Without a status nothing comes back, a factor
without a numeral is lost, and a leap second inside a minute is over. -/
theorem spelledTwice_differs_over_wire :
    (∃ r y, ExchangeRecord.ofValue (ExchangeRecord.ofExchange spelledTwice).toValue = .ok r ∧
      r.toExchange = .ok y ∧ (y == spelledTwice) = true ∧
      (y.request == spelledTwice.request) = true ∧
      spelledTwice.request.headers.values? "x" = some ["1"] ∧
      y.request.headers.values? "x" = some ["2"] ∧
      ∃ a b, spelledTwice.acknowledge = .ok a ∧ y.acknowledge = .ok b ∧
        a.requestHeaders = [("x", "1"), ("X", "2"), ("Accept", "*/*")] ∧
        b.requestHeaders = [("Accept", "*/*"), ("X", "2"), ("x", "1")]) ∧
    (∃ r, ExchangeRecord.ofValue (ExchangeRecord.ofExchange unanswered).toValue = .ok r ∧
      r.toExchange = .error (.invalid "response status code must be positive")) ∧
    (∃ r y, ExchangeRecord.ofValue (ExchangeRecord.ofExchange boundless).toValue = .ok r ∧
      r.toExchange = .ok y ∧ (y == boundless) = false) ∧
    ∃ r y, ExchangeRecord.ofValue (ExchangeRecord.ofExchange stray).toValue = .ok r ∧
      r.toExchange = .ok y ∧ (y == stray) = false := by
  have hbeq := spelledTwice.sorted_beq writable_spelledTwice
  refine ⟨⟨_, spelledTwice.sorted, ExchangeRecord.ofValue_toValue _, ?_, hbeq, ?_, ?_⟩,
    ⟨_, ExchangeRecord.ofValue_toValue _, ?_⟩,
    ⟨_, _, ExchangeRecord.ofValue_toValue _, ?_, sorted_written_boundless_beq⟩,
    _, _, ExchangeRecord.ofValue_toValue _, ?_, sorted_written_stray_beq⟩
  · exact ExchangeRecord.toExchange_ofExchange spelledTwice (by decide)
  · exact (beq_iff.1 hbeq).1
  · exact ⟨by decide, by decide, _, _, rfl, rfl, by decide, by decide⟩
  · exact ExchangeRecord.toExchange_of_unanswered unanswered rfl
  · exact ExchangeRecord.toExchange_ofExchange boundless.written (by decide)
  · exact ExchangeRecord.toExchange_ofExchange stray.written (by decide)

end Exchange

end Courier
