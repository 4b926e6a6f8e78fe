import Courier.Proofs.Record.Outbound
import Courier.Proofs.Relay.Acknowledging

/-!
# The relay's output

What a relay gives out is put out a line per record, and the lines are read as the records again.
The only number that need not be read back is the factor between delays of an exchange: its
record is read back if and only if the factor is.
-/

namespace Courier

open Json

-- ---------------------------------------------------------------------------
-- Written forms
-- ---------------------------------------------------------------------------

namespace Forms

theorem moment_writes (m : Moment) : Forms.moment.Writes d m :=
  ⟨Nat.zero_le d, rfl⟩

theorem headers_writes (h : Headers) : Forms.headers.Writes (d + 2) h := by
  refine (Value.readable_object _).2 ⟨d + 1, rfl, fun m hm => ?_⟩
  obtain ⟨e, -, rfl⟩ := List.mem_map.1 hm
  exact Codec.Writes.list fun s _ => .text s

theorem headerPairs_writes (ps : List (String × String)) : Forms.headerPairs.Writes (d + 2) ps :=
  .list fun _ _ => .pair (.text _) (.text _)

end Forms

/-- The factor between delays is read back from its numeral, if it has one. -/
def RetryOverrides.FactorReturns (o : RetryOverrides) : Prop :=
  ∀ f ∈ o.factor, f.isFinite = true →
    parse? (Value.number (.float f)).text = some (.number (.float f))

theorem RequestRecord.form_writes (r : RequestRecord) (h : r.retry.FactorReturns) :
    form.Writes (d + 3) r := by
  have hfactor : ∀ f ∈ r.retry.factor, Codec.double.Writes (d + 2) f := fun f hf =>
    .double fun hfinite => (Value.parse?_number_iff _).1 (h f hf hfinite)
  refine .record (.as ?_)
  exact .cons (.nullable fun s _ => .text s) <|
    .cons (.nullable fun s _ => .text s) <|
    .cons (.nullable fun n _ => .unsigned _ _) <|
    .cons (.nullable fun n _ => .unsigned _ _) <|
    .cons (.nullable fun n _ => .unsigned _ _) <|
    .cons (.nullable fun n _ => .unsigned _ _) <|
    .cons (.nullable hfactor) <|
    .cons (.nullable fun n _ => .unsigned _ _) <|
    .cons (.text _) <|
    .cons (Forms.headers_writes _) <|
    .cons (.text _) <|
    .cons (.variant _ _ _ _) <|
    .cons (.nullable fun s _ => .text s) <|
    .cons (.nullable fun bs _ => .refine (.text _)) <|
    .cons (.refine (.list fun s _ => .text s)) .nil

theorem ResponseRecord.form_writes (r : ResponseRecord) : form.Writes (d + 3) r := by
  refine .record (.as ?_)
  exact .cons (.unsigned _ _) <|
    .cons (.text _) <|
    .cons (.text _) <|
    .cons (Forms.headers_writes _) .nil

theorem ExchangeRecord.form_writes (r : ExchangeRecord) (h : r.request.retry.FactorReturns) :
    form.Writes (d + 4) r := by
  refine .record (.as ?_)
  exact .cons (.unsigned _ _) <|
    .cons (Forms.moment_writes _) <|
    .cons (.unsigned _ _) <|
    .cons (.boolean _) <|
    .cons (r.request.form_writes h) <|
    .cons (r.response.form_writes) .nil

theorem Acknowledgement.form_writes (a : Acknowledgement) : form.Writes (d + 3) a := by
  refine .record (.as ?_)
  exact .cons (.text _) <|
    .cons (.text _) <|
    .cons (.unsigned _ _) <|
    .cons (.text _) <|
    .cons (Forms.headerPairs_writes _) <|
    .cons (.text _) <|
    .cons (.text _) <|
    .cons (Forms.headerPairs_writes _) <|
    .cons (.text _) <|
    .cons (.text _) <|
    .cons (.unsigned _ _) <|
    .cons (Forms.moment_writes _) <|
    .cons (.unsigned _ _) <|
    .cons (.boolean _) .nil

-- ---------------------------------------------------------------------------
-- The factor
-- ---------------------------------------------------------------------------

theorem RequestRecord.get?_factor (r : RequestRecord) {f : Float} (hf : f ∈ r.retry.factor)
    (hfinite : f.isFinite = true) :
    (form.encode r).canonical.get? "retryDelayFactor" = some (.number (.float f)) := by
  rw [form, r.fields_returns_arriving.get?_encode]
  rw [Option.mem_def] at hf
  change (Fields.arriving (Fields.cons _ _) _).lookup _ = _
  simp [Fields.Returns.lookup_arriving_cons, Fields.Returns.lookup_arriving_nil, Field.optional,
    Field.arriving, Codec.nullable, Codec.double, Value.canonical, Field.required, Field.defaulted,
    Field.items, hf, hfinite]

theorem ExchangeRecord.readable_toValue_iff (r : ExchangeRecord) :
    r.toValue.Readable (Document.depthLimit - 1) ↔ r.request.retry.FactorReturns := by
  constructor
  · rintro ⟨-, h⟩ f hf hfinite
    have hrequest : r.toValue.get? "httpRequest" =
        some (RequestRecord.form.encode r.request).canonical := by
      rw [toValue, form, r.fields_returns.get?_encode]
      rfl
    have hfactor := (h.get? hrequest).get? (r.request.get?_factor hf hfinite)
    exact (Value.parse?_number_iff _).2 ((Value.returns_number _).1 hfactor)
  · intro h
    exact (r.form_writes h (d := 122)).canonical

-- ---------------------------------------------------------------------------
-- Lines
-- ---------------------------------------------------------------------------

namespace Relay

variable {s : SourceSettings} {x : Exchange} {record : OutboundRecord}

theorem ofText?_text_recordOf_iff (h : recordOf s x = .ok record) :
    OutboundRecord.ofText? record.text = some record ↔
      (s.format = .exchange → x.request.retry.FactorReturns) := by
  have hcanonical : record.value.canonical = record.value := by
    rcases recordOf_cases h with ⟨-, -, hvalue⟩ | ⟨-, -, a, -, hvalue⟩
    · exact hvalue ▸ Value.canonical_canonical _
    · exact hvalue ▸ Value.canonical_canonical _
  rw [record.ofText?_text_eq_some_iff hcanonical]
  rcases recordOf_cases h with ⟨hformat, -, hvalue⟩ | ⟨hformat, -, a, -, hvalue⟩
  · rw [hvalue, ExchangeRecord.readable_toValue_iff]
    exact ⟨fun hfactor _ => hfactor, fun hfactor => hfactor hformat⟩
  · have hread : a.toValue.Readable (Document.depthLimit - 1) :=
      (a.form_writes (d := 123)).canonical
    rw [hvalue]
    exact iff_of_true hread fun hother => nomatch hformat.symm.trans hother

/-- The output is a line for every record, none of them empty, and every line is read as its
record, unless the factor of an exchange is not read back. Even then the key is the record's. -/
theorem output_lines_read_back (r : Relay) (xs : List Exchange) :
    (OutboundRecord.lines (r.convert xs).1).toList.splitOn '\n' =
        (r.convert xs).1.map (·.text.toList) ++ [[]] ∧
      ∀ record ∈ (r.convert xs).1, record.text ≠ "" ∧
        (∀ found ∈ OutboundRecord.ofText? record.text, found.key = record.key) ∧
        ∃ x ∈ xs, recordOf r.settings x = .ok record ∧
          (OutboundRecord.ofText? record.text = some record ↔
            (r.settings.format = .exchange → x.request.retry.FactorReturns)) := by
  refine ⟨OutboundRecord.splitOn_lines _, fun record hrecord => ?_⟩
  refine ⟨record.text_ne_empty, fun found hfound => ?_, ?_⟩
  · rw [OutboundRecord.ofText?_text] at hfound
    obtain ⟨value, -, rfl⟩ := Option.map_eq_some_iff.1 hfound
    rfl
  · rw [convert_fst] at hrecord
    obtain ⟨x, hx, hsome⟩ := List.mem_filterMap.1 hrecord
    have hok := recordOf?_eq_some_iff.1 hsome
    exact ⟨x, hx, hok, ofText?_text_recordOf_iff hok⟩

/-- Line breaks, quotes and other control characters in every text, and no correlation id. The
factor 1.5 is read back and with it the record; from `1e-23` another double is read. -/
theorem control_characters_read_back :
    let x (factor : Float) : Exchange := { ExchangeRecord.leapExchange with
      request := { ExchangeRecord.leapExchange.request with
        correlationId := none
        body := .text "\"line\r\n\x00\\"
        retry := { factor := some factor } }
      response := ⟨503, "busy\n", "\n\n", .empty⟩ }
    let r : Relay := { settings := { format := .exchange } }
    (∃ record, (r.convert [x 1.5]).1 = [record] ∧ record.key = none ∧
      (OutboundRecord.lines [record]).toList.splitOn '\n' = [record.text.toList, []] ∧
      OutboundRecord.ofText? record.text = some record) ∧
    ∃ record, (r.convert [x 1e-23]).1 = [record] ∧
      OutboundRecord.ofText? record.text ≠ some record := by
  intro x r
  have hreturns : (x 1.5).request.retry.FactorReturns := by
    rintro f ⟨⟩ -
    have hnumeral : (Number.float 1.5).numeral? = some ⟨false, ['1'], some ['5'], none⟩ := by
      decide +kernel
    have hread : Numeral.magnitude? ⟨false, ['1'], some ['5'], none⟩ = some 1.5 := by
      decide +kernel
    rw [Value.parse?_number_iff, Number.Returns, hnumeral]
    simp [Numeral.toNumber?, hread]
  have hdiffers : ¬ (x 1e-23).request.retry.FactorReturns := by
    intro h
    have hnumeral : (Number.float 1e-23).numeral? =
        some ⟨false, ['1'], none, some (true, ['2', '3'])⟩ := by
      decide +kernel
    have hread : Numeral.magnitude? ⟨false, ['1'], none, some (true, ['2', '3'])⟩ ≠
        some 1e-23 := by
      decide +kernel
    have hback := h 1e-23 rfl (by decide +kernel)
    rw [Value.parse?_number_iff, Number.Returns, hnumeral] at hback
    simp [Numeral.toNumber?, hread] at hback
  obtain ⟨hlines, hgood⟩ := output_lines_read_back r [x 1.5]
  obtain ⟨-, hbad⟩ := output_lines_read_back r [x 1e-23]
  obtain ⟨-, -, y, hy, -, hgood⟩ := hgood _ List.mem_cons_self
  obtain ⟨-, -, z, hz, -, hbad⟩ := hbad _ List.mem_cons_self
  rw [List.mem_singleton.1 hy] at hgood
  rw [List.mem_singleton.1 hz] at hbad
  exact ⟨⟨_, rfl, rfl, hlines, hgood.2 fun _ => hreturns⟩,
    ⟨_, rfl, fun h => hdiffers (hbad.1 h rfl)⟩⟩

end Relay

end Courier
