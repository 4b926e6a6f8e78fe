import Courier.Record.StreamRecord
import Courier.Proofs.Json.Codec
import Courier.Proofs.Json.Readable

/-!
# Outbound records on a line

The text of a record is read as the record again, its value apart, which is read as far as its
numbers are. No text has a control character, so every line of the output is a record.
-/

namespace Courier.OutboundRecord

open Json

theorem word32?_document (n : UInt32) :
    word32? (Codec.word32.encode n).document = some n := by
  have hnumeral : (Number.ofUInt64 n.toUInt64).document =
      .number (.ofInt n.toUInt64.toNat) := by
    rw [Number.document, Number.ofUInt64, Number.numeral?_integer]
    rfl
  have hback : Codec.word32.decode (Codec.word32.encode n) = .ok n := Codec.Returns.word32 n
  change word32? (Number.ofUInt64 n.toUInt64).document = _
  rw [hnumeral, word32?, Numeral.toNumber?_ofInt]
  exact congrArg Except.toOption hback

theorem document_encode (r : OutboundRecord) :
    (form.encode r).document = .object ((some "topic", .string (some r.topic)) ::
      ((r.key.map fun key => (some "key", Document.string (some key))).toList ++
        [(some "schema", .string (some r.schema)),
          (some "schema_version", (Codec.word32.encode r.schemaVersion).document),
          (some "value", r.value.document)])) := by
  obtain ⟨topic, key, schema, version, value⟩ := r
  cases key <;> rfl

/-- Whatever reads the text of a record reads its value, and the rest as it is. -/
theorem ofText?_text (r : OutboundRecord) :
    ofText? r.text = (r.value.document.keep? 1).map fun value => { r with value } := by
  rw [ofText?, text, Value.document_of_text, Option.bind_some, document_encode]
  obtain ⟨topic, key, schema, version, value⟩ := r
  cases hkept : value.document.keep? 1 <;> cases key <;>
    simp [ofDocument?, Document.parts?, Document.keepNamed, Document.Parts.get?, List.lookup_cons,
      Document.string?, textOrNull?, word32?_document, hkept]

theorem ofText?_text_eq_some_iff (r : OutboundRecord) (h : r.value.canonical = r.value) :
    ofText? r.text = some r ↔ r.value.Readable (Document.depthLimit - 1) := by
  rw [ofText?_text, ← Value.keep?_eq_some_iff h (by decide), Option.map_eq_some_iff]
  constructor
  · rintro ⟨value, hread, hsame⟩
    have : value = r.value := congrArg OutboundRecord.value hsame
    rwa [this] at hread
  · exact fun hread => ⟨r.value, hread, rfl⟩

-- ---------------------------------------------------------------------------
-- Lines
-- ---------------------------------------------------------------------------

theorem visible_text (r : OutboundRecord) : Visible r.text.toList := by
  rw [text, Value.text, String.toList_ofList]
  exact .value _

theorem text_ne_empty (r : OutboundRecord) : r.text ≠ "" := by
  intro hempty
  have htext : r.text.toList = [] := by rw [hempty]; rfl
  rw [text, Value.text, String.toList_ofList] at htext
  cases htext

theorem splitOn_lines (rs : List OutboundRecord) :
    (lines rs).toList.splitOn '\n' = rs.map (·.text.toList) ++ [[]] := by
  have hlines : (lines rs).toList = ['\n'].intercalate (rs.map (·.text.toList) ++ [[]]) := by
    rw [lines, String.toList_ofList]
    induction rs with
    | nil => rfl
    | cons r rs ih =>
      have hne : rs.map (·.text.toList) ++ [[]] ≠ [] := by simp
      rw [List.flatMap_cons, ih, List.map_cons, List.cons_append,
        List.intercalate_cons_of_ne_nil hne]
  have hwhole : ∀ line ∈ rs.map (·.text.toList) ++ [[]], '\n' ∉ line := by
    intro line hline hfeed
    rw [List.mem_append, List.mem_map, List.mem_singleton] at hline
    rcases hline with ⟨r, -, rfl⟩ | rfl
    · exact absurd (r.visible_text '\n' hfeed) (by decide)
    · cases hfeed
  rw [hlines, List.splitOn_intercalate '\n' hwhole (by simp)]

end Courier.OutboundRecord
