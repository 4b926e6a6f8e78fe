import Courier.Json.Document
import Courier.Json.Codec

/-!
# Records of the streams

An inbound record carries a request record as its value; an outbound one names the schema of its
value. Inbound records are read from text that may hold more than anybody asks for.
-/

namespace Courier

open Json

structure RecordHeader where
  key : String
  value : String
deriving DecidableEq

structure InboundRecord where
  topic : String
  key : Option String
  headers : List RecordHeader
  value : Option Value

structure OutboundRecord where
  topic : String
  key : Option String
  schema : String
  schemaVersion : UInt32
  value : Value

namespace RecordHeader

def form : Codec RecordHeader :=
  (Fields.as
    (.cons (.required "key" Codec.text) <|
      .cons (.required "value" Codec.text) <| .nil)
    (fun (key, value, ()) => { key, value })
    (fun h => (h.key, h.value, ()))).codec "RecordHeader"

def ofDocument? (d : Document) : Option RecordHeader := do
  let parts ← d.parts? ["key", "value"]
  let key ← parts.get? 0 "key"
  let value ← parts.get? 1 "value"
  return ⟨← key.string?, ← value.string?⟩

end RecordHeader

def textOrNull? : Document → Option (Option String)
  | .null => some none
  | d => d.string?.map some

namespace InboundRecord

/-- A record without headers. Even `null` is a value here. -/
def of (topic : String) (value : Value) : InboundRecord :=
  ⟨topic, none, [], some value⟩

def withHeader (r : InboundRecord) (key value : String) : InboundRecord :=
  { r with headers := r.headers ++ [⟨key, value⟩] }

/-- The last of the headers of that name. -/
def header? (r : InboundRecord) (key : String) : Option String :=
  (r.headers.reverse.find? (·.key == key)).map (·.value)

def form : Codec InboundRecord :=
  (Fields.as
    (.cons (.required "topic" Codec.text) <|
      .cons (.optional "key" Codec.text) <|
      .cons (.items "headers" RecordHeader.form.list) <|
      .cons (.defaulted "value" Codec.value.nullable none) <| .nil)
    (fun (topic, key, headers, value, ()) => { topic, key, headers, value })
    (fun r => (r.topic, r.key, r.headers, r.value, ()))).codec "SinkRecord"

def readHeaders? : Document → Option (List RecordHeader)
  | .array items => items.mapM RecordHeader.ofDocument?
  | _ => none

def readValue? : Document → Option (Option Value)
  | .null => some none
  | d => (d.keep? 1).map some

def ofDocument? (d : Document) : Option InboundRecord := do
  let parts ← d.parts? ["topic", "key", "headers", "value"]
  let topic ← (← parts.get? 0 "topic").string?
  let key ← ((parts.get? 1 "key").map textOrNull?).getD (some none)
  let headers ← ((parts.get? 2 "headers").map readHeaders?).getD (some [])
  let value ← ((parts.get? 3 "value").map readValue?).getD (some none)
  return ⟨topic, key, headers, value⟩

def ofText? (s : String) : Option InboundRecord :=
  (Document.ofText? s).bind ofDocument?

end InboundRecord

namespace OutboundRecord

def form : Codec OutboundRecord :=
  (Fields.as
    (.cons (.required "topic" Codec.text) <|
      .cons (.optional "key" Codec.text) <|
      .cons (.required "schema" Codec.text) <|
      .cons (.required "schema_version" Codec.word32) <|
      .cons (.required "value" Codec.value) <| .nil)
    (fun (topic, key, schema, schemaVersion, value, ()) =>
      { topic, key, schema, schemaVersion, value })
    (fun r => (r.topic, r.key, r.schema, r.schemaVersion, r.value, ()))).codec "SourceRecord"

def text (r : OutboundRecord) : String :=
  (form.encode r).text

def lines (rs : List OutboundRecord) : String :=
  String.ofList (rs.flatMap fun r => r.text.toList ++ ['\n'])

def word32? : Document → Option UInt32
  | .number n =>
    match n.toNumber? with
    | some number => (Codec.word32.decode (.number number)).toOption
    | none => none
  | _ => none

def ofDocument? (d : Document) : Option OutboundRecord := do
  let parts ← d.parts? ["topic", "key", "schema", "schema_version", "value"]
  let topic ← (← parts.get? 0 "topic").string?
  let key ← ((parts.get? 1 "key").map textOrNull?).getD (some none)
  let schema ← (← parts.get? 2 "schema").string?
  let schemaVersion ← word32? (← parts.get? 3 "schema_version")
  let value ← (← parts.get? 4 "value").keep? 1
  return ⟨topic, key, schema, schemaVersion, value⟩

def ofText? (s : String) : Option OutboundRecord :=
  (Document.ofText? s).bind ofDocument?

end OutboundRecord

end Courier
