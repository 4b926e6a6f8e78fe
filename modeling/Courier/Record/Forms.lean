import Courier.Http.Exchange

/-!
# Written forms of the parts of records

Bytes travel in base 64, moments as text, headers as an object of lists, pairs of headers as
arrays of two.
-/

namespace Courier

namespace Forms

open Json

def decodeBytes (s : String) : Except String Bytes :=
  (Base64.decode s.toList).mapError Base64.Error.message

def bytes : Codec Bytes :=
  Codec.text.refine decodeBytes Base64.text

/-- All elements must be texts before the first of them is decoded. -/
def parts : Codec (List Bytes) :=
  Codec.text.list.refine (·.mapM decodeBytes) (·.map Base64.text)

def moment : Codec Moment where
  encode m := .string m.text
  decode
    | .string s => (Moment.parse s).mapError fun e => .malformed e.message
    | v => .error (.wrongType v "an RFC 3339 formatted date and time string")

def map (c : Codec β) : Codec (OrderedMap β) where
  encode m := .object (m.entries.map fun (key, value) => (key, c.encode value))
  decode
    | .object members => do
      let entries ← members.mapM fun (key, v) => return (key, ← c.decode v)
      return .ofList entries
    | v => .error (.wrongType v "a map")

def headers : Codec Headers :=
  map Codec.text.list

def headerPairs : Codec (List (String × String)) :=
  (Codec.text.pair Codec.text).list

def method : Codec Method :=
  Codec.variant Method.named Method.name

def bodyKind : Codec BodyKind :=
  Codec.variant BodyKind.named BodyKind.name

def retryOverrides : Codec RetryOverrides :=
  (Fields.as
    (.cons (.nullable "retries" Codec.word32) <|
      .cons (.nullable "retry_delay_ms" Codec.word64) <|
      .cons (.nullable "retry_max_delay_ms" Codec.word64) <|
      .cons (.nullable "retry_delay_factor" Codec.double) <|
      .cons (.nullable "retry_jitter_ms" Codec.word64) <| .nil)
    (fun (retries, delay, maxDelay, factor, jitter, ()) =>
      { retries, delay, maxDelay, factor, jitter })
    (fun o => (o.retries, o.delay, o.maxDelay, o.factor, o.jitter, ()))).codec "RetryOverrides"

end Forms

end Courier
