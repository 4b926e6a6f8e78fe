import Courier.Record.Forms

/-!
# Request records

The wire form of a request. The body stands in the member that its kind names; the other body
members must be absent or empty.
-/

namespace Courier

structure RequestRecord where
  requestId : Option String
  correlationId : Option String
  timeout : Option UInt64
  retry : RetryOverrides
  url : String
  headers : Headers
  method : String
  kind : BodyKind
  text : Option String
  bytes : Option Bytes
  parts : List Bytes
deriving BEq

namespace RequestRecord

open Json

def fields : Fields RequestRecord :=
  Fields.as
    (.cons (.optional "requestId" Codec.text) <|
      .cons (.optional "correlationId" Codec.text) <|
      .cons (.optional "timeoutInMs" Codec.word64) <|
      .cons (.optional "retries" Codec.word32) <|
      .cons (.optional "retryDelayInMs" Codec.word64) <|
      .cons (.optional "retryMaxDelayInMs" Codec.word64) <|
      .cons (.optional "retryDelayFactor" Codec.double) <|
      .cons (.optional "retryJitter" Codec.word64) <|
      .cons (.required "url" Codec.text) <|
      .cons (.defaulted "headers" Forms.headers .empty) <|
      .cons (.required "method" Codec.text) <|
      .cons (.defaulted "bodyType" Forms.bodyKind .text) <|
      .cons (.optional "bodyAsString" Codec.text) <|
      .cons (.optional "bodyAsByteArray" Forms.bytes) <|
      .cons (.items "bodyAsMultipart" Forms.parts) <| .nil)
    (fun (requestId, correlationId, timeout, retries, delay, maxDelay, factor, jitter, url,
        headers, method, kind, text, bytes, parts, ()) =>
      { requestId, correlationId, timeout, url, headers, method, kind, text, bytes, parts
        retry := { retries, delay, maxDelay, factor, jitter } })
    (fun r =>
      (r.requestId, r.correlationId, r.timeout, r.retry.retries, r.retry.delay, r.retry.maxDelay,
        r.retry.factor, r.retry.jitter, r.url, r.headers, r.method, r.kind, r.text, r.bytes,
        r.parts, ()))

def form : Codec RequestRecord :=
  fields.codec "HttpRequestRecord"

def ofRequest (r : Request) : RequestRecord where
  requestId := r.requestId
  correlationId := r.correlationId
  timeout := r.timeout
  retry := r.retry
  url := r.url
  headers := r.headers
  method := r.method.name
  kind := r.body.kind
  text := match r.body with
    | .text s => some s
    | _ => none
  bytes := match r.body with
    | .bytes b => some b
    | _ => none
  parts := match r.body with
    | .parts ps => ps
    | _ => []

def hasText (r : RequestRecord) : Bool := r.text.any (!·.isEmpty)

def hasBytes (r : RequestRecord) : Bool := r.bytes.any (!·.isEmpty)

def hasParts (r : RequestRecord) : Bool := !r.parts.isEmpty

/-- The member that the kind names, empty if it is absent. -/
def body? (r : RequestRecord) : Except Rejection Body :=
  match r.kind with
  | .text =>
    if r.hasBytes || r.hasParts then .error .ambiguousBody else .ok (.text (r.text.getD ""))
  | .bytes =>
    if r.hasText || r.hasParts then .error .ambiguousBody else .ok (.bytes (r.bytes.getD []))
  | .parts =>
    if r.hasText || r.hasBytes then .error .ambiguousBody else .ok (.parts r.parts)

def toRequest (r : RequestRecord) : Except Rejection Request := do
  let method ← match Method.ofText? r.method with
    | some m => .ok m
    | none => .error (.unsupportedMethod r.method)
  let body ← r.body?
  let draft : Draft :=
    { requestId := r.requestId
      correlationId := r.correlationId
      url := some r.url
      method := some method
      headers := r.headers
      timeout := r.timeout
      retry := r.retry }
  (draft.setBody body).build

end RequestRecord

end Courier
