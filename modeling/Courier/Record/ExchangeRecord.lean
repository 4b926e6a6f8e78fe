import Courier.Record.RequestRecord

/-!
# Exchange records and acknowledgements on the wire
-/

namespace Courier

structure ResponseRecord where
  status : UInt16
  message : String
  body : String
  headers : Headers
deriving BEq

structure ExchangeRecord where
  duration : UInt64
  moment : Moment
  attempts : UInt32
  success : Bool
  request : RequestRecord
  response : ResponseRecord
deriving BEq

open Json

namespace ResponseRecord

def fields : Fields ResponseRecord :=
  Fields.as
    (.cons (.required "statusCode" Codec.word16) <|
      .cons (.defaulted "statusMessage" Codec.text "") <|
      .cons (.defaulted "responseBody" Codec.text "") <|
      .cons (.defaulted "responseHeaders" Forms.headers .empty) <| .nil)
    (fun (status, message, body, headers, ()) => { status, message, body, headers })
    (fun r => (r.status, r.message, r.body, r.headers, ()))

def form : Codec ResponseRecord :=
  fields.codec "HttpResponseRecord"

def ofResponse (r : Response) : ResponseRecord :=
  ⟨r.status, r.message, r.body, r.headers⟩

def toResponse (r : ResponseRecord) : Except Rejection Response :=
  if r.status = 0 then .error (.invalid "response status code must be positive")
  else .ok ⟨r.status, r.message, r.body, r.headers⟩

end ResponseRecord

namespace ExchangeRecord

def fields : Fields ExchangeRecord :=
  Fields.as
    (.cons (.required "durationInMillis" Codec.word64) <|
      .cons (.required "moment" Forms.moment) <|
      .cons (.required "attempts" Codec.word32) <|
      .cons (.required "success" Codec.boolean) <|
      .cons (.required "httpRequest" RequestRecord.form) <|
      .cons (.required "httpResponse" ResponseRecord.form) <| .nil)
    (fun (duration, moment, attempts, success, request, response, ()) =>
      { duration, moment, attempts, success, request, response })
    (fun r => (r.duration, r.moment, r.attempts, r.success, r.request, r.response, ()))

def form : Codec ExchangeRecord :=
  fields.codec "HttpExchangeRecord"

def ofExchange (x : Exchange) : ExchangeRecord :=
  ⟨x.duration, x.moment, x.attempts, x.success, .ofRequest x.request, .ofResponse x.response⟩

def toExchange (r : ExchangeRecord) : Except Rejection Exchange := do
  let request ← r.request.toRequest
  let response ← r.response.toResponse
  return .of request response r.duration r.moment r.attempts r.success

def toValue (r : ExchangeRecord) : Value :=
  (form.encode r).canonical

def ofValue (v : Value) : Except Rejection ExchangeRecord :=
  (form.decode v).mapError .undecodable

end ExchangeRecord

namespace Acknowledgement

def fields : Fields Acknowledgement :=
  Fields.as
    (.cons (.required "requestId" Codec.text) <|
      .cons (.required "correlationId" Codec.text) <|
      .cons (.required "statusCode" Codec.word16) <|
      .cons (.required "statusMessage" Codec.text) <|
      .cons (.required "responseHeaders" Forms.headerPairs) <|
      .cons (.required "responseBody" Codec.text) <|
      .cons (.required "requestUri" Codec.text) <|
      .cons (.required "requestHeaders" Forms.headerPairs) <|
      .cons (.required "method" Codec.text) <|
      .cons (.required "requestBody" Codec.text) <|
      .cons (.required "durationMs" Codec.word64) <|
      .cons (.required "moment" Forms.moment) <|
      .cons (.required "attempts" Codec.word32) <|
      .cons (.required "success" Codec.boolean) <| .nil)
    (fun (requestId, correlationId, status, statusMessage, responseHeaders, responseBody,
        requestUrl, requestHeaders, method, requestBody, duration, moment, attempts, success, ()) =>
      { requestId, correlationId, status, statusMessage, responseHeaders, responseBody, requestUrl,
        requestHeaders, method, requestBody, duration, moment, attempts, success })
    (fun a =>
      (a.requestId, a.correlationId, a.status, a.statusMessage, a.responseHeaders, a.responseBody,
        a.requestUrl, a.requestHeaders, a.method, a.requestBody, a.duration, a.moment, a.attempts,
        a.success, ()))

def form : Codec Acknowledgement :=
  fields.codec "Acknowledgement"

def toValue (a : Acknowledgement) : Value :=
  (form.encode a).canonical

end Acknowledgement

end Courier
