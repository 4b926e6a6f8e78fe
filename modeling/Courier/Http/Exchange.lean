import Courier.Http.Request
import Courier.Moment

/-!
# Exchanges and acknowledgements

An exchange is the outcome of one logical call: its request, the response of the last attempt
and how it went. An acknowledgement is the same, flattened, for those who follow a call by its
ids.
-/

namespace Courier

structure Response where
  status : UInt16
  message : String
  body : String
  headers : Headers
deriving BEq

/-- Stands for the response that an attempt never got. -/
def Response.failure (message : String) : Response :=
  ⟨500, message, "", .empty⟩

structure Exchange where
  request : Request
  response : Response
  /-- Milliseconds that the last attempt took. -/
  duration : UInt64
  /-- When the last attempt began. -/
  moment : Moment
  attempts : UInt32
  success : Bool
  attempted : attempts ≠ 0

namespace Exchange

instance : BEq Exchange where
  beq x y :=
    x.request == y.request && x.response == y.response && x.duration == y.duration &&
      x.moment == y.moment && x.attempts == y.attempts && x.success == y.success

/-- No exchange without an attempt: zero counts as one. -/
def of (request : Request) (response : Response) (duration : UInt64) (moment : Moment)
    (attempts : UInt32) (success : Bool) : Exchange :=
  { request, response, duration, moment, success
    attempts := if attempts = 0 then 1 else attempts
    attempted := by split <;> simp_all }

end Exchange

structure Acknowledgement where
  requestId : String
  correlationId : String
  status : UInt16
  statusMessage : String
  responseHeaders : List (String × String)
  responseBody : String
  requestUrl : String
  requestHeaders : List (String × String)
  method : String
  requestBody : String
  duration : UInt64
  moment : Moment
  attempts : UInt32
  success : Bool
deriving DecidableEq

def Exchange.acknowledge (x : Exchange) : Except Rejection Acknowledgement :=
  match x.request.correlationId, x.request.requestId with
  | none, _ => .error (.missing "correlationId")
  | some _, none => .error (.missing "requestId")
  | some correlationId, some requestId =>
    .ok
      { requestId, correlationId
        status := x.response.status
        statusMessage := x.response.message
        responseHeaders := x.response.headers.flatten
        responseBody := x.response.body
        requestUrl := x.request.url
        requestHeaders := x.request.headers.flatten
        method := x.request.method.name
        requestBody := x.request.body.rendered
        duration := x.duration
        moment := x.moment
        attempts := x.attempts
        success := x.success }

end Courier
