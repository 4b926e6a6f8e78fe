import Courier.Http.Body
import Courier.Http.Headers
import Courier.Http.Method
import Courier.Http.Rejection

/-!
# Requests and their drafts

A request describes one outbound call and never changes. It is built from a draft, which takes
its parts in any order; building checks them. Reopening a request gives a draft that builds it
again.
-/

namespace Courier

/-- What a request changes in the configured retry policy. -/
structure RetryOverrides where
  retries : Option UInt32 := none
  delay : Option UInt64 := none
  maxDelay : Option UInt64 := none
  factor : Option Float := none
  jitter : Option UInt64 := none
deriving BEq, Inhabited

def RetryOverrides.isEmpty (o : RetryOverrides) : Bool :=
  o == {}

structure Request where
  requestId : Option String
  correlationId : Option String
  url : String
  method : Method
  headers : Headers
  timeout : Option UInt64
  retry : RetryOverrides
  body : Body
  addressed : Text.allBlank url = false

instance : BEq Request where
  beq a b :=
    a.requestId == b.requestId && a.correlationId == b.correlationId && a.url == b.url &&
      a.method == b.method && a.headers == b.headers && a.timeout == b.timeout &&
      a.retry == b.retry && a.body == b.body

/-- A request in the making. Each representation of the body has a place of its own. -/
structure Draft where
  requestId : Option String := none
  correlationId : Option String := none
  url : Option String := none
  method : Option Method := none
  headers : Headers := .empty
  timeout : Option UInt64 := none
  retry : RetryOverrides := {}
  text : Option String := none
  bytes : Option Bytes := none
  parts : Option (List Bytes) := none

inductive Step where
  | url (s : String)
  | method (m : Method)
  | requestId (s : String)
  | correlationId (s : String)
  | header (name value : String)
  | headers (h : Headers)
  | defaultHeader (name value : String)
  | timeout (ms : UInt64)
  | retry (o : RetryOverrides)
  | body (b : Body)

namespace Draft

def setBody (d : Draft) : Body → Draft
  | .text s => { d with text := some s }
  | .bytes b => { d with bytes := some b }
  | .parts ps => { d with parts := some ps }

def step (d : Draft) : Step → Draft
  | .url s => { d with url := some s }
  | .method m => { d with method := some m }
  | .requestId s => { d with requestId := some s }
  | .correlationId s => { d with correlationId := some s }
  | .header name value => { d with headers := d.headers.append name value }
  | .headers h => { d with headers := h }
  | .defaultHeader name value => { d with headers := d.headers.appendDefault name value }
  | .timeout ms => { d with timeout := some ms }
  | .retry o => { d with retry := o }
  | .body b => d.setBody b

def steps (d : Draft) (ss : List Step) : Draft :=
  ss.foldl step d

/-- The one body given, the empty text if there is none. -/
def body? (d : Draft) : Except Rejection Body :=
  match d.text, d.bytes, d.parts with
  | none, none, none => .ok (.text "")
  | some s, none, none => .ok (.text s)
  | none, some b, none => .ok (.bytes b)
  | none, none, some ps => .ok (.parts ps)
  | _, _, _ => .error .ambiguousBody

/-- The address is looked at first, then the method, then the body. -/
def build (d : Draft) : Except Rejection Request :=
  match d.url with
  | none => .error (.missing "url")
  | some url =>
    if blank : Text.allBlank url then .error (.missing "url")
    else match d.method with
      | none => .error (.missing "method")
      | some method =>
        d.body?.map fun body =>
          { requestId := d.requestId
            correlationId := d.correlationId
            url, method
            headers := d.headers
            timeout := d.timeout
            retry := d.retry
            body
            addressed := by simpa using blank }

end Draft

def Request.reopen (r : Request) : Draft :=
  Draft.setBody
    { requestId := r.requestId
      correlationId := r.correlationId
      url := some r.url
      method := some r.method
      headers := r.headers
      timeout := r.timeout
      retry := r.retry }
    r.body

end Courier
