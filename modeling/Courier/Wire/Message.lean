import Courier.Http.Request
import Courier.Retry.Invocation
import Courier.Wire.Url

/-!
# Messages

A request as it goes over the wire: its address normalised, its headers checked and put into small
letters, its body in bytes. Headers are only ever added, so what a request brings itself keeps its
order.
-/

namespace Courier.Wire

/-! ## Headers -/

def isTokenCharacter (c : Char) : Bool :=
  Url.isAsciiLetter c || Decimal.isDigit c ||
    ['!', '#', '$', '%', '&', '\'', '*', '+', '-', '.', '^', '_', '\x60', '|', '~'].contains c

def isHeaderName (name : String) : Bool :=
  !name.isEmpty && name.toList.all isTokenCharacter && name.length < UInt16.size

def isHeaderValue (value : String) : Bool :=
  value.toList.all fun c => c == '\t' || (32 ≤ c.toNat && c.toNat ≠ 127)

abbrev HeaderLine := String × String

/-- The lines of one header; a bad name counts before a bad value, even if there is no value. -/
def headerLines (name : String) (values : List String) : Except TransportError (List HeaderLine) :=
  if !isHeaderName name then .error (.build ("header '" ++ name ++ "': invalid HTTP header name"))
  else if !values.all isHeaderValue then
    .error (.build ("header '" ++ name ++ "': failed to parse header value"))
  else .ok (values.map (Text.lower name, ·))

def linesOf (h : Headers) : Except TransportError (List HeaderLine) :=
  (h.entries.mapM fun (name, values) => headerLines name values).map List.flatten

def basicCredentials (user : List Char) (password : Option (List Char)) : HeaderLine :=
  ("authorization", "Basic " ++ Base64.text (utf8 (user ++ ':' :: password.getD [])))

/-! ## Bodies -/

inductive Payload where
  | nothing
  | bytes (b : Bytes)
  | form (boundary : String) (parts : List Bytes)
deriving DecidableEq

namespace Payload

def lineEnd : Bytes := [13, 10]

def formPart (boundary : String) (place : Nat) (part : Bytes) : Bytes :=
  utf8 ("--" ++ boundary).toList ++ lineEnd ++
    utf8 ("Content-Disposition: form-data; name=\"part" ++ toString place ++ "\"").toList ++
    lineEnd ++ lineEnd ++ part ++ lineEnd

def encode : Payload → Bytes
  | nothing => []
  | bytes b => b
  | form _ [] => []
  | form boundary parts =>
    (parts.zipIdx.flatMap fun (part, place) => formPart boundary place part) ++
      utf8 ("--" ++ boundary ++ "--").toList ++ lineEnd

def lines : Payload → List HeaderLine
  | form boundary parts =>
    [("content-type", "multipart/form-data; boundary=" ++ boundary),
      ("content-length", toString (form boundary parts).encode.length)]
  | _ => []

def ofBody (boundary : String) : Body → Payload
  | .text s => if s.isEmpty then nothing else bytes (utf8 s.toList)
  | .bytes b => bytes b
  | .parts ps => form boundary ps

end Payload

/-! ## Messages -/

structure Message where
  method : Method
  url : Url
  headers : List HeaderLine
  /-- Milliseconds. -/
  timeout : UInt64
  payload : Payload

namespace Message

def values (m : Message) (name : String) : List String :=
  (m.headers.filter fun line => Text.sameName line.1 name).map Prod.snd

def buildProblem : String := "builder error"

def about (problem : String) (u : Url) : String :=
  problem ++ " for url (" ++ u.text ++ ")"

def url? (text : String) : Except TransportError Url :=
  match Url.parse? text with
  | none => .error (.build buildProblem)
  | some u => if u.hasHost then .ok u else .error (.build (about buildProblem u))

/-- The message of a request. Credentials in the address become a line before the request's own;
those of the realm and what a form needs come behind. -/
def ofRequest (settings : ClientSettings) (boundary : String) (r : Request) :
    Except TransportError Message := do
  let own ← linesOf r.headers
  let url ← url? r.url
  let (url, inner) := match url.credentials? with
    | some (user, password) => (url.withoutCredentials, [basicCredentials user password])
    | none => (url, [])
  let outer := match settings.realm.bind Realm.credentials? with
    | some (user, password) => [basicCredentials user.toList (some password.toList)]
    | none => []
  let payload := Payload.ofBody boundary r.body
  return { method := r.method, url, payload
           headers := inner ++ own ++ outer ++ payload.lines
           timeout := r.timeout.getD settings.requestTimeout }

def callableSchemes : List (List Char) := ["http".toList, "https".toList]

def isCallable (m : Message) : Bool :=
  callableSchemes.contains m.url.scheme &&
    (match m.url.host with
      | some (.name cs) => !cs.any ['"', '\x60', '\x7b', '\x7d'].contains
      | _ => true) &&
    m.url.chars.length < UInt16.size - 1

end Message

end Courier.Wire
