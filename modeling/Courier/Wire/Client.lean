import Courier.Settings.Client
import Courier.Wire.Message

/-!
# The client

Makes one attempt: puts the message together and hands it to a network. Whatever goes wrong
becomes an error of the attempt.
-/

namespace Courier.Wire

inductive Fault where
  | noConnection
  | timedOut
  | broken
deriving Repr, DecidableEq

abbrev Network := Message → Except Fault Response

def Network.unreachable : Network := fun _ => .error .noConnection

def Fault.error (f : Fault) (u : Url) : TransportError :=
  let reason := Message.about "error sending request" u
  match f with
  | noConnection => .connect reason
  | timedOut => .timeout reason
  | broken => .request reason

structure Client where
  settings : ClientSettings

namespace Client

/-- An address of a proxy may lack its scheme. -/
def isProxyAddress (text : String) : Bool :=
  match Url.parse? text with
  | some u => u.hasHost || (Url.parse? ("http://" ++ text)).isSome
  | none => (Url.scheme? (Url.cleaned text.toList)).isNone &&
      (Url.parse? ("http://" ++ text)).isSome

def of (s : ClientSettings) : Except TransportError Client :=
  if isHeaderValue s.userAgent &&
      s.proxy.all (fun p => isProxyAddress p.url && isProxyAddress p.securedUrl) then
    .ok ⟨s⟩
  else .error (.build Message.buildProblem)

def send (c : Client) (net : Network) (boundary : String) (r : Request) :
    Except TransportError Response := do
  let m ← Message.ofRequest c.settings boundary r
  if m.isCallable then
    (net m).mapError (Fault.error · m.url)
  else .error (.build (Message.about Message.buildProblem m.url))

end Client

end Courier.Wire
