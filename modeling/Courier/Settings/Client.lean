import Courier.Record.Forms

/-!
# Settings of the HTTP client

Timeouts, the proxy that calls go through, and the credentials they carry.
-/

namespace Courier

open Json

inductive ProxyKind where
  | http
  | https
  | socks4
  | socks5
deriving Repr, DecidableEq, Inhabited

namespace ProxyKind

def name : ProxyKind → String
  | http => "HTTP"
  | https => "HTTPS"
  | socks4 => "SOCKS_V4"
  | socks5 => "SOCKS_V5"

def scheme : ProxyKind → String
  | http => "http"
  | https => "https"
  | socks4 => "socks4"
  | socks5 => "socks5"

def form (d : Dialect := .json) : Codec ProxyKind :=
  Codec.variant ([http, https, socks4, socks5].map fun k => (k, k.name)) name d

end ProxyKind

structure Proxy where
  host : String
  port : UInt16
  /-- The port for targets over TLS, if it is another one. -/
  securedPort : Option UInt16 := none
  directHosts : String := ""
  kind : ProxyKind := .http
deriving DecidableEq

namespace Proxy

def form (d : Dialect := .json) : Codec Proxy :=
  (Fields.as
    (.cons (.required "host" Codec.text) <|
      .cons (.required "port" Codec.word16) <|
      .cons (.defaulted "secured_port" Codec.word16.nullable none) <|
      .cons (.defaulted "non_proxy_hosts" Codec.text "") <|
      .cons (.defaulted "proxy_type" (ProxyKind.form d) .http) <| .nil)
    (fun (host, port, securedPort, directHosts, kind, ()) =>
      { host, port, securedPort, directHosts, kind })
    (fun p => (p.host, p.port, p.securedPort, p.directHosts, p.kind, ()))).codec "ProxySettings" d

def directHostList (p : Proxy) : List String :=
  ((Text.cutAt ',' p.directHosts.toList).map Text.trimChars).filter (!·.isEmpty)
    |>.map String.ofList

def address (p : Proxy) (port : UInt16) : String :=
  p.kind.scheme ++ "://" ++ p.host ++ ":" ++ toString port.toNat

def url (p : Proxy) : String :=
  p.address p.port

def securedUrl (p : Proxy) : String :=
  p.address (p.securedPort.getD p.port)

end Proxy

inductive AuthScheme where
  | basic
  | digest
  | ntlm
  | spnego
  | kerberos
deriving Repr, DecidableEq, Inhabited

namespace AuthScheme

def name : AuthScheme → String
  | basic => "BASIC"
  | digest => "DIGEST"
  | ntlm => "NTLM"
  | spnego => "SPNEGO"
  | kerberos => "KERBEROS"

def form (d : Dialect := .json) : Codec AuthScheme :=
  Codec.variant ([basic, digest, ntlm, spnego, kerberos].map fun a => (a, a.name)) name d

end AuthScheme

/-- Who calls are made as. Only the credentials are used; the other fields are kept for schemes
that are negotiated elsewhere. -/
structure Realm where
  principal : Option String := none
  password : Option String := none
  algorithm : Option String := none
  charset : String := "UTF-8"
  loginContext : Option String := none
  scheme : Option AuthScheme := none
  method : String := "GET"
  nonceCount : Option String := none
  nonce : Option String := none
  ntlmDomain : Option String := none
  ntlmHost : String := "localhost"
  omitQuery : Bool := false
  opaqueData : Option String := none
  qualityOfProtection : Option String := none
  servicePrincipal : Option String := none
  name : Option String := none
  preemptive : Bool := false
deriving DecidableEq

namespace Realm

def form (d : Dialect := .json) : Codec Realm :=
  let maybe (name : String) : Json.Field (Option String) :=
    .defaulted name Codec.text.nullable none
  (Fields.as
    (.cons (maybe "principal_name") <|
      .cons (maybe "password") <|
      .cons (maybe "algorithm") <|
      .cons (.defaulted "charset" Codec.text "UTF-8") <|
      .cons (maybe "login_context_name") <|
      .cons (.defaulted "auth_scheme" (AuthScheme.form d).nullable none) <|
      .cons (.defaulted "method" Codec.text "GET") <|
      .cons (maybe "nc") <|
      .cons (maybe "nonce") <|
      .cons (maybe "ntlm_domain") <|
      .cons (.defaulted "ntlm_host" Codec.text "localhost") <|
      .cons (.defaulted "omit_query" Codec.boolean false) <|
      .cons (maybe "opaque") <|
      .cons (maybe "qop") <|
      .cons (maybe "service_principal_name") <|
      .cons (maybe "realm_name") <|
      .cons (.defaulted "use_preemptive_auth" Codec.boolean false) <| .nil)
    (fun (principal, password, algorithm, charset, loginContext, scheme, method, nonceCount, nonce,
        ntlmDomain, ntlmHost, omitQuery, opaqueData, qualityOfProtection, servicePrincipal, name,
        preemptive, ()) =>
      { principal, password, algorithm, charset, loginContext, scheme, method, nonceCount, nonce,
        ntlmDomain, ntlmHost, omitQuery, opaqueData, qualityOfProtection, servicePrincipal, name,
        preemptive })
    (fun r =>
      (r.principal, r.password, r.algorithm, r.charset, r.loginContext, r.scheme, r.method,
        r.nonceCount, r.nonce, r.ntlmDomain, r.ntlmHost, r.omitQuery, r.opaqueData,
        r.qualityOfProtection, r.servicePrincipal, r.name, r.preemptive, ()))).codec
      "RealmSettings" d

def credentials? (r : Realm) : Option (String × String) :=
  match r.principal, r.password with
  | some user, some password =>
    if user.isEmpty || password.isEmpty then none else some (user, password)
  | _, _ => none

end Realm

structure ClientSettings where
  connectTimeout : UInt64 := 10000
  requestTimeout : UInt64 := 30000
  userAgent : String := "hs-sink/0.1.0"
  proxy : Option Proxy := none
  realm : Option Realm := none
deriving DecidableEq

def ClientSettings.form (d : Dialect := .json) : Codec ClientSettings :=
  let base : ClientSettings := {}
  (Fields.as
    (.cons (.defaulted "connect_timeout_ms" Codec.word64 base.connectTimeout) <|
      .cons (.defaulted "request_timeout_ms" Codec.word64 base.requestTimeout) <|
      .cons (.defaulted "user_agent" Codec.text base.userAgent) <|
      .cons (.defaulted "proxy" (Proxy.form d).nullable none) <|
      .cons (.defaulted "realm" (Realm.form d).nullable none) <| .nil)
    (fun (connectTimeout, requestTimeout, userAgent, proxy, realm, ()) =>
      { connectTimeout, requestTimeout, userAgent, proxy, realm })
    (fun s => (s.connectTimeout, s.requestTimeout, s.userAgent, s.proxy, s.realm, ()))).codec
      "HttpClientSettings" d

end Courier
