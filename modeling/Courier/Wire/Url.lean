import Courier.Wire.Host

/-!
# Addresses

Reading an address normalises it: small letters in scheme and host, no default port, no dot
segments, escapes where characters demand them. The schemes of the web are read more leniently
than others: any number of slashes may follow them, backslashes count as slashes, and they need
a host.
-/

namespace Courier.Wire

inductive Path where
  | segments (ss : List (List Char))
  | plain (text : List Char)
deriving Repr, DecidableEq

structure Url where
  scheme : List Char
  user : List Char := []
  password : Option (List Char) := none
  /-- Empty if slashes announce a host and none follows. -/
  host : Option Host := none
  port : Option Nat := none
  path : Path
  query : Option (List Char) := none
  fragment : Option (List Char) := none
deriving Repr, DecidableEq

namespace Url

/-! ## Schemes -/

def webSchemes : List (List Char × Nat) :=
  [("http", 80), ("https", 443), ("ws", 80), ("wss", 443), ("ftp", 21)].map
    fun (name, port) => (name.toList, port)

def fileScheme : List Char := "file".toList

def isAsciiLetter (c : Char) : Bool :=
  ('a' ≤ c && c ≤ 'z') || ('A' ≤ c && c ≤ 'Z')

def scheme? (cs : List Char) : Option (List Char × List Char) :=
  let isPart (c : Char) := isAsciiLetter c || Decimal.isDigit c || c == '+' || c == '-' || c == '.'
  match cs.takeWhile isPart, cs.dropWhile isPart with
  | first :: more, ':' :: rest =>
    if isAsciiLetter first then some ((first :: more).map Char.toLower, rest) else none
  | _, _ => none

/-! ## Paths -/

def dropDot : List Char → Option (List Char)
  | '.' :: rest => some rest
  | '%' :: '2' :: c :: rest => if c = 'e' ∨ c = 'E' then some rest else none
  | _ => none

def isDot (segment : List Char) : Bool :=
  dropDot segment == some []

def isDoubleDot (segment : List Char) : Bool :=
  (dropDot segment).bind dropDot == some []

/-- Segments of which one dot stays and two dots go one up; the last leaves an open end. -/
def resolve : List (List Char) → List (List Char) → List (List Char)
  | done, [] => done.reverse
  | done, s :: rest =>
    let close (done : List (List Char)) := if rest.isEmpty then [] :: done else done
    if isDoubleDot s then resolve (close (done.drop 1)) rest
    else if isDot s then resolve (close done) rest
    else resolve (percentEncode reservedInPath s :: done) rest

def segments (web : Bool) (cs : List Char) : Path :=
  let cs := if web then cs.map (fun c => if c = '\\' then '/' else c) else cs
  .segments (resolve [] (Text.cutAt '/' cs))

def pathAfterHost (web : Bool) : List Char → Path
  | [] => if web then .segments [[]] else .segments []
  | c :: rest =>
    if c = '/' ∨ (web ∧ c = '\\') then segments web rest else segments web (c :: rest)

/-! ## Authorities -/

def isSlash (web : Bool) (c : Char) : Bool :=
  c == '/' || (web && c == '\\')

def cutLast (mark : Char) (cs : List Char) : Option (List Char) × List Char :=
  let after := cs.reverse.takeWhile (· != mark)
  match cs.reverse.dropWhile (· != mark) with
  | [] => (none, cs)
  | _ :: before => (some before.reverse, after.reverse)

def userInfo (cs : List Char) : List Char × Option (List Char) :=
  let escape := percentEncode reservedInUserInfo
  match cs.dropWhile (· != ':') with
  | _ :: c :: password => (escape (cs.takeWhile (· != ':')), some (escape (c :: password)))
  | _ => (escape (cs.takeWhile (· != ':')), none)

def cutHost (bracket : Bool) : List Char → List Char × List Char
  | [] => ([], [])
  | c :: rest =>
    if c = ':' ∧ !bracket then ([], c :: rest)
    else
      let (host, rest) := cutHost (if c = '[' then true else if c = ']' then false else bracket) rest
      (c :: host, rest)

/-- Digits after a colon; none, or the usual port, count as no port. -/
def port? (usual : Option Nat) : List Char → Option (Option Nat)
  | [] => some none
  | _ :: [] => some none
  | _ :: digits =>
    match Decimal.natural? digits with
    | some n => if 65535 < n then none else some (if some n = usual then none else some n)
    | none => none

def afterSlashes (scheme : List Char) (usual : Option Nat) (web : Bool) (cs : List Char) :
    Option Url := do
  let authority := cs.takeWhile (!isSlash web ·)
  let (info, address) := cutLast '@' authority
  let (user, password) := userInfo (info.getD [])
  let (hostText, portText) := cutHost false address
  if hostText.isEmpty && (web || info.isSome || !portText.isEmpty) then none
  else
    let host ← if web then Host.domain? hostText else Host.free? hostText
    let port ← port? usual portText
    return { scheme, user, password, host := some host, port,
             path := pathAfterHost web (cs.drop authority.length) }

def ofFile (cs : List Char) : Option Url := do
  let path (cs : List Char) : Path :=
    match pathAfterHost true cs with
    | .segments ss =>
      let kept := ss.dropWhile List.isEmpty
      .segments (if kept.isEmpty then [[]] else kept)
    | path => path
  match cs with
  | a :: b :: rest =>
    if isSlash true a && isSlash true b then
      let hostText := rest.takeWhile (!isSlash true ·)
      let host ← if hostText.isEmpty then some (Host.name []) else Host.domain? hostText
      let host := if host = .name "localhost".toList then .name [] else host
      return { scheme := fileScheme, host := some host, path := path (rest.drop hostText.length) }
    else return { scheme := fileScheme, host := some (.name []), path := path cs }
  | cs => return { scheme := fileScheme, host := some (.name []), path := path cs }

/-! ## Reading and writing -/

def cutFirst (mark : Char) (cs : List Char) : List Char × Option (List Char) :=
  match cs.dropWhile (· != mark) with
  | [] => (cs, none)
  | _ :: after => (cs.takeWhile (· != mark), some after)

/-- A text without the control characters and spaces around it, and without line ends and tabs. -/
def cleaned (cs : List Char) : List Char :=
  let isEdge (c : Char) : Bool := c.toNat ≤ 32
  let trimmed := ((cs.dropWhile isEdge).reverse.dropWhile isEdge).reverse
  trimmed.filter fun c => c != '\t' && c != '\n' && c != '\r'

def parse? (s : String) : Option Url := do
  let (scheme, rest) ← scheme? (cleaned s.toList)
  let (rest, fragment) := cutFirst '#' rest
  let (rest, query) := cutFirst '?' rest
  let usual := webSchemes.lookup scheme
  let web := usual.isSome || scheme = fileScheme
  let base : Url ←
    if scheme = fileScheme then ofFile rest
    else if web then afterSlashes scheme usual true (rest.dropWhile (isSlash true))
    else match rest with
      | '/' :: '/' :: rest => afterSlashes scheme none false rest
      | '/' :: rest => some { scheme, path := segments false rest }
      | rest => some { scheme, path := .plain (percentEncode [] rest) }
  let reserved := if web then '\'' :: reservedInQuery else reservedInQuery
  return { base with
    query := query.map (percentEncode reserved)
    fragment := fragment.map (percentEncode reservedInFragment) }

def userInfoChars (u : Url) : List Char :=
  match u.user, u.password with
  | [], none => []
  | user, none => user ++ ['@']
  | user, some password => user ++ ':' :: password ++ ['@']

def authorityChars (u : Url) : List Char :=
  match u.host with
  | some host =>
    '/' :: '/' :: u.userInfoChars ++ host.chars ++
      match u.port with
      | some port => ':' :: Nat.toDigits 10 port
      | none => []
  | none => []

/-- Without a host a path must not begin with two slashes. -/
def pathChars (u : Url) : List Char :=
  match u.path with
  | .plain text => text
  | .segments ss =>
    let path := ss.flatMap ('/' :: ·)
    if u.host.isNone && 1 < ss.length && ss.head? == some [] then '/' :: '.' :: path else path

def chars (u : Url) : List Char :=
  u.scheme ++ ':' :: u.authorityChars ++ u.pathChars ++
    (u.query.elim [] ('?' :: ·)) ++ u.fragment.elim [] ('#' :: ·)

def text (u : Url) : String :=
  String.ofList u.chars

def hasHost (u : Url) : Bool :=
  u.host.any (!·.isEmpty)

/-! ## Credentials -/

def credentials? (u : Url) : Option (List Char × Option (List Char)) := do
  if u.host.isNone then none
  else
    let user ← ofUtf8? (percentDecode u.user)
    let password := u.password.bind fun p => ofUtf8? (percentDecode p)
    if user.isEmpty && password.isNone then none else some (user, password)

def withoutCredentials (u : Url) : Url :=
  { u with user := [], password := none }

end Url

end Courier.Wire
