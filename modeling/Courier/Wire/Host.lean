import Courier.Text.Blank
import Courier.Wire.Percent
import Courier.Wire.Punycode

/-!
# Hosts

A host is a name or an address. Names are in small letters and ASCII; addresses have one
written form each.
-/

namespace Courier.Wire

inductive Host where
  | name (text : List Char)
  | ipv4 (address : Nat)
  | ipv6 (groups : List Nat)
deriving Repr, DecidableEq

namespace Host

/-! ## Addresses of 32 bits -/

/-- A number in base 16 after `0x`, in base 8 after another zero, else in base 10. -/
def number? (cs : List Char) : Option Nat :=
  let inBase (base : Nat) (ds : List Char) : Option Nat :=
    ds.foldlM (fun n d => (Decimal.digitIn? base d).map (base * n + ·)) 0
  match cs with
  | [] => none
  | ['0'] => some 0
  | '0' :: c :: ds => if c = 'x' ∨ c = 'X' then inBase 16 ds else inBase 8 (c :: ds)
  | ds => inBase 10 ds

def labels (cs : List Char) : List (List Char) :=
  let parts := Text.cutAt '.' cs
  if 2 ≤ parts.length ∧ parts.getLast? = some [] then parts.dropLast else parts

/-- Names that end in a number are addresses, or nothing. -/
def endsInNumber (cs : List Char) : Bool :=
  match (labels cs).getLast? with
  | none => false
  | some last => (!last.isEmpty && last.all Decimal.isDigit) || (number? last).isSome

/-- Up to four numbers: the last one fills what the others leave. -/
def ipv4? (cs : List Char) : Option Nat := do
  let numbers ← (labels cs).mapM number?
  let last ← numbers.getLast?
  let leading := numbers.dropLast
  let room := Nat.pow 256 (4 - leading.length)
  if 3 < leading.length ∨ leading.any (255 < ·) ∨ room ≤ last then none
  else some (leading.foldl (256 * · + ·) 0 * room + last)

def ipv4Chars (address : Nat) : List Char :=
  let octet (k : Nat) : List Char := Nat.toDigits 10 (address / Nat.pow 256 k % 256)
  octet 3 ++ '.' :: octet 2 ++ '.' :: octet 1 ++ '.' :: octet 0

/-! ## Addresses of 128 bits -/

def group? (cs : List Char) : Option Nat :=
  if cs.isEmpty || 4 < cs.length then none
  else cs.foldlM (fun n d => (Decimal.digitIn? 16 d).map (16 * n + ·)) 0

def octet? (cs : List Char) : Option Nat :=
  if 1 < cs.length ∧ cs.head? = some '0' then none
  else (Decimal.natural? cs).filter (· ≤ 255)

/-- The groups of a text between colons; the last may be four octets and counts twice. -/
def groups? (cs : List Char) (dotted : Bool) : Option (List Nat) := do
  if cs.isEmpty then return []
  let parts := Text.cutAt ':' cs
  let last := parts.getLastD []
  if dotted && last.contains '.' then
    match ← (Text.cutAt '.' last).mapM octet? with
    | [a, b, c, d] => return (← parts.dropLast.mapM group?) ++ [256 * a + b, 256 * c + d]
    | _ => none
  else parts.mapM group?

def cutDouble : List Char → Option (List Char × List Char)
  | ':' :: ':' :: rest => some ([], rest)
  | c :: rest => (cutDouble rest).map fun (before, after) => (c :: before, after)
  | [] => none

def ipv6? (cs : List Char) : Option (List Nat) :=
  match cutDouble cs with
  | none => (groups? cs true).filter (·.length = 8)
  | some (before, after) => do
    let left ← groups? before false
    let right ← groups? after true
    if left.length + right.length < 8 then
      return left ++ List.replicate (8 - left.length - right.length) 0 ++ right
    else none

/-- Where the longest run of zeros starts and how long it is; the first of several. -/
def zeroRun (groups : List Nat) : Nat × Nat :=
  (List.range groups.length).foldl (fun (start, length) i =>
    let here := ((groups.drop i).takeWhile (· == 0)).length
    if length < here then (i, here) else (start, length)) (0, 0)

def joinGroups (groups : List Nat) : List Char :=
  List.intercalate [':'] (groups.map (Nat.toDigits 16))

def ipv6Chars (groups : List Nat) : List Char :=
  let (start, length) := zeroRun groups
  if length < 2 then joinGroups groups
  else joinGroups (groups.take start) ++ ':' :: ':' :: joinGroups (groups.drop (start + length))

/-! ## Names -/

def forbidden : List Char :=
  ['\x00', '\t', '\n', '\r', ' ', '#', '/', ':', '<', '>', '?', '@', '[', '\\', ']', '^', '|']

def isForbiddenInDomain (c : Char) : Bool :=
  c.toNat < 32 || c.toNat = 127 || c = '%' || forbidden.contains c

def bracketed? (cs : List Char) : Option Host :=
  if cs.getLast? = some ']' then (ipv6? cs.dropLast).map .ipv6 else none

def domain? (cs : List Char) : Option Host :=
  match cs with
  | '[' :: rest => bracketed? rest
  | cs => do
    let decoded ← ofUtf8? (percentDecode cs)
    let labels := (Text.cutAt '.' (decoded.flatMap hostCharacter)).map asciiLabel
    let name := List.intercalate ['.'] labels
    if name.isEmpty || name.any isForbiddenInDomain then none
    else if endsInNumber name then (ipv4? name).map .ipv4
    else some (.name name)

def free? (cs : List Char) : Option Host :=
  match cs with
  | '[' :: rest => bracketed? rest
  | cs => if cs.any forbidden.contains then none else some (.name (percentEncode [] cs))

def chars : Host → List Char
  | name cs => cs
  | ipv4 address => ipv4Chars address
  | ipv6 groups => '[' :: ipv6Chars groups ++ [']']

def isEmpty : Host → Bool
  | name [] => true
  | _ => false

end Host

end Courier.Wire
