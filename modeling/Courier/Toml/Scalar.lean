import Courier.Json.Value
import Courier.Moment
import Courier.Toml.Text

/-!
# Numbers and dates of TOML
-/

namespace Courier.Toml

open Json

def digits? (isDigit : Char → Bool) (cs : List Char) : Option (List Char) :=
  let rec go (afterDigit : Bool) : List Char → Option (List Char)
    | [] => if afterDigit then some [] else none
    | c :: rest =>
      if isDigit c then (go true rest).map (c :: ·)
      else if c = '_' ∧ afterDigit ∧ (rest.head?.any isDigit) then go false rest
      else none
  go false cs

def wholeDigits? (cs : List Char) : Option (List Char) := do
  let ds ← digits? Decimal.isDigit cs
  match ds with
  | '0' :: _ :: _ => none
  | ds => some ds

def splitSign : List Char → Bool × List Char
  | '-' :: rest => (true, rest)
  | '+' :: rest => (false, rest)
  | cs => (false, cs)

def integerOf? (i : Int) : Option Value :=
  if h : -9223372036854775808 ≤ i ∧ i < 9223372036854775808 then
    some (.number (.integer i (by simp only [InRange]; omega)))
  else none

def basedInteger? (base : Nat) (cs : List Char) : Option Value := do
  let ds ← digits? (fun c => (Decimal.digitIn? base c).isSome) cs
  integerOf? (ds.foldl (fun n c => n * base + (Decimal.digitIn? base c).getD 0) 0 : Nat)

def integer? (cs : List Char) : Option Value :=
  match cs with
  | '0' :: 'x' :: rest => basedInteger? 16 rest
  | '0' :: 'o' :: rest => basedInteger? 8 rest
  | '0' :: 'b' :: rest => basedInteger? 2 rest
  | cs => do
    let (negative, body) := splitSign cs
    let n := Decimal.ofDigits (← wholeDigits? body)
    integerOf? (if negative then -(n : Int) else n)

def exponent? (cs : List Char) : Option Int := do
  let (negative, body) := splitSign cs
  let n := Decimal.ofDigits (← digits? Decimal.isDigit body)
  return if negative then -(n : Int) else n

/-- A number with a point or an exponent. One that is too large is refused, unless negative. -/
def decimal? (cs : List Char) : Option Value := do
  let (negative, body) := splitSign cs
  let isMark (c : Char) : Bool := c == 'e' || c == 'E'
  let mantissa := body.takeWhile (!isMark ·)
  let e ← match body.dropWhile (!isMark ·) with
    | [] => some 0
    | _ :: e => exponent? e
  let whole ← wholeDigits? (mantissa.takeWhile (· != '.'))
  let fraction ← match mantissa.dropWhile (· != '.') with
    | [] => some []
    | _ :: ds => digits? Decimal.isDigit ds
  if mantissa.length = body.length ∧ fraction.isEmpty then none
  else
    let x := Decimal.nearest (Decimal.ofDigits (whole ++ fraction)) (e - fraction.length)
    if x.isInf && !negative then none
    else some (.number (.float (if negative then -x else x)))

def float? (cs : List Char) : Option Value :=
  let (negative, body) := splitSign cs
  let special (x : Float) : Option Value := some (.number (.float (if negative then -x else x)))
  if body = ['i', 'n', 'f'] then special (1 / 0)
  else if body = ['n', 'a', 'n'] then special (0 / 0)
  else decimal? cs

def fixed? (n : Nat) (cs : List Char) : Option (Nat × List Char) :=
  let ds := cs.take n
  if ds.length = n ∧ ds.all Decimal.isDigit then some (Decimal.ofDigits ds, cs.drop n) else none

def mark? (c : Char) : List Char → Option (List Char)
  | d :: rest => if c = d then some rest else none
  | [] => none

def date? (cs : List Char) : Option (List Char) := do
  let (year, cs) ← fixed? 4 cs
  let cs ← mark? '-' cs
  let (month, cs) ← fixed? 2 cs
  let cs ← mark? '-' cs
  let (day, cs) ← fixed? 2 cs
  let _ ← Date.of? year month day
  return cs

def fractionText (ds : List Char) : List Char :=
  match ((ds.take 9).reverse.dropWhile (· == '0')).reverse with
  | [] => if ds.isEmpty then [] else ['.', '0']
  | ds => '.' :: ds

def time? (cs : List Char) : Option (List Char × List Char) := do
  let (hour, rest) ← fixed? 2 cs
  let rest ← mark? ':' rest
  let (minute, rest) ← fixed? 2 rest
  let rest ← mark? ':' rest
  let (second, rest) ← fixed? 2 rest
  if hour < 24 ∧ minute < 60 ∧ second ≤ 60 then
    match rest with
    | '.' :: more =>
      match more.takeWhile Decimal.isDigit with
      | [] => none
      | ds => some (cs.take 8 ++ fractionText ds, more.dropWhile Decimal.isDigit)
    | rest => some (cs.take 8, rest)
  else none

def offset? (cs : List Char) : Option (List Char) := do
  match cs with
  | ['Z'] => some ['Z']
  | ['z'] => some ['Z']
  | sign :: body =>
    if sign = '+' ∨ sign = '-' then
      let (hours, rest) ← fixed? 2 body
      let rest ← mark? ':' rest
      let (minutes, rest) ← fixed? 2 rest
      if hours < 24 ∧ minutes < 60 ∧ rest.isEmpty then some cs else none
    else none
  | [] => none

def dateTime? (cs : List Char) : Option (List Char) :=
  match date? cs with
  | none =>
    match time? cs with
    | some (text, []) => some text
    | _ => none
  | some [] => some cs
  | some (c :: rest) => do
    if c = 'T' ∨ c = 't' ∨ c = ' ' then
      let (time, rest) ← time? rest
      let offset ← if rest.isEmpty then some [] else offset? rest
      return cs.take 10 ++ 'T' :: time ++ offset
    else none

def dateMember : String := "$__toml_private_datetime"

def isWord (c : Char) : Bool :=
  isBareKey c || c == '+' || c == '.' || c == ':'

/-- The longest stretch of characters of numbers and dates. A blank may stand between a date and
a time. -/
def word (cs : List Char) : List Char × List Char :=
  let first := cs.takeWhile isWord
  match cs.dropWhile isWord with
  | ' ' :: d :: rest =>
    if date? first = some [] ∧ Decimal.isDigit d then
      (first ++ ' ' :: (d :: rest).takeWhile isWord, (d :: rest).dropWhile isWord)
    else (first, ' ' :: d :: rest)
  | rest => (first, rest)

def scalar? (cs : List Char) : Option (Value × List Char) :=
  let (text, rest) := word cs
  let found : Option Value :=
    if text = ['t', 'r', 'u', 'e'] then some (.bool true)
    else if text = ['f', 'a', 'l', 's', 'e'] then some (.bool false)
    else match dateTime? text with
      | some d => some (.object [(dateMember, .string (String.ofList d))])
      | none => integer? text <|> float? text
  found.map (·, rest)

end Courier.Toml
