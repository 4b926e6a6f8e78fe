/-!
# Reading decimal numbers

Digits as numbers, integers with an optional sign, and decimals rounded to the nearest double.
-/

namespace Courier.Decimal

def isDigit (c : Char) : Bool :=
  48 ≤ c.toNat && c.toNat ≤ 57

def digitValue (c : Char) : Nat :=
  c.toNat - 48

/-- The number that digits in a base of at most 36 write; letters of either case count from ten. -/
def digitIn? (base : Nat) (c : Char) : Option Nat :=
  let n := c.toNat
  let v :=
    if 48 ≤ n ∧ n ≤ 57 then n - 48
    else if 97 ≤ n ∧ n ≤ 122 then n - 87
    else if 65 ≤ n ∧ n ≤ 90 then n - 55
    else 36
  if v < base then some v else none

def ofDigits (cs : List Char) : Nat :=
  cs.foldl (fun n c => 10 * n + digitValue c) 0

def natural? (cs : List Char) : Option Nat :=
  if cs.isEmpty || !cs.all isDigit then none else some (ofDigits cs)

def unsigned? (largest : Nat) (cs : List Char) : Option Nat :=
  let body := match cs with
    | '+' :: rest => rest
    | cs => cs
  (natural? body).filter (· ≤ largest)

/-- The double nearest to `coefficient * 10 ^ exponent`. Exponents that leave the range of
doubles in any case are cut off first. -/
def nearest (coefficient : Nat) (exponent : Int) : Float :=
  let length := (Nat.toDigits 10 coefficient).length
  if coefficient = 0 then 0
  else if exponent + length > 320 then 1 / 0
  else if exponent + length < -400 then 0
  else Float.ofScientific coefficient (exponent < 0) exponent.natAbs

structure Parts where
  whole : List Char
  fraction : List Char
  exponent : Int
  pointed : Bool
  scaled : Bool

def Parts.value (p : Parts) : Float :=
  nearest (ofDigits (p.whole ++ p.fraction)) (p.exponent - p.fraction.length)

def exponent? (cs : List Char) : Option Int :=
  match cs with
  | '-' :: rest => (natural? rest).map (fun n => -(n : Int))
  | '+' :: rest => (natural? rest).map (fun n => (n : Int))
  | cs => (natural? cs).map (fun n => (n : Int))

/-- Splits a numeral at the point and the exponent mark; a part may be without digits. -/
def parts? (cs : List Char) : Option Parts :=
  let whole := cs.takeWhile isDigit
  let afterWhole := cs.dropWhile isDigit
  let (pointed, fraction, rest) := match afterWhole with
    | '.' :: more => (true, more.takeWhile isDigit, more.dropWhile isDigit)
    | more => (false, [], more)
  match rest with
  | [] => some ⟨whole, fraction, 0, pointed, false⟩
  | c :: more =>
    if c = 'e' ∨ c = 'E' then
      (exponent? more).map fun e => ⟨whole, fraction, e, pointed, true⟩
    else none

/-- A double: an optional sign, then digits with at most one point among or around them and an
optional exponent, or the name of infinity or of the undefined value in any case. -/
def float? (cs : List Char) : Option Float :=
  let (negative, body) := match cs with
    | '-' :: rest => (true, rest)
    | '+' :: rest => (false, rest)
    | cs => (false, cs)
  let word := String.ofList (body.map Char.toLower)
  let magnitude : Option Float :=
    if word = "inf" ∨ word = "infinity" then some (1 / 0)
    else if word = "nan" then some (0 / 0)
    else match parts? body with
      | some p => if p.whole.isEmpty && p.fraction.isEmpty then none else some p.value
      | none => none
  magnitude.map fun x => if negative then -x else x

end Courier.Decimal
