import Courier.Decimal.Shortest
import Courier.Decimal.Reading

/-!
# Numbers

A number is an integer of at most 64 bits or a double. Which of the two a numeral means is read
off its spelling: a point, an exponent or too many digits make a double, and so does a minus
before zero.
-/

namespace Courier.Json

def InRange (i : Int) : Prop := -9223372036854775808 ≤ i ∧ i < 18446744073709551616

instance (i : Int) : Decidable (InRange i) := by unfold InRange; infer_instance

inductive Number where
  | integer (i : Int) (inRange : InRange i)
  | float (x : Float)

instance : BEq Number where
  beq
    | .integer i _, .integer j _ => i == j
    | .float x, .float y => x == y
    | _, _ => false

def Number.ofUInt64 (n : UInt64) : Number :=
  .integer n.toNat (by have := n.toNat_lt; simp only [InRange]; omega)

/-- Doubles keep a point or an exponent, and are positional from `1e-5` up to `1e16`. -/
def floatNotation : Decimal.Notation := ⟨-5, some 16, true⟩

def integerChars (i : Int) : List Char :=
  if i < 0 then '-' :: Decimal.digits i.natAbs else Decimal.digits i.natAbs

def Number.chars : Number → List Char
  | .integer i _ => integerChars i
  | .float x =>
    if x.isFinite then floatNotation.write x else ['n', 'u', 'l', 'l']

structure Numeral where
  negative : Bool
  whole : List Char
  fraction : Option (List Char)
  exponent : Option (Bool × List Char)
deriving Repr, BEq, DecidableEq

/-- Digits gathered into 64 bits; `skipped` counts those that found no room. -/
structure Gathered where
  significand : Nat := 0
  skipped : Nat := 0

def Gathered.room (g : Gathered) (digit : Nat) : Bool :=
  g.skipped = 0 && g.significand * 10 + digit < UInt64.size

/-- Once one digit found no room, no later one is taken. -/
def Gathered.push (g : Gathered) (c : Char) : Gathered :=
  let digit := Decimal.digitValue c
  if g.room digit then ⟨g.significand * 10 + digit, 0⟩ else ⟨g.significand, g.skipped + 1⟩

def gather (significand : Nat) (cs : List Char) : Gathered :=
  cs.foldl Gathered.push ⟨significand, 0⟩

def tenTo (n : Nat) : Float :=
  Float.ofScientific 1 false n

/-- Division by a power of ten, in steps of `10 ^ 308` until the number vanishes. -/
def scaleDown (x : Float) (n : Nat) : Float :=
  if h : n ≤ 308 then x / tenTo n
  else if x == 0 then x
  else scaleDown (x / tenTo 308) (n - 308)
termination_by n

/-- A significand of 64 bits times a power of ten, by one product or quotient of doubles;
`none` if that overflows. -/
def scale? (significand : Nat) (exponent : Int) : Option Float :=
  let x := (UInt64.ofNat significand).toFloat
  if exponent < 0 then some (scaleDown x exponent.natAbs)
  else if significand = 0 then some x
  else if 308 < exponent then none
  else some (x * tenTo exponent.toNat) |>.filter Float.isFinite

def Numeral.magnitude? (n : Numeral) : Option Float :=
  let whole := gather 0 n.whole
  let fraction := n.fraction.getD []
  let all := gather whole.significand fraction
  let taken : Int := fraction.length - all.skipped
  let start : Int := whole.skipped - taken
  match n.exponent with
  | none => scale? all.significand start
  | some (negative, ds) =>
    let e : Int := Decimal.ofDigits ds
    if e ≤ 2147483647 then scale? all.significand (if negative then start - e else start + e)
    else if all.significand = 0 ∨ negative then some 0
    else none

def Numeral.toNumber? (n : Numeral) : Option Number :=
  let whole := gather 0 n.whole
  let signed (x : Float) : Number := .float (if n.negative then -x else x)
  if n.fraction.isSome || n.exponent.isSome || whole.skipped != 0 then
    n.magnitude?.map signed
  else if n.negative && whole.significand == 0 then
    some (.float (-0.0))
  else
    let i : Int := if n.negative then -whole.significand else whole.significand
    if h : InRange i then some (.integer i h)
    else some (signed (UInt64.ofNat whole.significand).toFloat)

end Courier.Json
