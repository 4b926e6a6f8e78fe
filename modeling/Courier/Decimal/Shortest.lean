/-!
# Shortest decimal form of a double

A finite double stands for the interval of reals that round to it. Its shortest form is the
decimal with the fewest digits in that interval, and of those the one nearest to the double.
All arithmetic is exact.
-/

namespace Courier.Decimal

structure Binary where
  significand : Nat
  exponent : Int
deriving Repr, DecidableEq

def hidden : Nat := 4503599627370496

/-- The exponent of the subnormal numbers, and of the smallest normal ones. -/
def Binary.least : Int := -1074

def Binary.ofFloat (x : Float) : Binary :=
  let bits := x.toBits.toNat
  let biased : Nat := bits / hidden % 2048
  let fraction : Nat := bits % hidden
  if biased = 0 then ⟨fraction, Binary.least⟩
  else ⟨hidden + fraction, (biased : Int) - 1075⟩

def signBit (x : Float) : Bool :=
  9223372036854775808 ≤ x.toBits.toNat

structure Scaled where
  coefficient : Nat
  exponent : Int
deriving Repr, DecidableEq

def digits (n : Nat) : List Char :=
  Nat.toDigits 10 n

def power (base : Nat) (exponent : Int) : Nat × Nat :=
  if exponent < 0 then (1, Nat.pow base exponent.natAbs) else (Nat.pow base exponent.toNat, 1)

/-- The number of digits before the decimal point: `10 ^ (d - 1) ≤ x < 10 ^ d`. No positive
double lies below `10 ^ (-400)`. -/
def Binary.magnitude (b : Binary) : Int :=
  let (num, den) := power 2 b.exponent
  ((digits (b.significand * num * Nat.pow 10 400 / den)).length : Int) - 400

/-- The nearest point of the grid `10 ^ grid` that rounds to `b`, a tie going to the even
point. Lengths are counted in quarters of the last binary place. -/
def Binary.onGrid? (b : Binary) (grid : Int) : Option Nat :=
  let (twoNum, twoDen) := power 2 (b.exponent - 2)
  let (tenNum, tenDen) := power 10 grid
  let num := twoNum * tenDen
  let den := twoDen * tenNum
  let below := if b.significand = hidden ∧ Binary.least < b.exponent then 1 else 2
  let low := (4 * b.significand - below) * num
  let middle := 4 * b.significand * num
  let high := (4 * b.significand + 2) * num
  let closed := b.significand % 2 = 0
  let down := middle / den
  let up := down + 1
  let downFits := low < down * den ∨ closed ∧ low = down * den
  let upFits := up * den < high ∨ closed ∧ up * den = high
  let downGap := middle - down * den
  let upGap := up * den - middle
  if downFits ∧ upFits then
    some (if downGap < upGap ∨ downGap = upGap ∧ down % 2 = 0 then down else up)
  else if downFits then some down
  else if upFits then some up
  else none

def Scaled.strip (d : Scaled) : Nat → Scaled
  | 0 => d
  | fuel + 1 =>
    if d.coefficient ≠ 0 ∧ d.coefficient % 10 = 0 then
      Scaled.strip ⟨d.coefficient / 10, d.exponent + 1⟩ fuel
    else d

/-- Seventeen digits always tell two doubles apart. -/
def Binary.shortest (b : Binary) : Scaled :=
  if b.significand = 0 then ⟨0, 0⟩
  else
    let size := b.magnitude
    let found := (List.range 17).findSome? fun n =>
      let grid := size - (n + 1 : Nat)
      (b.onGrid? grid).map (Scaled.mk · grid)
    (found.getD ⟨0, 0⟩).strip 18

structure Notation where
  /-- Positional while the point stands after more than `lowest` digits … -/
  lowest : Int
  /-- … and after at most `highest`; without a bound if `none`. -/
  highest : Option Int
  keepPoint : Bool

def zeros (n : Nat) : List Char :=
  List.replicate n '0'

def positional (style : Notation) (ds : List Char) (point : Int) : List Char :=
  if (ds.length : Int) ≤ point then
    ds ++ zeros (point - ds.length).toNat ++ (if style.keepPoint then ['.', '0'] else [])
  else if 0 < point then
    ds.take point.toNat ++ '.' :: ds.drop point.toNat
  else
    '0' :: '.' :: zeros (-point).toNat ++ ds

def scientific (ds : List Char) (point : Int) : List Char :=
  let exponent := point - 1
  let mantissa := match ds with
    | [] => []
    | [d] => [d]
    | d :: rest => d :: '.' :: rest
  mantissa ++ 'e' :: (if exponent < 0 then '-' else '+') :: digits exponent.natAbs

def Notation.write (style : Notation) (x : Float) : List Char :=
  let shortest := (Binary.ofFloat x).shortest
  let ds := digits shortest.coefficient
  let point := if shortest.coefficient = 0 then 1 else ds.length + shortest.exponent
  let body :=
    if style.lowest < point ∧ style.highest.all (point ≤ ·) then positional style ds point
    else scientific ds point
  if signBit x then '-' :: body else body

def plain : Notation := ⟨-1000, none, false⟩

def text (x : Float) : String :=
  if x.isNaN then "NaN"
  else if x.isFinite then String.ofList (plain.write x)
  else if signBit x then "-inf" else "inf"

end Courier.Decimal
