import Courier.Decimal.Reading

/-!
# International host names

A label with characters beyond ASCII is written in ASCII alone: its plain characters first, then
where the others go, as differences in a number system whose digit thresholds follow a bias.
-/

namespace Courier.Wire

namespace Punycode

def digit (d : Nat) : Char :=
  if d < 26 then Char.ofNat (97 + d) else Char.ofNat (22 + d)

/-- The least digit that does not end a number at a place. -/
def threshold (place bias : Nat) : Nat :=
  max 1 (min 26 (36 * place - bias))

theorem one_le_threshold (place bias : Nat) : 1 ≤ threshold place bias := by
  unfold threshold; omega

def number (bias place q : Nat) : List Char :=
  let t := threshold place bias
  if q < t then [digit q]
  else digit (t + (q - t) % (36 - t)) :: number bias (place + 1) ((q - t) / (36 - t))
termination_by q
decreasing_by
  have h := one_le_threshold place bias
  exact Nat.lt_of_le_of_lt (Nat.div_le_self _ _) (by omega)

def dampen (delta steps : Nat) : Nat × Nat :=
  if delta ≤ 455 then (delta, steps) else dampen (delta / 35) (steps + 1)
termination_by delta
decreasing_by omega

/-- The bias after a difference, which moves to the size of differences seen. -/
def adapt (delta count : Nat) (first : Bool) : Nat :=
  let scaled := if first then delta / 700 else delta / 2
  let (rest, steps) := dampen (scaled + scaled / count) 0
  36 * steps + 36 * rest / (rest + 38)

structure Progress where
  written : List Char
  delta : Nat
  bias : Nat
  handled : Nat

def pass (plain n : Nat) (p : Progress) (c : Char) : Progress :=
  if c.toNat < n then { p with delta := p.delta + 1 }
  else if c.toNat = n then
    { written := p.written ++ number p.bias 1 p.delta
      delta := 0
      bias := adapt p.delta (p.handled + 1) (p.handled = plain)
      handled := p.handled + 1 }
  else p

def place (label : List Char) (plain : Nat) : List Nat → Nat → Progress → Progress
  | [], _, p => p
  | n :: rest, least, p =>
    let p := { p with delta := p.delta + (n - least) * (p.handled + 1) }
    let p := label.foldl (pass plain n) p
    place label plain rest (n + 1) { p with delta := p.delta + 1 }

def isPlain (c : Char) : Bool := c.toNat < 128

def encode (label : List Char) : List Char :=
  let plain := label.filter isPlain
  let values := (((label.filter (!isPlain ·)).map Char.toNat).mergeSort).eraseReps
  let start : Progress := ⟨[], 0, 72, plain.length⟩
  plain ++ (if plain.isEmpty then [] else ['-']) ++ (place label plain.length values 128 start).written

end Punycode

def smallLetter (c : Char) : Char :=
  let n := c.toNat
  let shift (k : Nat) := Char.ofNat (n + k)
  if 0x41 ≤ n ∧ n ≤ 0x5A then shift 32
  else if 0xC0 ≤ n ∧ n ≤ 0xDE ∧ n ≠ 0xD7 then shift 32
  else if (0x100 ≤ n ∧ n ≤ 0x137 ∨ 0x14A ≤ n ∧ n ≤ 0x177) ∧ n % 2 = 0 ∧ n ≠ 0x130 then shift 1
  else if (0x139 ≤ n ∧ n ≤ 0x148 ∨ 0x179 ≤ n ∧ n ≤ 0x17E) ∧ n % 2 = 1 then shift 1
  else if n = 0x178 then 'ÿ'
  else if n = 0x386 then 'ά'
  else if 0x388 ≤ n ∧ n ≤ 0x38A then shift 37
  else if n = 0x38C then 'ό'
  else if n = 0x38E ∨ n = 0x38F then shift 63
  else if 0x391 ≤ n ∧ n ≤ 0x3AB then shift 32
  else if 0x400 ≤ n ∧ n ≤ 0x40F then shift 80
  else if 0x410 ≤ n ∧ n ≤ 0x42F then shift 32
  else c

/-- What stands for a character in a host name: small letters, plain ones for those of full
width, a point for the ideographic stops, and nothing for what is not seen. -/
def hostCharacter (c : Char) : List Char :=
  let n := c.toNat
  if n = 0xAD ∨ n = 0x200B ∨ n = 0x2060 ∨ n = 0xFEFF then []
  else if n = 0x3002 ∨ n = 0xFF61 then ['.']
  else if 0xFF01 ≤ n ∧ n ≤ 0xFF5E then [smallLetter (Char.ofNat (n - 0xFEE0))]
  else [smallLetter c]

def asciiLabel (label : List Char) : List Char :=
  if label.all Punycode.isPlain then label else 'x' :: 'n' :: '-' :: '-' :: Punycode.encode label

end Courier.Wire
