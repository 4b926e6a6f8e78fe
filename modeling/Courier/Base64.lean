import Courier.Text.Blank

/-!
# Base 64

The standard alphabet with canonical padding. A text that is no encoding is refused at its first
fault: every group but the last is judged from left to right, and then the last one, which may
hold padding.
-/

namespace Courier

abbrev Bytes := List UInt8

namespace Base64

def symbol (n : Nat) : Char :=
  if n < 26 then Char.ofNat (65 + n)
  else if n < 52 then Char.ofNat (71 + n)
  else if n < 62 then Char.ofNat (n - 4)
  else if n = 62 then '+'
  else '/'

def sextet? (b : UInt8) : Option Nat :=
  let n := b.toNat
  if 65 ≤ n ∧ n ≤ 90 then some (n - 65)
  else if 97 ≤ n ∧ n ≤ 122 then some (n - 71)
  else if 48 ≤ n ∧ n ≤ 57 then some (n + 4)
  else if n = 43 then some 62
  else if n = 47 then some 63
  else none

def padding : Char := '='

def padByte : UInt8 := 61

def encode : Bytes → List Char
  | [] => []
  | [x] => [symbol (x.toNat / 4), symbol (x.toNat % 4 * 16), padding, padding]
  | [x, y] =>
    [symbol (x.toNat / 4), symbol (x.toNat % 4 * 16 + y.toNat / 16),
      symbol (y.toNat % 16 * 4), padding]
  | x :: y :: z :: rest =>
    symbol (x.toNat / 4) :: symbol (x.toNat % 4 * 16 + y.toNat / 16) ::
      symbol (y.toNat % 16 * 4 + z.toNat / 64) :: symbol (z.toNat % 64) :: encode rest

inductive Error where
  | symbol (byte : UInt8) (offset : Nat)
  | length (n : Nat)
  | padding
  /-- The last symbol holds bits that no byte takes. -/
  | lastSymbol (byte : UInt8) (offset : Nat)
deriving Repr, DecidableEq

def Error.message : Error → String
  | .symbol byte offset => s!"Invalid symbol {byte}, offset {offset}."
  | .length n => s!"Invalid input length: {n}"
  | .padding => "Invalid padding"
  | .lastSymbol byte offset => s!"Invalid last symbol {byte}, offset {offset}."

def sextetAt (offset : Nat) (b : UInt8) : Except Error Nat :=
  match sextet? b with
  | some n => .ok n
  | none => .error (.symbol b offset)

def unpack (a b c d : Nat) : Bytes :=
  [UInt8.ofNat (a * 4 + b / 16), UInt8.ofNat (b % 16 * 16 + c / 4), UInt8.ofNat (c % 4 * 64 + d)]

/-- The sextets of the last group; `pad` is the offset of the first padding, if one came. Padding
must not stand in the first two places, and nothing may follow it. -/
def lastSextets (start position : Nat) (pad : Option Nat) : Bytes → Except Error (List Nat)
  | [] => .ok []
  | b :: rest =>
    if b = padByte then
      if position < 2 then .error (.symbol b (start + position))
      else lastSextets start (position + 1) (pad <|> some (start + position)) rest
    else match pad with
      | some offset => .error (.symbol padByte offset)
      | none => do
        let n ← sextetAt (start + position) b
        return n :: (← lastSextets start (position + 1) none rest)

def decodeLast (start : Nat) (group : Bytes) : Except Error Bytes := do
  let sextets ← lastSextets start 0 none group
  let unused (bits : Nat) : Except Error Unit :=
    if bits = 0 then .ok ()
    else
      let last := start + sextets.length - 1
      .error (.lastSymbol (group.getD (sextets.length - 1) 0) last)
  if group.isEmpty then return []
  if sextets.length < 2 then .error (.length (start + sextets.length))
  else if group.length ≠ 4 then .error .padding
  else match sextets with
    | [a, b] => do
      unused (b % 16)
      return (unpack a b 0 0).take 1
    | [a, b, c] => do
      unused (c % 4)
      return (unpack a b c 0).take 2
    | [a, b, c, d] => return unpack a b c d
    | _ => .error .padding

def decodeFrom (start : Nat) : Bytes → Except Error Bytes
  | a :: b :: c :: d :: rest =>
    if rest.isEmpty then decodeLast start [a, b, c, d]
    else do
      let x ← sextetAt start a
      let y ← sextetAt (start + 1) b
      let z ← sextetAt (start + 2) c
      let w ← sextetAt (start + 3) d
      return unpack x y z w ++ (← decodeFrom (start + 4) rest)
  | group => decodeLast start group

def decodeBytes (input : Bytes) : Except Error Bytes :=
  match input.getLast? with
  | some b =>
    if input.length % 4 = 1 ∧ b ≠ padByte ∧ sextet? b = none then
      .error (.symbol b (input.length - 1))
    else decodeFrom 0 input
  | none => .ok []

def decode (cs : List Char) : Except Error Bytes :=
  decodeBytes (cs.flatMap String.utf8EncodeChar)

def text (bytes : Bytes) : String :=
  String.ofList (encode bytes)

end Base64

end Courier
