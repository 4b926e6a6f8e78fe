import Courier.Json.Number

/-!
# Tokens

Text cut into the words of the grammar. A string token has no content when one of its escapes
names half of a surrogate pair; such a string may stand where nobody reads it.
-/

namespace Courier.Json

inductive Token where
  | openArray
  | closeArray
  | openObject
  | closeObject
  | comma
  | colon
  | null
  | bool (b : Bool)
  | number (n : Numeral)
  | string (content : Option String)
deriving Repr, BEq, DecidableEq

namespace Token

def unit? (a b c d : Char) : Option Nat := do
  let a ← Decimal.digitIn? 16 a
  let b ← Decimal.digitIn? 16 b
  let c ← Decimal.digitIn? 16 c
  let d ← Decimal.digitIn? 16 d
  return ((a * 16 + b) * 16 + c) * 16 + d

def escaped? : Char → Option Char
  | '"' => some '"'
  | '\\' => some '\\'
  | '/' => some '/'
  | 'b' => some '\x08'
  | 'f' => some '\x0c'
  | 'n' => some '\n'
  | 'r' => some '\r'
  | 't' => some '\t'
  | _ => none

def isHigh (n : Nat) : Bool := 0xD800 ≤ n && n < 0xDC00

def isLow (n : Nat) : Bool := 0xDC00 ≤ n && n < 0xE000

abbrev Scanned := Option (List Char) × List Char

def Scanned.push (c : Char) (s : Scanned) : Scanned :=
  (s.1.map (c :: ·), s.2)

def Scanned.spoil (s : Scanned) : Scanned :=
  (none, s.2)

/-- A string from behind its opening quote. Control characters must be escaped. -/
def scanString : List Char → Option Scanned
  | [] => none
  | '"' :: rest => some (some [], rest)
  | '\\' :: 'u' :: a :: b :: c :: d :: rest =>
    match unit? a b c d with
    | none => none
    | some high =>
      if isHigh high then
        match rest with
        | '\\' :: 'u' :: e :: f :: g :: h :: rest' =>
          match unit? e f g h with
          | none => none
          | some low =>
            if isLow low then
              (scanString rest').map
                (.push (Char.ofNat (0x10000 + (high - 0xD800) * 0x400 + (low - 0xDC00))))
            else (scanString ('\\' :: 'u' :: e :: f :: g :: h :: rest')).map .spoil
        | rest => (scanString rest).map .spoil
      else if isLow high then (scanString rest).map .spoil
      else (scanString rest).map (.push (Char.ofNat high))
  | '\\' :: c :: rest =>
    match escaped? c with
    | none => none
    | some c => (scanString rest).map (.push c)
  | c :: rest =>
    if c.toNat < 0x20 ∨ c = '\\' then none else (scanString rest).map (.push c)

def scanDigits (cs : List Char) : Option (List Char × List Char) :=
  match cs.takeWhile Decimal.isDigit with
  | [] => none
  | ds => some (ds, cs.dropWhile Decimal.isDigit)

def scanExponent (cs : List Char) : Option (Option (Bool × List Char) × List Char) :=
  match cs with
  | c :: rest =>
    if c = 'e' ∨ c = 'E' then
      let (negative, rest) := match rest with
        | '-' :: rest => (true, rest)
        | '+' :: rest => (false, rest)
        | rest => (false, rest)
      (scanDigits rest).map fun (ds, rest) => (some (negative, ds), rest)
    else some (none, cs)
  | [] => some (none, [])

def scanFraction (cs : List Char) : Option (Option (List Char) × List Char) :=
  match cs with
  | '.' :: rest => (scanDigits rest).map fun (ds, rest) => (some ds, rest)
  | cs => some (none, cs)

/-- A zero stands alone before the point. -/
def scanWhole (cs : List Char) : Option (List Char × List Char) :=
  match cs with
  | '0' :: rest => some (['0'], rest)
  | cs => scanDigits cs

def scanMagnitude (negative : Bool) (cs : List Char) : Option (Numeral × List Char) := do
  let (whole, cs) ← scanWhole cs
  let (fraction, cs) ← scanFraction cs
  let (exponent, cs) ← scanExponent cs
  return (⟨negative, whole, fraction, exponent⟩, cs)

def scanNumeral (cs : List Char) : Option (Numeral × List Char) :=
  match cs with
  | '-' :: cs => scanMagnitude true cs
  | cs => scanMagnitude false cs

def isSpace (c : Char) : Bool :=
  c = ' ' || c = '\n' || c = '\t' || c = '\r'

def next? (cs : List Char) : Option (Token × List Char) :=
  match cs with
  | '[' :: cs => some (.openArray, cs)
  | ']' :: cs => some (.closeArray, cs)
  | '\x7b' :: cs => some (.openObject, cs)
  | '\x7d' :: cs => some (.closeObject, cs)
  | ',' :: cs => some (.comma, cs)
  | ':' :: cs => some (.colon, cs)
  | '"' :: cs => (scanString cs).map fun (content, cs) => (.string (content.map String.ofList), cs)
  | 'n' :: 'u' :: 'l' :: 'l' :: cs => some (.null, cs)
  | 't' :: 'r' :: 'u' :: 'e' :: cs => some (.bool true, cs)
  | 'f' :: 'a' :: 'l' :: 's' :: 'e' :: cs => some (.bool false, cs)
  | cs => (scanNumeral cs).map fun (n, cs) => (.number n, cs)

def scanAll : Nat → List Char → Option (List Token)
  | _, [] => some []
  | 0, _ => none
  | fuel + 1, c :: cs =>
    if isSpace c then scanAll fuel cs
    else match next? (c :: cs) with
      | none => none
      | some (token, rest) => (scanAll fuel rest).map (token :: ·)

/-- Every token takes a character, so the text's length is fuel enough. -/
def ofText? (s : String) : Option (List Token) :=
  scanAll s.toList.length s.toList

end Token

end Courier.Json
