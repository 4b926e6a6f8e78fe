import Courier.Base64
import Courier.Decimal.Reading

/-!
# Percent encoding

A character that must not stand in a part of an address is written as the bytes of its UTF-8
form, each after a percent sign. Which ASCII characters those are differs from part to part; all
others always are.
-/

namespace Courier.Wire

def utf8 (cs : List Char) : Bytes :=
  cs.flatMap String.utf8EncodeChar

def ofUtf8? (bytes : Bytes) : Option (List Char) :=
  (String.fromUTF8? ⟨bytes.toArray⟩).map String.toList

def upperHexDigit (n : Nat) : Char :=
  if n < 10 then Char.ofNat (48 + n) else Char.ofNat (55 + n)

def percentByte (b : UInt8) : List Char :=
  ['%', upperHexDigit (b.toNat / 16), upperHexDigit (b.toNat % 16)]

def isUnprintable (c : Char) : Bool :=
  c.toNat < 32 || 127 ≤ c.toNat

def percentEncode (reserved : List Char) (cs : List Char) : List Char :=
  cs.flatMap fun c =>
    if isUnprintable c || reserved.contains c then (utf8 [c]).flatMap percentByte else [c]

def reservedInFragment : List Char := [' ', '"', '<', '>', '\x60']

def reservedInPath : List Char := reservedInFragment ++ ['#', '?', '\x7b', '\x7d']

def reservedInUserInfo : List Char :=
  reservedInPath ++ ['/', ':', ';', '=', '@', '[', '\\', ']', '^', '|']

def reservedInQuery : List Char := [' ', '"', '#', '<', '>']

/-- Bytes of a text with escapes resolved; a percent sign without two digits stands for itself. -/
def percentDecode : List Char → Bytes
  | '%' :: a :: b :: rest =>
    match Decimal.digitIn? 16 a, Decimal.digitIn? 16 b with
    | some x, some y => UInt8.ofNat (16 * x + y) :: percentDecode rest
    | _, _ => 37 :: percentDecode (a :: b :: rest)
  | c :: rest => String.utf8EncodeChar c ++ percentDecode rest
  | [] => []
termination_by cs => cs.length

end Courier.Wire
