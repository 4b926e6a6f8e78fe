import Courier.Json.Number
import Courier.Text.Quoted

/-!
# Values and their text

A value keeps the members of an object in the order in which they are written. Its text has no
blanks. The canonical form sorts the members of every object by name and keeps the last of
equal names.
-/

namespace Courier.Json

inductive Value where
  | null
  | bool (b : Bool)
  | number (n : Number)
  | string (s : String)
  | array (items : List Value)
  | object (members : List (String × Value))
deriving Inhabited, BEq

abbrev Member := String × Value

namespace Value

def ofNat (n : UInt64) : Value := .number (.ofUInt64 n)

def escape (c : Char) : List Char :=
  match c with
  | '"' => ['\\', '"']
  | '\\' => ['\\', '\\']
  | '\x08' => ['\\', 'b']
  | '\t' => ['\\', 't']
  | '\n' => ['\\', 'n']
  | '\x0c' => ['\\', 'f']
  | '\r' => ['\\', 'r']
  | c =>
    if c.toNat < 0x20 then
      ['\\', 'u', '0', '0', Text.hexDigit (c.toNat / 16), Text.hexDigit (c.toNat % 16)]
    else [c]

def stringChars (s : String) : List Char :=
  '"' :: s.toList.flatMap escape ++ ['"']

mutual
def chars : Value → List Char
  | .null => ['n', 'u', 'l', 'l']
  | .bool true => ['t', 'r', 'u', 'e']
  | .bool false => ['f', 'a', 'l', 's', 'e']
  | .number n => n.chars
  | .string s => stringChars s
  | .array items => '[' :: itemsChars items ++ [']']
  | .object members => '\x7b' :: membersChars members ++ ['\x7d']

def itemsChars : List Value → List Char
  | [] => []
  | [v] => v.chars
  | v :: rest => v.chars ++ ',' :: itemsChars rest

def membersChars : List (String × Value) → List Char
  | [] => []
  | [(name, v)] => stringChars name ++ ':' :: v.chars
  | (name, v) :: rest => stringChars name ++ ':' :: v.chars ++ ',' :: membersChars rest
end

def text (v : Value) : String :=
  String.ofList v.chars

/-- Puts an entry at its place among entries sorted by name, over an equal name. -/
def insertMember (m : String × β) : List (String × β) → List (String × β)
  | [] => [m]
  | first :: rest =>
    if m.1 = first.1 then m :: rest
    else if m.1 < first.1 then m :: first :: rest
    else first :: insertMember m rest

def sortMembers (members : List (String × β)) : List (String × β) :=
  members.foldl (fun sorted m => insertMember m sorted) []

mutual
def canonical : Value → Value
  | .null => .null
  | .bool b => .bool b
  | .number n => .number n
  | .string s => .string s
  | .array items => .array (canonicalItems items)
  | .object members => .object (sortMembers (canonicalMembers members))

def canonicalItems : List Value → List Value
  | [] => []
  | v :: rest => v.canonical :: canonicalItems rest

def canonicalMembers : List (String × Value) → List (String × Value)
  | [] => []
  | (name, v) :: rest => (name, v.canonical) :: canonicalMembers rest
end

def get? (v : Value) (name : String) : Option Value :=
  match v with
  | .object members => members.lookup name
  | _ => none

end Value

end Courier.Json
