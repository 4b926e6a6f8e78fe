import Courier.Json.Value

/-!
# Written forms

A codec says how a type is written as a value and how a value is read back. A record's form is
put together from its fields; the same description gives its members in order, the checks of a
value's members, and what a missing member means. A record reads from an array of its fields too.
-/

namespace Courier.Json

inductive DecodeError where
  | wrongType (found : Value) (expected : String)
  | outOfRange (found : Value) (expected : String)
  | notSingleMember
  | unknownVariant (name : String) (known : List String)
  | wrongLength (length : Nat) (expected : String)
  | missing (field : String)
  | malformed (reason : String)
deriving Inhabited

def Value.described : Value → String
  | .null => "null"
  | .bool b => "boolean `" ++ (if b then "true" else "false") ++ "`"
  | .number (.integer i _) => "integer `" ++ String.ofList (integerChars i) ++ "`"
  | .number n => "floating point `" ++ String.ofList n.chars ++ "`"
  | .string s => "string " ++ Text.quoted s
  | .array _ => "sequence"
  | .object _ => "map"

def backquoted (s : String) : String := "`" ++ s ++ "`"

def oneOf : List String → String
  | [a, b] => backquoted a ++ " or " ++ backquoted b
  | [a] => backquoted a
  | names => "one of " ++ ", ".intercalate (names.map backquoted)

def DecodeError.message : DecodeError → String
  | .wrongType found expected => "invalid type: " ++ found.described ++ ", expected " ++ expected
  | .outOfRange found expected => "invalid value: " ++ found.described ++ ", expected " ++ expected
  | .notSingleMember => "invalid value: map, expected map with a single key"
  | .unknownVariant name known =>
    "unknown variant " ++ backquoted name ++ ", expected " ++ oneOf known
  | .wrongLength length expected =>
    "invalid length " ++ String.ofList (Decimal.digits length) ++ ", expected " ++ expected
  | .missing field => "missing field " ++ backquoted field
  | .malformed reason => reason

abbrev Decoded (α : Type) := Except DecodeError α

/-- The format that a value was read from. The second one has no `null`: a name stands alone or
around an empty container, and elements behind the last field of a record are not looked at. -/
inductive Dialect where
  | json
  | toml
deriving Repr, DecidableEq

def Dialect.isUnit : Dialect → Value → Bool
  | .json, .null => true
  | .toml, .array [] => true
  | .toml, .object [] => true
  | _, _ => false

def Dialect.allowsSurplus : Dialect → Bool
  | .json => false
  | .toml => true

structure Codec (α : Type) where
  encode : α → Value
  decode : Value → Decoded α

namespace Codec

def text : Codec String where
  encode := .string
  decode
    | .string s => .ok s
    | v => .error (.wrongType v "a string")

def boolean : Codec Bool where
  encode := .bool
  decode
    | .bool b => .ok b
    | v => .error (.wrongType v "a boolean")

def unsigned (name : String) (size : Nat) (ofNat : Nat → α) (toUInt64 : α → UInt64) : Codec α where
  encode a := .ofNat (toUInt64 a)
  decode
    | .number (.integer i h) =>
      if 0 ≤ i ∧ i.toNat < size then .ok (ofNat i.toNat)
      else .error (.outOfRange (.number (.integer i h)) name)
    | v => .error (.wrongType v name)

def word16 : Codec UInt16 := unsigned "u16" UInt16.size UInt16.ofNat UInt16.toUInt64
def word32 : Codec UInt32 := unsigned "u32" UInt32.size UInt32.ofNat UInt32.toUInt64
def word64 : Codec UInt64 := unsigned "u64" UInt64.size UInt64.ofNat id

/-- Integers are read as the nearest double; what is not finite is written as `null`. -/
def double : Codec Float where
  encode x := if x.isFinite then .number (.float x) else .null
  decode
    | .number (.float x) => .ok x
    | .number (.integer i _) =>
      .ok (if i < 0 then -(UInt64.ofNat i.natAbs).toFloat else (UInt64.ofNat i.toNat).toFloat)
    | v => .error (.wrongType v "f64")

def nullable (c : Codec α) : Codec (Option α) where
  encode
    | none => .null
    | some a => c.encode a
  decode
    | .null => .ok none
    | v => (c.decode v).map some

def list (c : Codec α) : Codec (List α) where
  encode as := .array (as.map c.encode)
  decode
    | .array items => items.mapM c.decode
    | v => .error (.wrongType v "a sequence")

def refine (c : Codec α) (of : α → Except String β) (back : β → α) : Codec β where
  encode b := c.encode (back b)
  decode v := do (of (← c.decode v)).mapError .malformed

def pair (c : Codec α) (d : Codec β) : Codec (α × β) where
  encode p := .array [c.encode p.1, d.encode p.2]
  decode
    | .array items => do
      let tuple := "a tuple of size 2"
      match items with
      | [] => .error (.wrongLength 0 tuple)
      | [a] => let _ ← c.decode a; .error (.wrongLength 1 tuple)
      | a :: b :: rest =>
        let a ← c.decode a
        let b ← d.decode b
        if rest.isEmpty then .ok (a, b)
        else .error (.wrongLength items.length "fewer elements in array")
    | v => .error (.wrongType v "a tuple of size 2")

def value : Codec Value := ⟨id, .ok⟩

def variant (names : List (α × String)) (name : α → String) (d : Dialect := .json) : Codec α where
  encode a := .string (name a)
  decode v :=
    let find (s : String) : Decoded α :=
      match names.find? (·.2 == s) with
      | some (a, _) => .ok a
      | none => .error (.unknownVariant s (names.map (·.2)))
    match v with
    | .string s => find s
    | .object [(s, content)] => do
      let a ← find s
      if d.isUnit content then .ok a else .error (.wrongType content "unit")
    | .object _ => .error .notSingleMember
    | v => .error (.wrongType v "string or map")

end Codec

/-- What it means that a field is left out. -/
inductive Absence (α : Type) where
  | refused
  /-- Stands for a value, but an array must not end before it. -/
  | optional (a : α)
  | defaulted (a : α)

structure Field (α : Type) where
  name : String
  codec : Codec α
  absence : Absence α
  omitted : α → Bool

namespace Field

def required (name : String) (codec : Codec α) : Field α :=
  ⟨name, codec, .refused, fun _ => false⟩

def defaulted (name : String) (codec : Codec α) (a : α) : Field α :=
  ⟨name, codec, .defaulted a, fun _ => false⟩

def optional (name : String) (codec : Codec α) : Field (Option α) :=
  ⟨name, codec.nullable, .defaulted none, Option.isNone⟩

def nullable (name : String) (codec : Codec α) : Field (Option α) :=
  ⟨name, codec.nullable, .optional none, fun _ => false⟩

/-- An empty list is not written. -/
def items (name : String) (codec : Codec (List α)) : Field (List α) :=
  ⟨name, codec, .defaulted [], List.isEmpty⟩

def member (f : Field α) (a : α) : List Member :=
  if f.omitted a then [] else [(f.name, f.codec.encode a)]

def read (f : Field α) (found : Option Value) : Decoded α :=
  match found, f.absence with
  | some v, _ => f.codec.decode v
  | none, .refused => .error (.missing f.name)
  | none, .optional a => .ok a
  | none, .defaulted a => .ok a

end Field

structure Fields (α : Type) where
  names : List String
  members : α → List Member
  /-- Whether the member of a name is well formed; unknown names are. -/
  check : Member → Decoded Unit
  ofMembers : List Member → Decoded α
  /-- Reads the elements of an array, the first of which is at the given position, and gives
  back those left over. -/
  ofElements : String → Nat → List Value → Decoded (α × List Value)

namespace Fields

def nil : Fields Unit where
  names := []
  members _ := []
  check _ := .ok ()
  ofMembers _ := .ok ()
  ofElements _ _ rest := .ok ((), rest)

def cons (f : Field α) (fs : Fields β) : Fields (α × β) where
  names := f.name :: fs.names
  members p := f.member p.1 ++ fs.members p.2
  check m := if m.1 = f.name then (f.codec.decode m.2).map (fun _ => ()) else fs.check m
  ofMembers ms := do
    let a ← f.read (ms.lookup f.name)
    return (a, ← fs.ofMembers ms)
  ofElements expected position
    | v :: rest => do
      let a ← f.codec.decode v
      let (b, rest) ← fs.ofElements expected (position + 1) rest
      return ((a, b), rest)
    | [] => do
      let a ← match f.absence with
        | .defaulted a => .ok a
        | _ => .error (.wrongLength position expected)
      let (b, rest) ← fs.ofElements expected (position + 1) []
      return ((a, b), rest)

def as (fs : Fields α) (of : α → β) (back : β → α) : Fields β where
  names := fs.names
  members b := fs.members (back b)
  check := fs.check
  ofMembers ms := (fs.ofMembers ms).map of
  ofElements expected position items :=
    (fs.ofElements expected position items).map fun (a, rest) => (of a, rest)

/-- A record under the name that errors call it by. The first bad member is reported, and only
then a missing one. -/
def codec (fs : Fields α) (name : String) (d : Dialect := .json) : Codec α where
  encode a := .object (fs.members a)
  decode
    | .object ms => do
      ms.forM fs.check
      fs.ofMembers ms
    | .array items => do
      let expected := "struct " ++ name ++ " with " ++
        String.ofList (Decimal.digits fs.names.length) ++ " elements"
      let (a, rest) ← fs.ofElements expected 0 items
      if rest.isEmpty || d.allowsSurplus then return a
      else .error (.wrongLength items.length "fewer elements in array")
    | v => .error (.wrongType v ("struct " ++ name))

end Fields

end Courier.Json
