import Courier.Json.Token
import Courier.Json.Value

/-!
# Documents

The tree of a text before its numbers, strings and member names are judged: members may repeat,
numbers may be too large, strings may hold half a surrogate pair. Only the parts that somebody
reads have to become values.
-/

namespace Courier.Json

inductive Document where
  | null
  | bool (b : Bool)
  | number (n : Numeral)
  | string (content : Option String)
  | array (items : List Document)
  | object (members : List (Option String × Document))
deriving Inhabited

namespace Document

/-- A container whose end is not yet read; what it holds so far stands in reverse. -/
inductive Frame where
  | array (done : List Document)
  | object (done : List (Option String × Document)) (name : Option String)

inductive Progress where
  | awaiting (stack : List Frame)
  | arrayOpened (stack : List Frame)
  | objectOpened (stack : List Frame)
  | nameWanted (stack : List Frame) (done : List (Option String × Document))
  | colonWanted (stack : List Frame) (done : List (Option String × Document))
      (name : Option String)
  | complete (stack : List Frame) (value : Document)

def startValue (stack : List Frame) : Token → Option Progress
  | .openArray => some (.arrayOpened stack)
  | .openObject => some (.objectOpened stack)
  | .null => some (.complete stack .null)
  | .bool b => some (.complete stack (.bool b))
  | .number n => some (.complete stack (.number n))
  | .string s => some (.complete stack (.string s))
  | _ => none

def Progress.step : Progress → Token → Option Progress
  | .awaiting stack, token => startValue stack token
  | .arrayOpened stack, .closeArray => some (.complete stack (.array []))
  | .arrayOpened stack, token => startValue (.array [] :: stack) token
  | .objectOpened stack, .closeObject => some (.complete stack (.object []))
  | .objectOpened stack, .string name => some (.colonWanted stack [] name)
  | .nameWanted stack done, .string name => some (.colonWanted stack done name)
  | .colonWanted stack done name, .colon => some (.awaiting (.object done name :: stack))
  | .complete (.array done :: stack) v, .comma =>
    some (.awaiting (.array (v :: done) :: stack))
  | .complete (.array done :: stack) v, .closeArray =>
    some (.complete stack (.array (v :: done).reverse))
  | .complete (.object done name :: stack) v, .comma =>
    some (.nameWanted stack ((name, v) :: done))
  | .complete (.object done name :: stack) v, .closeObject =>
    some (.complete stack (.object ((name, v) :: done).reverse))
  | _, _ => none

def Progress.run (p : Progress) (tokens : List Token) : Option Progress :=
  tokens.foldlM Progress.step p

def ofTokens? (tokens : List Token) : Option Document :=
  match Progress.run (.awaiting []) tokens with
  | some (.complete [] d) => some d
  | _ => none

def ofText? (s : String) : Option Document :=
  (Token.ofText? s).bind ofTokens?

mutual
def depth : Document → Nat
  | .array items => itemsDepth items + 1
  | .object members => membersDepth members + 1
  | _ => 0

def itemsDepth : List Document → Nat
  | [] => 0
  | d :: rest => max d.depth (itemsDepth rest)

def membersDepth : List (Option String × Document) → Nat
  | [] => 0
  | (_, d) :: rest => max d.depth (membersDepth rest)
end

mutual
/-- The value with its members as they stand; `none` if a number is too large or a string or
name is broken. -/
def toValue? : Document → Option Value
  | .null => some .null
  | .bool b => some (.bool b)
  | .number n => n.toNumber?.map .number
  | .string content => content.map .string
  | .array items => (itemsValue? items).map .array
  | .object members => (membersValue? members).map .object

def itemsValue? : List Document → Option (List Value)
  | [] => some []
  | d :: rest => do return (← d.toValue?) :: (← itemsValue? rest)

def membersValue? : List (Option String × Document) → Option (List (String × Value))
  | [] => some []
  | (name, d) :: rest => do return (← name, ← d.toValue?) :: (← membersValue? rest)
end

/-- Containers around a value that is kept, the record itself included. -/
def depthLimit : Nat := 127

/-- A kept value inside `outer` containers: canonical, and not nested too deeply. -/
def keep? (outer : Nat) (d : Document) : Option Value :=
  if d.depth + outer ≤ depthLimit then d.toValue?.map Value.canonical else none

/-- The elements of an array, or the members of an object that have one of the given names, each
at most once. Members of other names are skipped unread, but their names must be sound. -/
inductive Parts where
  | elements (items : List Document)
  | members (known : List (String × Document))

def keepNamed (known : List String) :
    List (Option String × Document) → Option (List (String × Document))
  | [] => some []
  | (none, _) :: _ => none
  | (some name, d) :: rest => do
    let kept ← keepNamed known rest
    if name ∈ known then
      if (kept.lookup name).isSome then none else return (name, d) :: kept
    else return kept

def parts? (known : List String) : Document → Option Parts
  | .array items => if items.length ≤ known.length then some (.elements items) else none
  | .object members => (keepNamed known members).map .members
  | _ => none

def Parts.get? (p : Parts) (position : Nat) (name : String) : Option Document :=
  match p with
  | .elements items => items[position]?
  | .members known => known.lookup name

def string? : Document → Option String
  | .string content => content
  | _ => none

end Document

def parse? (s : String) : Option Value :=
  (Document.ofText? s).bind (·.keep? 0)

end Courier.Json
