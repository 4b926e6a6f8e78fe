import Courier.Pattern.Property
import Courier.Pattern.Reader
import Courier.Pattern.Regex

/-!
# The meaning of patterns

From syntax trees to expressions. Flags hold from where they are set to the end of their group.
Patterns are matched against the decimal text of a status, so letter case plays no part, and
beyond ASCII a class need not be exact.
-/

namespace Courier.Pattern

structure Mode where
  multiLine : Bool := false
  dotAll : Bool := false
  unicode : Bool := true
  anyLineEnd : Bool := false

def Mode.switch (m : Mode) : Flag × Bool → Mode
  | (.multiLine, on) => { m with multiLine := on }
  | (.dotAll, on) => { m with dotAll := on }
  | (.unicode, on) => { m with unicode := on }
  | (.anyLineEnd, on) => { m with anyLineEnd := on }
  | _ => m

def Mode.change (m : Mode) (change : FlagChange) : Mode :=
  change.foldl Mode.switch m

abbrev CharSet := Char → Bool

def isWord (c : Char) : Bool :=
  isAsciiLetter c || Decimal.isDigit c || c == '_'

def Posix.has : Posix → CharSet
  | .alnum => fun c => isAsciiLetter c || Decimal.isDigit c
  | .alpha => isAsciiLetter
  | .ascii => fun c => c.toNat < 128
  | .blank => fun c => c == ' ' || c == '\t'
  | .cntrl => fun c => c.toNat < 32 || c.toNat == 127
  | .digit => Decimal.isDigit
  | .graph => fun c => 33 ≤ c.toNat && c.toNat ≤ 126
  | .lower => fun c => 'a' ≤ c && c ≤ 'z'
  | .print => fun c => 32 ≤ c.toNat && c.toNat ≤ 126
  | .punct => fun c => 33 ≤ c.toNat && c.toNat ≤ 126 && !isAsciiLetter c && !Decimal.isDigit c
  | .space => fun c => c == ' ' || (9 ≤ c.toNat && c.toNat ≤ 13)
  | .upper => fun c => 'A' ≤ c && c ≤ 'Z'
  | .word => isWord
  | .xdigit => fun c => (Decimal.digitIn? 16 c).isSome

/-- Without Unicode a negated class could match part of a character. -/
def negateIf (m : Mode) (negated : Bool) (s : CharSet) : Except Error CharSet :=
  if !negated then .ok s
  else if m.unicode then .ok fun c => !s c
  else .error .notText

def NamedClass.meaning (m : Mode) : NamedClass → Except Error CharSet
  | .digit negated => negateIf m negated Decimal.isDigit
  | .space negated => negateIf m negated Text.isBlank
  | .word negated => negateIf m negated isWord
  | .property negated name value =>
    if !m.unicode then .error .notText
    else match hasProperty? name value with
      | some has => .ok fun c => (Decimal.isDigit c && has) != negated
      | none => .error .unknownProperty

/-- Without Unicode a byte beyond ASCII is no text. -/
def Literal.meaning (m : Mode) (l : Literal) : Except Error Char :=
  if !m.unicode && l.byte && 128 ≤ l.char.toNat then .error .notText else .ok l.char

/-- Without Unicode a class holds ASCII alone. -/
def Literal.inClass (m : Mode) (l : Literal) : Except Error Char :=
  if !m.unicode && 128 ≤ l.char.toNat then .error .notText else .ok l.char

def ClassOp.apply : ClassOp → CharSet → CharSet → CharSet
  | .intersection, a, b => fun c => a c && b c
  | .difference, a, b => fun c => a c && !b c
  | .symmetricDifference, a, b => fun c => a c != b c

mutual
def ClassSet.meaning (m : Mode) : ClassSet → Except Error CharSet
  | .empty => .ok fun _ => false
  | .literal l => do
    let x ← l.inClass m
    return (· == x)
  | .range low high => do
    let a ← low.inClass m
    let b ← high.inClass m
    return fun c => a ≤ c && c ≤ b
  | .named c => c.meaning m
  | .posix negated kind => negateIf m negated kind.has
  | .union items => unionMeaning m items
  | .bracketed negated s => do negateIf m negated (← s.meaning m)
  | .op kind left right => do
    let a ← left.meaning m
    let b ← right.meaning m
    return kind.apply a b

def ClassSet.unionMeaning (m : Mode) : List ClassSet → Except Error CharSet
  | [] => .ok fun _ => false
  | s :: rest => do
    let a ← s.meaning m
    let b ← unionMeaning m rest
    return fun c => a c || b c
end

/-- Whether a line ends before the character `after`, seen from behind `before`. -/
def atLineEnd (m : Mode) (before after : Option Char) : Bool :=
  match after with
  | none => true
  | some c =>
    if m.anyLineEnd then c == '\r' || (c == '\n' && before != some '\r') else c == '\n'

def atLineStart (m : Mode) (before after : Option Char) : Bool :=
  match before with
  | none => true
  | some c =>
    if m.anyLineEnd then c == '\n' || (c == '\r' && after != some '\n') else c == '\n'

def Assertion.holds (m : Mode) (a : Assertion) (before after : Option Char) : Bool :=
  let wordBefore := before.any isWord
  let wordAfter := after.any isWord
  match a with
  | .lineStart => if m.multiLine then atLineStart m before after else before.isNone
  | .lineEnd => if m.multiLine then atLineEnd m before after else after.isNone
  | .textStart => before.isNone
  | .textEnd => after.isNone
  | .wordBoundary => wordBefore != wordAfter
  | .notWordBoundary => wordBefore == wordAfter
  | .wordStart => !wordBefore && wordAfter
  | .wordEnd => wordBefore && !wordAfter
  | .wordStartHalf => !wordBefore
  | .wordEndHalf => !wordAfter

def dotSet (m : Mode) : CharSet := fun c =>
  m.dotAll || (c != '\n' && !(m.anyLineEnd && c == '\r'))

mutual
/-- The expression of a tree, and the mode that holds behind it. -/
def Tree.meaning (m : Mode) : Tree → Except Error (Regex × Mode)
  | .empty => .ok (.empty, m)
  | .flags change => .ok (.empty, m.change change)
  | .literal l => do
    let x ← l.meaning m
    return (.set (· == x), m)
  | .dot => if m.unicode then .ok (.set (dotSet m), m) else .error .notText
  | .assertion a => .ok (.look (a.holds m), m)
  | .named c => do
    let s ← c.meaning m
    return (.set s, m)
  | .bracketed negated s => do
    let s ← negateIf m negated (← s.meaning m)
    return (.set s, m)
  | .repetition t least most => do
    let (r, after) ← t.meaning m
    return (.times r least most, after)
  | .group change _ t => do
    let (r, _) ← t.meaning (m.change change)
    return (r, m)
  | .concat ts => do
    let (rs, after) ← meanings m ts
    return (.ofList rs, after)
  | .alternation ts => do
    let (rs, after) ← meanings m ts
    return (.anyOf rs, after)

def Tree.meanings (m : Mode) : List Tree → Except Error (List Regex × Mode)
  | [] => .ok ([], m)
  | t :: rest => do
    let (r, m) ← t.meaning m
    let (rs, m) ← meanings m rest
    return (r :: rs, m)
end

/-- The memory set aside for the program of a pattern. Nothing is supposed of how much a program
takes. -/
class Room where
  fits : Tree → Bool

namespace Room

scoped instance ample : Room :=
  ⟨fun _ => true⟩

end Room

def compile [Room] (pattern : String) : Except Error Regex := do
  let tree ← read pattern
  let (r, _) ← tree.meaning {}
  if !Room.fits tree then .error .tooLarge
  return r

def anchored (pattern : String) : String :=
  "^(?:" ++ pattern ++ ")$"

end Courier.Pattern
