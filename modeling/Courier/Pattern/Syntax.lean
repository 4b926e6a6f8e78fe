/-!
# The syntax of patterns

The tree of a pattern as it is written, groups and flags included, and how deeply it is nested.
-/

namespace Courier.Pattern

inductive Error where
  | groupUnclosed
  | groupUnopened
  | groupName
  | lookAround
  | flag
  | missingOperand
  | repetition
  | escape
  | backreference
  | codePoint
  | classUnclosed
  | classEscape
  | classRange
  | unknownProperty
  /-- Without Unicode, something that could match half a character. -/
  | notText
  | tooDeep
  | tooLarge
deriving Repr, DecidableEq

def Error.message : Error → String
  | .groupUnclosed => "unclosed group"
  | .groupUnopened => "unopened group"
  | .groupName => "invalid or repeated group name"
  | .lookAround => "look-around is not supported"
  | .flag => "invalid flags"
  | .missingOperand => "repetition operator without an operand"
  | .repetition => "invalid repetition"
  | .escape => "invalid escape"
  | .backreference => "backreferences are not supported"
  | .codePoint => "not a character"
  | .classUnclosed => "unclosed character class"
  | .classEscape => "invalid escape in a character class"
  | .classRange => "invalid range in a character class"
  | .unknownProperty => "unknown property"
  | .notText => "pattern can match invalid text"
  | .tooDeep => "pattern is nested too deeply"
  | .tooLarge => "pattern is too large"

inductive Flag where
  | ignoreCase
  | multiLine
  | dotAll
  | swapGreed
  | unicode
  | anyLineEnd
  | ignoreSpace
deriving Repr, DecidableEq

abbrev FlagChange := List (Flag × Bool)

inductive Assertion where
  | lineStart
  | lineEnd
  | textStart
  | textEnd
  | wordBoundary
  | notWordBoundary
  | wordStart
  | wordEnd
  | wordStartHalf
  | wordEndHalf
deriving Repr, DecidableEq

inductive NamedClass where
  | digit (negated : Bool)
  | space (negated : Bool)
  | word (negated : Bool)
  | property (negated : Bool) (name : List Char) (value : Option (List Char))
deriving Repr, DecidableEq

inductive ClassOp where
  | intersection
  | difference
  | symmetricDifference
deriving Repr, DecidableEq

inductive Posix where
  | alnum
  | alpha
  | ascii
  | blank
  | cntrl
  | digit
  | graph
  | lower
  | print
  | punct
  | space
  | upper
  | word
  | xdigit
deriving Repr, DecidableEq

/-- A single character, and whether it is written as a byte with two hexadecimal digits. -/
structure Literal where
  char : Char
  byte : Bool
deriving Repr, DecidableEq

inductive ClassSet where
  | empty
  | literal (c : Literal)
  | range (low high : Literal)
  | named (c : NamedClass)
  | posix (negated : Bool) (kind : Posix)
  | union (items : List ClassSet)
  | bracketed (negated : Bool) (s : ClassSet)
  | op (kind : ClassOp) (left right : ClassSet)

inductive Tree where
  | empty
  | flags (change : FlagChange)
  | literal (c : Literal)
  | dot
  | assertion (a : Assertion)
  | named (c : NamedClass)
  | bracketed (negated : Bool) (s : ClassSet)
  | repetition (t : Tree) (least : Nat) (most : Option Nat)
  | group (change : FlagChange) (name : Option (List Char)) (t : Tree)
  | concat (ts : List Tree)
  | alternation (ts : List Tree)

def ClassSet.ofItems : List ClassSet → ClassSet
  | [] => .empty
  | [s] => s
  | items => .union items

def Tree.ofSequence : List Tree → Tree
  | [] => .empty
  | [t] => t
  | ts => .concat ts

def Tree.ofBranches : List Tree → Tree
  | [] => .empty
  | [t] => t
  | ts => .alternation ts

mutual
def ClassSet.depth : ClassSet → Nat
  | .union items => depths items + 1
  | .bracketed _ s => s.depth + 1
  | .op _ left right => max left.depth right.depth + 1
  | _ => 0

def ClassSet.depths : List ClassSet → Nat
  | [] => 0
  | s :: rest => max s.depth (depths rest)
end

mutual
def Tree.depth : Tree → Nat
  | .bracketed _ s => s.depth + 1
  | .repetition t _ _ => t.depth + 1
  | .group _ _ t => t.depth + 1
  | .concat ts => depths ts + 1
  | .alternation ts => depths ts + 1
  | _ => 0

def Tree.depths : List Tree → Nat
  | [] => 0
  | t :: rest => max t.depth (depths rest)
end

mutual
def Tree.names : Tree → List (List Char)
  | .repetition t _ _ => t.names
  | .group _ name t => name.toList ++ t.names
  | .concat ts => allNames ts
  | .alternation ts => allNames ts
  | _ => []

def Tree.allNames : List Tree → List (List Char)
  | [] => []
  | t :: rest => t.names ++ allNames rest
end

end Courier.Pattern
