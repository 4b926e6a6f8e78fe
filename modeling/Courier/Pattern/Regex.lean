/-!
# Regular expressions

Expressions over a fixed text. `Matches` says which stretches of the text an expression covers;
`ends` computes where the stretches end that start at a given place, and `occurs` looks for a
stretch anywhere. A repetition never needs more rounds than the text has characters, and one.
-/

namespace Courier.Pattern

inductive Regex where
  | empty
  | set (has : Char → Bool)
  /-- No character, between the one before and the one after. -/
  | look (holds : Option Char → Option Char → Bool)
  | concat (a b : Regex)
  | either (a b : Regex)
  | times (r : Regex) (least : Nat) (most : Option Nat)

namespace Regex

def before (text : List Char) (i : Nat) : Option Char :=
  match i with
  | 0 => none
  | i + 1 => text[i]?

mutual
/-- `Matches text r i j`: the stretch from place `i` to place `j` of the text is one that `r`
covers. -/
inductive Matches (text : List Char) : Regex → Nat → Nat → Prop
  | empty {i} : Matches text .empty i i
  | set {has i c} : text[i]? = some c → has c = true → Matches text (.set has) i (i + 1)
  | look {holds i} : holds (before text i) text[i]? = true → Matches text (.look holds) i i
  | concat {a b i j k} : Matches text a i j → Matches text b j k → Matches text (.concat a b) i k
  | left {a b i j} : Matches text a i j → Matches text (.either a b) i j
  | right {a b i j} : Matches text b i j → Matches text (.either a b) i j
  | times {r least most n i j} : least ≤ n → (∀ m ∈ most, n ≤ m) → Rounds text r n i j →
    Matches text (.times r least most) i j

inductive Rounds (text : List Char) : Regex → Nat → Nat → Nat → Prop
  | done {r i} : Rounds text r 0 i i
  | more {r n i j k} : Matches text r i j → Rounds text r n j k → Rounds text r (n + 1) i k
end

def follow (step : Nat → List Nat) (places : List Nat) : List Nat :=
  (places.flatMap step).eraseDups

def rounds (step : Nat → List Nat) : Nat → List Nat → List Nat
  | 0, places => places
  | n + 1, places => rounds step n (follow step places)

def roundsUpTo (step : Nat → List Nat) : Nat → List Nat → List Nat
  | 0, places => places
  | n + 1, places => roundsUpTo step n ((places ++ follow step places).eraseDups)

def tabulate (text : List Char) (f : Nat → List Nat) : List (List Nat) :=
  (List.range (text.length + 1)).map f

def entry (table : List (List Nat)) (i : Nat) : List Nat :=
  (table[i]?).getD []

/-- The ends of all stretches, by the place where they start. -/
def ends (text : List Char) : Regex → List (List Nat)
  | .empty => tabulate text fun i => [i]
  | .set has => tabulate text fun i =>
    match text[i]? with
    | some c => if has c then [i + 1] else []
    | none => []
  | .look holds => tabulate text fun i => if holds (before text i) text[i]? then [i] else []
  | .concat a b =>
    let first := ends text a
    let second := ends text b
    tabulate text fun i => follow (entry second) (entry first i)
  | .either a b =>
    let first := ends text a
    let second := ends text b
    tabulate text fun i => (entry first i ++ entry second i).eraseDups
  | .times r least most =>
    let once := ends text r
    let enough := text.length + 1
    let further := match most with
      | some m => min (m - least) enough
      | none => enough
    tabulate text fun i =>
      roundsUpTo (entry once) further (rounds (entry once) (min least enough) [i])

def occurs (r : Regex) (text : List Char) : Bool :=
  (ends text r).any (!·.isEmpty)

def ofList : List Regex → Regex
  | [] => .empty
  | [r] => r
  | r :: rest => .concat r (ofList rest)

def anyOf : List Regex → Regex
  | [] => .empty
  | [r] => r
  | r :: rest => .either r (anyOf rest)

end Regex

end Courier.Pattern
