import Courier.Pattern.Syntax
import Courier.Text.Blank
import Courier.Text.Printable
import Courier.Decimal.Reading

/-!
# Reading patterns

From text to syntax tree. Under the flag `x` blanks and comments between the parts of a pattern
are skipped. Every step takes a character, so the length of the text bounds their number.
-/

namespace Courier.Pattern

def skipBlanks : (inComment : Bool) → List Char → List Char
  | _, [] => []
  | true, c :: rest => skipBlanks (c != '\n') rest
  | false, c :: rest =>
    if Text.isBlank c then skipBlanks false rest
    else if c = '#' then skipBlanks true rest
    else c :: rest

def skip (spaced : Bool) (cs : List Char) : List Char :=
  if spaced then skipBlanks false cs else cs

def takeRunWithin (spaced : Bool) (p : Char → Bool) : Nat → List Char → List Char × List Char
  | fuel + 1, c :: rest =>
    if p c then
      let (run, rest) := takeRunWithin spaced p fuel (skip spaced rest)
      (c :: run, rest)
    else ([], c :: rest)
  | _, cs => ([], cs)

def takeRun (spaced : Bool) (p : Char → Bool) (cs : List Char) : List Char × List Char :=
  takeRunWithin spaced p cs.length cs

def isAsciiLetter (c : Char) : Bool :=
  ('a' ≤ c && c ≤ 'z') || ('A' ≤ c && c ≤ 'Z')

/-- Characters that a backslash makes literal: the ASCII ones that are neither letters nor digits
nor angle brackets. -/
def isEscapable (c : Char) : Bool :=
  c.toNat < 128 && !isAsciiLetter c && !Decimal.isDigit c && c != '<' && c != '>'

/-- Exactly `n` hexadecimal digits. -/
def hexDigits (spaced : Bool) : Nat → Nat → List Char → Except Error (Nat × List Char)
  | 0, value, cs => .ok (value, cs)
  | n + 1, value, c :: rest =>
    match Decimal.digitIn? 16 c with
    | some d => hexDigits spaced n (value * 16 + d) (skip spaced rest)
    | none => .error .escape
  | _ + 1, _, [] => .error .escape

def hexBraced (spaced : Bool) : Nat → Option Nat → List Char → Except Error (Nat × List Char)
  | 0, _, _ => .error .escape
  | fuel + 1, value, cs =>
    match skip spaced cs with
    | [] => .error .escape
    | '\x7d' :: rest =>
      match value with
      | some n => .ok (n, skip spaced rest)
      | none => .error .escape
    | c :: rest =>
      match Decimal.digitIn? 16 c with
      | some d => hexBraced spaced fuel (some (value.getD 0 * 16 + d)) rest
      | none => .error .escape

def charOf? (n : Nat) : Option Char :=
  if n.isValidChar then some (Char.ofNat n) else none

def readHex (spaced : Bool) (width : Nat) (cs : List Char) :
    Except Error (Literal × List Char) := do
  match skip spaced cs with
  | '\x7b' :: rest =>
    let (n, rest) ← hexBraced spaced (rest.length + 1) none rest
    match charOf? n with
    | some c => return (⟨c, false⟩, rest)
    | none => .error .codePoint
  | cs =>
    let (n, rest) ← hexDigits spaced width 0 cs
    match charOf? n with
    | some c => return (⟨c, width == 2⟩, rest)
    | none => .error .codePoint

def readBraced (spaced : Bool) : Nat → List Char → Except Error (List Char × List Char)
  | 0, _ => .error .escape
  | fuel + 1, cs =>
    match skip spaced cs with
    | [] => .error .escape
    | '\x7d' :: rest => .ok ([], rest)
    | c :: rest => do
      let (name, rest) ← readBraced spaced fuel rest
      return (c :: name, rest)

/-- A property with its value: `name!=value`, `name:value`, `name=value` or a name alone. -/
def propertyOf (negated : Bool) (text : List Char) : NamedClass :=
  let rec splitUnequal : List Char → Option (List Char × List Char)
    | [] => none
    | '!' :: '=' :: rest => some ([], rest)
    | c :: rest => (splitUnequal rest).map fun (a, b) => (c :: a, b)
  let splitAt (mark : Char) : Option (List Char × List Char) :=
    if mark ∈ text then
      some (text.takeWhile (· ≠ mark), (text.dropWhile (· ≠ mark)).drop 1)
    else none
  match splitUnequal text with
  | some (name, value) => .property (!negated) name (some value)
  | none =>
    match splitAt ':' <|> splitAt '=' with
    | some (name, value) => .property negated name (some value)
    | none => .property negated text none

def readProperty (spaced negated : Bool) (cs : List Char) :
    Except Error (NamedClass × List Char) := do
  match skip spaced cs with
  | [] => .error .escape
  | '\x7b' :: rest =>
    let (text, rest) ← readBraced spaced (rest.length + 1) rest
    return (propertyOf negated text, rest)
  | c :: rest =>
    if c = '\\' then .error .unknownProperty
    else return (.property negated [c] none, skip spaced rest)

def isBoundaryChar (c : Char) : Bool :=
  isAsciiLetter c || c == '-'

def boundaryOf? (name : List Char) : Option Assertion :=
  match String.ofList name with
  | "start" => some .wordStart
  | "end" => some .wordEnd
  | "start-half" => some .wordStartHalf
  | "end-half" => some .wordEndHalf
  | _ => none

/-- A word boundary; braces after it name a special one, unless they start a repetition. -/
def readBoundary (spaced : Bool) (cs : List Char) : Except Error (Assertion × List Char) :=
  match cs with
  | '\x7b' :: rest =>
    match skip spaced rest with
    | [] => .error .escape
    | c :: more =>
      if isBoundaryChar c then
        let (name, after) := takeRun spaced isBoundaryChar (c :: more)
        match after, boundaryOf? name with
        | '\x7d' :: after, some a => .ok (a, after)
        | _, _ => .error .escape
      else .ok (.wordBoundary, cs)
  | cs => .ok (.wordBoundary, cs)

inductive Atom where
  | literal (c : Literal)
  | assertion (a : Assertion)
  | named (c : NamedClass)

def Atom.tree : Atom → Tree
  | .literal c => .literal c
  | .assertion a => .assertion a
  | .named c => .named c

def readEscape (spaced : Bool) (cs : List Char) : Except Error (Atom × List Char) :=
  match cs with
  | [] => .error .escape
  | c :: rest =>
    let char (d : Char) : Except Error (Atom × List Char) := .ok (.literal ⟨d, false⟩, rest)
    if Decimal.isDigit c then .error .backreference
    else if isEscapable c then char c
    else match c with
      | 'x' => (readHex spaced 2 rest).map fun (l, rest) => (.literal l, rest)
      | 'u' => (readHex spaced 4 rest).map fun (l, rest) => (.literal l, rest)
      | 'U' => (readHex spaced 8 rest).map fun (l, rest) => (.literal l, rest)
      | 'p' => (readProperty spaced false rest).map fun (p, rest) => (.named p, rest)
      | 'P' => (readProperty spaced true rest).map fun (p, rest) => (.named p, rest)
      | 'd' => .ok (.named (.digit false), rest)
      | 'D' => .ok (.named (.digit true), rest)
      | 's' => .ok (.named (.space false), rest)
      | 'S' => .ok (.named (.space true), rest)
      | 'w' => .ok (.named (.word false), rest)
      | 'W' => .ok (.named (.word true), rest)
      | 'a' => char '\x07'
      | 'f' => char '\x0c'
      | 't' => char '\t'
      | 'n' => char '\n'
      | 'r' => char '\r'
      | 'v' => char '\x0b'
      | 'A' => .ok (.assertion .textStart, rest)
      | 'z' => .ok (.assertion .textEnd, rest)
      | 'B' => .ok (.assertion .notWordBoundary, rest)
      | '<' => .ok (.assertion .wordStart, rest)
      | '>' => .ok (.assertion .wordEnd, rest)
      | 'b' => (readBoundary spaced rest).map fun (a, rest) => (.assertion a, rest)
      | _ => .error .escape

def readCount (spaced : Bool) (cs : List Char) : Except Error (Option Nat × List Char) :=
  let cs := Text.trimStart cs
  let (ds, rest) := takeRun spaced Decimal.isDigit cs
  let (_, rest) := takeRun spaced Text.isBlank rest
  if ds.isEmpty then .ok (none, rest)
  else
    let n := Decimal.ofDigits ds
    if n < UInt32.size then .ok (some n, rest) else .error .repetition

/-- A laziness mark changes nothing about what matches. -/
def dropLazy : List Char → List Char
  | '?' :: rest => rest
  | cs => cs

def closeCounts (spaced : Bool) (least : Nat) (most : Option Nat) (cs : List Char) :
    Except Error ((Nat × Option Nat) × List Char) :=
  match cs with
  | '\x7d' :: rest =>
    if most.all (least ≤ ·) then .ok ((least, most), dropLazy (skip spaced rest))
    else .error .repetition
  | _ => .error .repetition

def readCounts (spaced : Bool) (cs : List Char) :
    Except Error ((Nat × Option Nat) × List Char) := do
  match ← readCount spaced (skip spaced cs) with
  | (some least, ',' :: rest) =>
    match skip spaced rest with
    | '\x7d' :: rest => closeCounts spaced least none ('\x7d' :: rest)
    | rest =>
      match ← readCount spaced rest with
      | (some most, rest) => closeCounts spaced least (some most) rest
      | (none, _) => .error .repetition
  | (some least, rest) => closeCounts spaced least (some least) rest
  | (none, _) => .error .repetition

def repeated (done : List Tree) (least : Nat) (most : Option Nat) : Except Error (List Tree) :=
  match done with
  | [] => .error .missingOperand
  | .empty :: _ => .error .missingOperand
  | .flags _ :: _ => .error .missingOperand
  | t :: rest => .ok (.repetition t least most :: rest)

def flagOf? : Char → Option Flag
  | 'i' => some .ignoreCase
  | 'm' => some .multiLine
  | 's' => some .dotAll
  | 'U' => some .swapGreed
  | 'u' => some .unicode
  | 'R' => some .anyLineEnd
  | 'x' => some .ignoreSpace
  | _ => none

/-- Flags up to a colon or a closing parenthesis. No flag stands twice, a minus stands once and
not at the end. -/
def readFlags (negated : Bool) (dangling : Bool) (seen : FlagChange) :
    List Char → Except Error (FlagChange × Char × List Char)
  | [] => .error .flag
  | c :: rest =>
    if c = ':' ∨ c = ')' then
      if dangling then .error .flag else .ok (seen.reverse, c, rest)
    else if c = '-' then
      if negated then .error .flag else readFlags true true seen rest
    else match flagOf? c with
      | none => .error .flag
      | some f =>
        if seen.any (·.1 == f) then .error .flag
        else readFlags negated false ((f, !negated) :: seen) rest

/-- Beyond ASCII every printable character that is no blank counts as a letter. -/
def isNameChar (first : Bool) (c : Char) : Bool :=
  c == '_' || isAsciiLetter c || (c.toNat ≥ 128 && Text.isPrintable c && !Text.isBlank c) ||
    (!first && (Decimal.isDigit c || c == '.' || c == '[' || c == ']'))

def readGroupName (first : Bool) : List Char → Except Error (List Char × List Char)
  | [] => .error .groupName
  | c :: rest =>
    if c = '>' then
      if first then .error .groupName else .ok ([], rest)
    else if isNameChar first c then do
      let (name, rest) ← readGroupName false rest
      return (c :: name, rest)
    else .error .groupName

inductive Opening where
  | group (change : FlagChange) (name : Option (List Char))
  | flags (change : FlagChange)

def Opening.ofFlags (change : FlagChange) (close : Char) : Except Error Opening :=
  if close = ':' then .ok (.group change none)
  else if change.isEmpty then .error .missingOperand
  else .ok (.flags change)

def readOpening (cs : List Char) : Except Error (Opening × List Char) :=
  match cs with
  | '?' :: '=' :: _ => .error .lookAround
  | '?' :: '!' :: _ => .error .lookAround
  | '?' :: '<' :: '=' :: _ => .error .lookAround
  | '?' :: '<' :: '!' :: _ => .error .lookAround
  | '?' :: 'P' :: '<' :: rest =>
    (readGroupName true rest).map fun (name, rest) => (.group [] (some name), rest)
  | '?' :: '<' :: rest =>
    (readGroupName true rest).map fun (name, rest) => (.group [] (some name), rest)
  | '?' :: rest => do
    let (change, close, rest) ← readFlags false false [] rest
    return (← Opening.ofFlags change close, rest)
  | cs => .ok (.group [] none, cs)

def spacedAfter (spaced : Bool) (change : FlagChange) : Bool :=
  (change.lookup .ignoreSpace).getD spaced

def posixOf? (name : List Char) : Option Posix :=
  match String.ofList name with
  | "alnum" => some .alnum
  | "alpha" => some .alpha
  | "ascii" => some .ascii
  | "blank" => some .blank
  | "cntrl" => some .cntrl
  | "digit" => some .digit
  | "graph" => some .graph
  | "lower" => some .lower
  | "print" => some .print
  | "punct" => some .punct
  | "space" => some .space
  | "upper" => some .upper
  | "word" => some .word
  | "xdigit" => some .xdigit
  | _ => none

def readPosixName? (negated : Bool) (cs : List Char) : Option (ClassSet × List Char) :=
  match cs.dropWhile (· ≠ ':') with
  | ':' :: ']' :: rest => (posixOf? (cs.takeWhile (· ≠ ':'))).map (.posix negated ·, rest)
  | _ => none

def readPosix? (cs : List Char) : Option (ClassSet × List Char) :=
  match cs with
  | ':' :: '^' :: rest => readPosixName? true rest
  | ':' :: rest => readPosixName? false rest
  | _ => none

def readNegation (spaced : Bool) (cs : List Char) : Bool × List Char :=
  match skip spaced cs with
  | '^' :: rest => (true, skip spaced rest)
  | cs => (false, cs)

/-- The items of a class that are literal only in first place: minus signs, or a bracket. -/
def readLeading (spaced : Bool) (cs : List Char) : List ClassSet × List Char :=
  match takeRun spaced (· == '-') cs with
  | ([], ']' :: rest) => ([.literal ⟨']', false⟩], skip spaced rest)
  | (dashes, rest) => (dashes.map (.literal ⟨·, false⟩), rest)

def readClassOpening (spaced : Bool) (cs : List Char) : Bool × List ClassSet × List Char :=
  let (negated, cs) := readNegation spaced cs
  (negated, readLeading spaced cs)

def readClassAtom (spaced : Bool) (cs : List Char) : Except Error (Atom × List Char) :=
  match cs with
  | [] => .error .classUnclosed
  | '\\' :: rest => readEscape spaced rest
  | c :: rest => .ok (.literal ⟨c, false⟩, rest)

def Atom.item : Atom → Except Error ClassSet
  | .literal c => .ok (.literal c)
  | .named c => .ok (.named c)
  | .assertion _ => .error .classEscape

def Atom.upTo : Atom → Atom → Except Error ClassSet
  | .literal low, .literal high =>
    if low.char ≤ high.char then .ok (.range low high) else .error .classRange
  | _, _ => .error .classRange

/-- The character that follows a minus sign, over blanks and the start of a comment. -/
def peekBeyond (spaced : Bool) (cs : List Char) : Option Char :=
  if spaced then
    match Text.trimStart cs with
    | '#' :: rest => (Text.trimStart rest).head?
    | cs => cs.head?
  else cs.head?

def readClassItem (spaced : Bool) (cs : List Char) : Except Error (ClassSet × List Char) := do
  let (first, cs) ← readClassAtom spaced cs
  match skip spaced cs with
  | [] => .error .classUnclosed
  | '-' :: rest =>
    let next := peekBeyond spaced rest
    if next = some ']' ∨ next = some '-' then return (← first.item, '-' :: rest)
    else
      let (second, rest) ← readClassAtom spaced (skip spaced rest)
      return (← first.upTo second, rest)
  | cs => return (← first.item, cs)

structure ClassProgress where
  left : Option (ClassOp × ClassSet)
  items : List ClassSet

def ClassProgress.close (p : ClassProgress) : ClassSet :=
  let right := ClassSet.ofItems p.items.reverse
  match p.left with
  | some (op, left) => .op op left right
  | none => right

/-- The operators bind alike and from the left. -/
def ClassProgress.operator (p : ClassProgress) (op : ClassOp) : ClassProgress :=
  ⟨some (op, p.close), []⟩

def ClassProgress.push (p : ClassProgress) (s : ClassSet) : ClassProgress :=
  { p with items := s :: p.items }

def readClass (spaced : Bool) :
    Nat → ClassProgress → List Char → Except Error (ClassSet × List Char)
  | 0, _, _ => .error .classUnclosed
  | fuel + 1, p, cs =>
    match skip spaced cs with
    | [] => .error .classUnclosed
    | ']' :: rest => .ok (p.close, rest)
    | '[' :: rest =>
      match readPosix? rest with
      | some (s, rest) => readClass spaced fuel (p.push s) rest
      | none => do
        let (negated, items, rest) := readClassOpening spaced rest
        let (inner, rest) ← readClass spaced fuel ⟨none, items.reverse⟩ rest
        readClass spaced fuel (p.push (.bracketed negated inner)) rest
    | '&' :: '&' :: rest => readClass spaced fuel (p.operator .intersection) rest
    | '-' :: '-' :: rest => readClass spaced fuel (p.operator .difference) rest
    | '~' :: '~' :: rest => readClass spaced fuel (p.operator .symmetricDifference) rest
    | cs => do
      let (item, rest) ← readClassItem spaced cs
      readClass spaced fuel (p.push item) rest

/-- An alternation up to the end of the text or a closing parenthesis, which is left standing.
Branches and the parts of the current one stand in reverse. -/
def readBranches : Nat → Bool → List Tree → List Tree → List Char → Except Error (Tree × List Char)
  | 0, _, _, _, _ => .error .groupUnclosed
  | fuel + 1, spaced, branches, done, cs =>
    let finish (rest : List Char) : Except Error (Tree × List Char) :=
      .ok (.ofBranches (.ofSequence done.reverse :: branches).reverse, rest)
    let again (least : Nat) (most : Option Nat) (rest : List Char) := do
      readBranches fuel spaced branches (← repeated done least most) (dropLazy rest)
    match skip spaced cs with
    | [] => finish []
    | ')' :: rest => finish (')' :: rest)
    | '|' :: rest => readBranches fuel spaced (.ofSequence done.reverse :: branches) [] rest
    | '(' :: rest => do
      let (opening, rest) ← readOpening (skip spaced rest)
      match opening with
      | .flags change =>
        readBranches fuel (spacedAfter spaced change) branches (.flags change :: done) rest
      | .group change name =>
        let (inner, rest) ← readBranches fuel (spacedAfter spaced change) [] [] rest
        match rest with
        | ')' :: rest => readBranches fuel spaced branches (.group change name inner :: done) rest
        | _ => .error .groupUnclosed
    | '[' :: rest => do
      let (negated, items, rest) := readClassOpening spaced rest
      let (s, rest) ← readClass spaced (rest.length + 1) ⟨none, items.reverse⟩ rest
      readBranches fuel spaced branches (.bracketed negated s :: done) rest
    | '?' :: rest => again 0 (some 1) rest
    | '*' :: rest => again 0 none rest
    | '+' :: rest => again 1 none rest
    | '\x7b' :: rest => do
      if done.isEmpty then .error .missingOperand
      let ((least, most), rest) ← readCounts spaced rest
      readBranches fuel spaced branches (← repeated done least most) rest
    | '.' :: rest => readBranches fuel spaced branches (.dot :: done) rest
    | '^' :: rest => readBranches fuel spaced branches (.assertion .lineStart :: done) rest
    | '$' :: rest => readBranches fuel spaced branches (.assertion .lineEnd :: done) rest
    | '\\' :: rest => do
      let (atom, rest) ← readEscape spaced rest
      readBranches fuel spaced branches (atom.tree :: done) rest
    | c :: rest => readBranches fuel spaced branches (.literal ⟨c, false⟩ :: done) rest

def depthLimit : Nat := 250

/-- The tree of a whole text. Names of groups must differ. -/
def read (pattern : String) : Except Error Tree := do
  let cs := pattern.toList
  let (tree, rest) ← readBranches (cs.length + 1) false [] [] cs
  if !rest.isEmpty then .error .groupUnopened
  if !decide tree.names.Nodup then .error .groupName
  if depthLimit < tree.depth then .error .tooDeep
  return tree

end Courier.Pattern
