import Courier.Settings.Environment

/-!
# Environment files

Lines of assignments that fill in variables the environment lacks. A value may be quoted, weakly
or strongly, and then span lines; outside strong quotes it may name other variables. The first
line that is no assignment ends the reading.
-/

namespace Courier.EnvFile

/-! ## Lines -/

inductive Place where
  | outside
  | afterBlank
  | escape
  | weak
  | weakEscape
  | strong
  | strongEscape
deriving DecidableEq, Repr

/-- The place behind a character; `none` where a comment begins. -/
def Place.next : Place → Char → Option Place
  | .afterBlank, '#' => none
  | .outside, '\\' | .afterBlank, '\\' => some .escape
  | .outside, '"' | .afterBlank, '"' => some .weak
  | .outside, '\'' | .afterBlank, '\'' => some .strong
  | .outside, c => some (if Text.isBlank c && c != '\n' && c != '\r' then .afterBlank else .outside)
  | .afterBlank, _ => some .outside
  | .escape, _ => some .outside
  | .weak, '\\' => some .weakEscape
  | .weak, '"' => some .outside
  | .weak, _ => some .weak
  | .weakEscape, _ => some .weak
  | .strong, '\\' => some .strongEscape
  | .strong, '\'' => some .outside
  | .strong, _ => some .strong
  | .strongEscape, _ => some .strong

def scan (p : Place) : List Char → Option Place × List Char
  | [] => (some p, [])
  | c :: cs =>
    match p.next c with
    | none => (none, [])
    | some p =>
      let (last, kept) := scan p cs
      (last, c :: kept)

def rawLines (cs : List Char) : List (List Char) :=
  match (Text.cutAt '\n' cs).reverse with
  | [] => []
  | last :: before =>
    (before.map (· ++ ['\n'])).reverse ++ if last.isEmpty then [] else [last]

def withoutLineEnd (cs : List Char) : List Char :=
  match cs.reverse with
  | '\n' :: '\r' :: rest => rest.reverse
  | '\n' :: rest => rest.reverse
  | _ => cs

/-- Lines joined where a quotation goes on; `none` where the text ends within one. -/
def joinLines (sofar : List Char) (p : Place) : List (List Char) → List (Option (List Char))
  | [] => if p = .outside then [] else [none]
  | line :: rest =>
    let whole := sofar ++ line
    if (Text.trimStart whole).head? = some '#' then some [] :: joinLines [] .outside rest
    else match scan p line with
      | (none, kept) => some (sofar ++ kept) :: joinLines [] .outside rest
      | (some .outside, _) => some (withoutLineEnd whole) :: joinLines [] .outside rest
      | (some p, _) => joinLines whole p rest

/-! ## Values -/

inductive Quote where
  | bare
  | weak
  | strong
deriving DecidableEq, Repr

inductive Phase where
  | plain
  | escaped
  | ended
  | name (sofar : List Char)
  | braced (sofar : List Char)
deriving DecidableEq, Repr

def isNameCharacter (c : Char) : Bool :=
  c.isAlphanum || (128 ≤ c.toNat && !Text.isBlank c)

def substitute (env : Environment) (name : List Char) : List Char :=
  ((env (String.ofList name.reverse)).getD "").toList

def value? (env : Environment) : Quote → Phase → List Char → Option (List Char)
  | _, .ended, [] => some []
  | q, p, [] =>
    match q, p with
    | .bare, .braced _ => none
    | .bare, .name n => some (substitute env n)
    | .bare, _ => some []
    | _, _ => none
  | q, .ended, c :: cs =>
    if c = ' ' ∨ c = '\t' then value? env q .ended cs
    else if c = '#' then (if q = .bare then some [] else none)
    else none
  | q, .escaped, c :: cs =>
    if ['\\', '\'', '"', '$', ' '].contains c then (value? env q .plain cs).map (c :: ·)
    else if c = 'n' then (value? env q .plain cs).map ('\n' :: ·)
    else none
  | q, .name n, c :: cs =>
    if isNameCharacter c then value? env q (.name (c :: n)) cs
    else if c = '\x7b' ∧ n = [] then value? env q (.braced []) cs
    else if c = '$' then (value? env q (.name []) cs).map (substitute env n ++ ·)
    else (value? env q .plain cs).map (substitute env n ++ c :: ·)
  | q, .braced n, c :: cs =>
    if c = '\x7d' then (value? env q .plain cs).map (substitute env n ++ ·)
    else value? env q (.braced (c :: n)) cs
  | .strong, .plain, c :: cs =>
    if c = '\'' then value? env .bare .plain cs
    else (value? env .strong .plain cs).map (c :: ·)
  | .weak, .plain, c :: cs =>
    if c = '$' then value? env .weak (.name []) cs
    else if c = '"' then value? env .bare .plain cs
    else if c = '\\' then value? env .weak .escaped cs
    else (value? env .weak .plain cs).map (c :: ·)
  | .bare, .plain, c :: cs =>
    if c = '$' then value? env .bare (.name []) cs
    else if c = '\'' then value? env .strong .plain cs
    else if c = '"' then value? env .weak .plain cs
    else if c = '\\' then value? env .bare .escaped cs
    else if c = ' ' ∨ c = '\t' then value? env .bare .ended cs
    else (value? env .bare .plain cs).map (c :: ·)

/-! ## Assignments -/

def key? (cs : List Char) : Option (String × List Char) :=
  let isPart (c : Char) : Bool := c.isAlphanum || c = '_' || c = '.'
  match cs with
  | c :: _ =>
    if c.isAlpha || c = '_' then some (String.ofList (cs.takeWhile isPart), cs.dropWhile isPart)
    else none
  | [] => none

def equals? (cs : List Char) : Option (List Char) :=
  match Text.trimStart cs with
  | '=' :: rest => some rest
  | _ => none

/-- The name that is assigned to, and the text behind the sign. The word `export` may be left
of a name, but is a name itself too. -/
def assigned? (name : String) (rest : List Char) : Option (String × List Char) :=
  match equals? rest with
  | some rest => some (name, rest)
  | none =>
    if name = "export" then
      (key? (Text.trimStart rest)).bind fun (name, rest) => (equals? rest).map (name, ·)
    else none

inductive Line where
  | nothing
  | assignment (name value : String)
deriving Repr

def line? (env : Environment) (cs : List Char) : Option Line :=
  match Text.trimStart (Text.trimEnd cs) with
  | [] => some .nothing
  | '#' :: _ => some .nothing
  | cs => do
    let (name, rest) ← key? cs
    let (name, rest) ← assigned? name rest
    match Text.trimStart rest with
    | [] => return .assignment name ""
    | '#' :: _ => return .assignment name ""
    | rest => return .assignment name (String.ofList (← value? env .bare .plain rest))

def fill (env : Environment) : List (Option (List Char)) → Environment
  | some cs :: rest =>
    match line? env cs with
    | some (.assignment name value) => fill (env.overlay (Environment.ofList [(name, value)])) rest
    | some .nothing => fill env rest
    | none => env
  | _ => env

def apply (env : Environment) (content : String) : Environment :=
  let cs := match content.toList with
    | '\uFEFF' :: rest => rest
    | cs => cs
  fill env (joinLines [] .outside (rawLines cs))

end Courier.EnvFile
