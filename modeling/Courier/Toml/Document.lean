import Courier.Toml.Scalar

/-!
# TOML documents

Tables, arrays of tables and key-value lines put together into one value. A table is closed to
what did not open it: each is defined once, and only tables that came into being on the way to
another may be defined later, by the kind of line that brought them in.
-/

namespace Courier.Toml

open Json

inductive Node where
  | leaf (v : Value)
  /-- `implied`: it was only passed through so far; `dotted`: by a dotted key. -/
  | table (implied dotted : Bool) (entries : List (String × Node))
  | tables (elements : List (List (String × Node)))

abbrev Entries := List (String × Node)

namespace Node

mutual
def toValue : Node → Value
  | .leaf v => v
  | .table _ _ entries => .object (entriesValue entries)
  | .tables elements => .array (elementsValue elements).reverse

def entriesValue : List (String × Node) → List (String × Value)
  | [] => []
  | (k, n) :: rest => (k, n.toValue) :: entriesValue rest

def elementsValue : List (List (String × Node)) → List Value
  | [] => []
  | es :: rest => .object (entriesValue es) :: elementsValue rest
end

end Node

def setEntry (key : String) (n : Node) : Entries → Entries
  | [] => [(key, n)]
  | (k, m) :: rest => if k = key then (k, n) :: rest else (k, m) :: setEntry key n rest

def dropEntry (key : String) (es : Entries) : Entries :=
  es.filter (·.1 != key)

/-- Changes the table at the end of a path, bringing in the tables on the way. A dotted path may
only pass through tables that are implied. The change is told whether its table was brought in by
dotted keys. -/
def descend (dotted : Bool) (change : Bool → Entries → Option Entries) (isDotted : Bool) :
    List String → Entries → Option Entries
  | [], es => change isDotted es
  | key :: path, es => do
    match es.lookup key with
    | none =>
      let inner ← descend dotted change dotted path []
      return setEntry key (.table true dotted inner) es
    | some (.leaf _) => none
    | some (.tables []) => none
    | some (.tables (last :: older)) =>
      let inner ← descend dotted change false path last
      return setEntry key (.tables (inner :: older)) es
    | some (.table implied wasDotted inner) =>
      if dotted && !implied then none
      else
        let inner ← descend dotted change wasDotted path inner
        return setEntry key (.table implied wasDotted inner) es

/-- Adds a value under a dotted key. The last table on the way must be one that dotted keys
brought in, exactly if there is such a way. -/
def addValue (path : List String) (key : String) (v : Value) (es : Entries) : Option Entries :=
  descend true
    (fun isDotted es =>
      if isDotted == path.isEmpty then none
      else if (es.lookup key).isSome then none
      else some (es ++ [(key, .leaf v)]))
    false path es

def splitLast : List String → Option (List String × String)
  | [] => none
  | [k] => some ([], k)
  | k :: rest => (splitLast rest).map fun (path, last) => (k :: path, last)

def depthLimit : Nat := 80

mutual
def value : Nat → Nat → List Char → Option (Value × List Char)
  | 0, _, _ => none
  | fuel + 1, depth, cs =>
    match cs with
    | '[' :: rest =>
      if depth + 1 < depthLimit then
        (items fuel (depth + 1) (skipLines rest.length rest)).map fun (vs, rest) => (.array vs, rest)
      else none
    | '\x7b' :: rest =>
      if depth + 1 < depthLimit then
        match skipSpace rest with
        | '\x7d' :: rest => some (.object [], rest)
        | rest => (pairs fuel (depth + 1) [] rest).map fun (es, rest) =>
          (.object (Node.entriesValue es), rest)
      else none
    | '"' :: _ => (string? cs).map fun (s, rest) => (.string (String.ofList s), rest)
    | '\'' :: _ => (string? cs).map fun (s, rest) => (.string (String.ofList s), rest)
    | cs => scalar? cs

def items : Nat → Nat → List Char → Option (List Value × List Char)
  | 0, _, _ => none
  | fuel + 1, depth, cs =>
    match cs with
    | ']' :: rest => some ([], rest)
    | cs => do
      let (v, rest) ← value fuel depth cs
      match skipLines rest.length rest with
      | ',' :: rest =>
        let (vs, rest) ← items fuel depth (skipLines rest.length rest)
        return (v :: vs, rest)
      | ']' :: rest => return ([v], rest)
      | _ => none

def pairs : Nat → Nat → Entries → List Char → Option (Entries × List Char)
  | 0, _, _, _ => none
  | fuel + 1, depth, es, cs => do
    let (path, rest) ← key? cs
    let (path, key) ← splitLast path
    let rest ← mark? '=' (skipSpace rest)
    let (v, rest) ← value fuel depth (skipSpace rest)
    let es ← addValue path key v es
    match skipSpace rest with
    | ',' :: rest => pairs fuel depth es rest
    | '\x7d' :: rest => return (es, rest)
    | _ => none
end

structure Progress where
  root : Entries := []
  path : List String := []
  element : Bool := false
  current : Entries := []

def Progress.close (p : Progress) : Option Entries :=
  match splitLast p.path with
  | none => some p.current
  | some (path, key) =>
    descend false
      (fun _ es =>
        match es.lookup key, p.element with
        | none, true => some (es ++ [(key, .tables [p.current])])
        | some (.tables elements), true => some (setEntry key (.tables (p.current :: elements)) es)
        | none, false => some (es ++ [(key, .table false false p.current)])
        | some _, _ => none)
      false path p.root

/-- The entries that a later header finds in a table that was only passed through. -/
def Progress.open (root : Entries) (path : List String) : Option Progress := do
  let (parent, key) ← splitLast path
  let found (es : Entries) : Option Entries :=
    match es.lookup key with
    | none => some []
    | some (.table true false inner) => some inner
    | some _ => none
  let checked ← descend false (fun _ es => (found es).map fun _ => dropEntry key es) false parent root
  let rec look : List String → Entries → Option Entries
    | [], es => found es
    | k :: rest, es =>
      match es.lookup k with
      | some (.table _ _ inner) => look rest inner
      | some (.tables (last :: _)) => look rest last
      | _ => some []
  return { root := checked, path, current := ← look parent root }

def Progress.append (root : Entries) (path : List String) : Option Progress := do
  let (parent, key) ← splitLast path
  let root ← descend false
    (fun _ es =>
      match es.lookup key with
      | none => some es
      | some (.tables _) => some es
      | some _ => none)
    false parent root
  return { root, path, element := true }

def line (p : Progress) (cs : List Char) : Option (Progress × List Char) := do
  let cs := skipSpace cs
  match cs with
  | '[' :: '[' :: rest =>
    let (path, rest) ← key? rest
    match skipSpace rest with
    | ']' :: ']' :: rest =>
      let p ← Progress.append (← p.close) path
      return (p, ← lineEnd? rest)
    | _ => none
  | '[' :: rest =>
    let (path, rest) ← key? rest
    match skipSpace rest with
    | ']' :: rest =>
      let p ← Progress.open (← p.close) path
      return (p, ← lineEnd? rest)
    | _ => none
  | cs =>
    match lineEnd? cs with
    | some rest => return (p, rest)
    | none =>
      let (path, rest) ← key? cs
      if depthLimit ≤ path.length then none
      else
        let (path, key) ← splitLast path
        let rest ← mark? '=' (skipSpace rest)
        let (v, rest) ← value (rest.length + 1) 0 (skipSpace rest)
        let current ← addValue path key v p.current
        return ({ p with current }, ← lineEnd? rest)

def lines : Nat → Progress → List Char → Option Progress
  | _, p, [] => some p
  | 0, _, _ => none
  | fuel + 1, p, cs => do
    let (p, rest) ← line p cs
    lines fuel p rest

def read? (text : String) : Option Value := do
  let cs := match text.toList with
    | '\uFEFF' :: rest => rest
    | cs => cs
  let p ← lines (cs.length + 1) {} cs
  return .object (Node.entriesValue (← p.close))

end Courier.Toml
