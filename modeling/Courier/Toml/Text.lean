import Courier.Decimal.Reading

/-!
# The words of TOML

Blanks, comments, keys and strings. Line ends inside strings become line feeds.
-/

namespace Courier.Toml

def isSpace (c : Char) : Bool :=
  c == ' ' || c == '\t'

def isPlain (c : Char) : Bool :=
  c == '\t' || (0x20 ≤ c.toNat && c.toNat != 0x7F)

def skipSpace (cs : List Char) : List Char :=
  cs.dropWhile isSpace

def newline? : List Char → Option (List Char)
  | '\n' :: rest => some rest
  | '\r' :: '\n' :: rest => some rest
  | _ => none

def skipComment : List Char → List Char
  | '#' :: rest => rest.dropWhile isPlain
  | cs => cs

def skipLines : Nat → List Char → List Char
  | 0, cs => cs
  | fuel + 1, cs =>
    let cs := skipSpace cs
    match cs with
    | '#' :: _ => skipLines fuel (skipComment cs)
    | cs =>
      match newline? cs with
      | some rest => skipLines fuel rest
      | none => cs

def lineEnd? (cs : List Char) : Option (List Char) :=
  match skipComment (skipSpace cs) with
  | [] => some []
  | cs => newline? cs

def codePoint? (digits : List Char) : Option Char := do
  let ds ← digits.mapM (Decimal.digitIn? 16)
  let n := ds.foldl (fun n d => n * 16 + d) 0
  if n.isValidChar then some (Char.ofNat n) else none

def escape? : List Char → Option (Char × List Char)
  | 'b' :: rest => some ('\x08', rest)
  | 't' :: rest => some ('\t', rest)
  | 'n' :: rest => some ('\n', rest)
  | 'f' :: rest => some ('\x0c', rest)
  | 'r' :: rest => some ('\r', rest)
  | '"' :: rest => some ('"', rest)
  | '\\' :: rest => some ('\\', rest)
  | 'u' :: rest =>
    if rest.length < 4 then none else (codePoint? (rest.take 4)).map (·, rest.drop 4)
  | 'U' :: rest =>
    if rest.length < 8 then none else (codePoint? (rest.take 8)).map (·, rest.drop 8)
  | _ => none

def basicString : Nat → List Char → Option (List Char × List Char)
  | 0, _ => none
  | _, [] => none
  | fuel + 1, c :: rest =>
    if c = '"' then some ([], rest)
    else if c = '\\' then do
      let (c, rest) ← escape? rest
      let (content, rest) ← basicString fuel rest
      return (c :: content, rest)
    else if isPlain c then do
      let (content, rest) ← basicString fuel rest
      return (c :: content, rest)
    else none

def literalString (cs : List Char) : Option (List Char × List Char) :=
  let content := cs.takeWhile fun c => isPlain c && c != '\''
  match cs.dropWhile fun c => isPlain c && c != '\'' with
  | '\'' :: rest => some (content, rest)
  | _ => none

/-- A run of quotes inside a string of several lines: three of them end it, and up to two before
those belong to it. -/
def quoteRun (quote : Char) (cs : List Char) : Bool × List Char × List Char :=
  let n := min (cs.takeWhile (· == quote)).length 5
  if n < 3 then (false, List.replicate n quote, cs.drop n)
  else (true, List.replicate (n - 3) quote, cs.drop n)

/-- A string of several lines from behind its opening quotes and the line end after them. A
backslash at the end of a line takes away the blanks and line ends that follow. -/
def longString (quote : Char) : Nat → List Char → Option (List Char × List Char)
  | 0, _ => none
  | _, [] => none
  | fuel + 1, c :: rest =>
    if c = quote then
      let (closed, content, rest) := quoteRun quote (c :: rest)
      if closed then some (content, rest)
      else do
        let (more, rest) ← longString quote fuel rest
        return (content ++ more, rest)
    else if c = '\\' ∧ quote = '"' then
      match newline? (skipSpace rest) with
      | some rest =>
        longString quote fuel (rest.dropWhile fun c => isSpace c || c == '\n' || c == '\r')
      | none => do
        let (c, rest) ← escape? rest
        let (content, rest) ← longString quote fuel rest
        return (c :: content, rest)
    else match newline? (c :: rest) with
      | some rest => do
        let (content, rest) ← longString quote fuel rest
        return ('\n' :: content, rest)
      | none =>
        if isPlain c then do
          let (content, rest) ← longString quote fuel rest
          return (c :: content, rest)
        else none

def afterOpening (cs : List Char) : List Char :=
  (newline? cs).getD cs

def string? (cs : List Char) : Option (List Char × List Char) :=
  match cs with
  | '"' :: '"' :: '"' :: rest => longString '"' (rest.length + 1) (afterOpening rest)
  | '"' :: rest => basicString (rest.length + 1) rest
  | '\'' :: '\'' :: '\'' :: rest => longString '\'' (rest.length + 1) (afterOpening rest)
  | '\'' :: rest => literalString rest
  | _ => none

def isBareKey (c : Char) : Bool :=
  ('a' ≤ c && c ≤ 'z') || ('A' ≤ c && c ≤ 'Z') || Decimal.isDigit c || c == '_' || c == '-'

/-- One part of a key; strings of several lines are none. -/
def keyPart? (cs : List Char) : Option (String × List Char) :=
  match cs with
  | '"' :: rest =>
    (basicString (rest.length + 1) rest).map fun (k, rest) => (String.ofList k, rest)
  | '\'' :: rest => (literalString rest).map fun (k, rest) => (String.ofList k, rest)
  | cs =>
    match cs.takeWhile isBareKey with
    | [] => none
    | k => some (String.ofList k, cs.dropWhile isBareKey)

def keyWith : Nat → List Char → Option (List String × List Char)
  | 0, _ => none
  | fuel + 1, cs => do
    let (part, rest) ← keyPart? (skipSpace cs)
    match skipSpace rest with
    | '.' :: rest =>
      let (parts, rest) ← keyWith fuel rest
      return (part :: parts, rest)
    | rest => return ([part], rest)

def key? (cs : List Char) : Option (List String × List Char) :=
  keyWith (cs.length + 1) cs

end Courier.Toml
