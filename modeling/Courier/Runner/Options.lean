import Courier.Settings.Environment

/-!
# The command line

Four options, each of which a variable of the environment may give instead. Arguments are read
from left to right and the first fault ends the reading, as does a call for help.
-/

namespace Courier.Runner

structure Options where
  config : Option String := none
  batchSize : UInt64 := 100
  /-- Milliseconds that the relay waits for exchanges at a time. -/
  pollInterval : UInt64 := 500
  jsonLogs : Bool := false
deriving DecidableEq, Repr

inductive Switch where
  | config
  | batchSize
  | pollInterval
  | jsonLogs
deriving DecidableEq, Repr

namespace Switch

def all : List Switch := [config, batchSize, pollInterval, jsonLogs]

def name : Switch → String
  | config => "config"
  | batchSize => "batch-size"
  | pollInterval => "poll-interval-ms"
  | jsonLogs => "json-logs"

def envName : Switch → String
  | config => "HS_CONFIG"
  | batchSize => "HS_BATCH_SIZE"
  | pollInterval => "HS_POLL_INTERVAL_MS"
  | jsonLogs => "HS_JSON_LOGS"

def named? (text : String) : Option Switch :=
  all.find? (·.name == text)

def about : Switch → String
  | config => "TOML configuration file"
  | batchSize => "Records handed to the sink per batch"
  | pollInterval => "How long the source waits for acknowledgements per poll"
  | jsonLogs => "Emit logs as JSON"

def placeholder : Switch → Option String
  | config => some "CONFIG"
  | batchSize => some "BATCH_SIZE"
  | pollInterval => some "POLL_INTERVAL_MS"
  | jsonLogs => none

def standard : Switch → Option String
  | config => none
  | batchSize => some "100"
  | pollInterval => some "500"
  | jsonLogs => none

def set (s : Switch) (value : String) (o : Options) : Option Options :=
  match s with
  | config => if value.isEmpty then none else some { o with config := some value }
  | batchSize => (Override.word64? value.toList).map fun n => { o with batchSize := n }
  | pollInterval => (Override.word64? value.toList).map fun n => { o with pollInterval := n }
  | jsonLogs => (Override.boolean? value.toList).map fun b => { o with jsonLogs := b }

end Switch

inductive UsageError where
  | unexpected (argument : String)
  | repeated (s : Switch)
  | noValue (s : Switch)
  | surplusValue (s : Switch)
  | badValue (s : Switch) (value : String)
deriving DecidableEq, Repr

inductive Usage where
  | help
  | run (o : Options)
deriving DecidableEq, Repr

namespace Usage

inductive Form where
  | long (name : String) (value : Option String)
  | help
  | divider
  | other
deriving DecidableEq, Repr

def formOf (argument : String) : Form :=
  match argument.toList with
  | ['-', '-'] => .divider
  | '-' :: '-' :: body =>
    let name := String.ofList (body.takeWhile (· != '='))
    match body.dropWhile (· != '=') with
    | [] => if name = "help" then .help else .long name none
    | _ :: value => .long name (some (String.ofList value))
  | '-' :: 'h' :: _ => .help
  | _ => .other

/-- A lone dash is a value, anything else with a dash in front is not. -/
def canBeValue (argument : String) : Bool :=
  argument = "-" || argument.toList.head? != some '-'

structure Progress where
  options : Options := {}
  given : List Switch := []

def Progress.give (p : Progress) (s : Switch) (value : String) : Except UsageError Progress :=
  if p.given.contains s then .error (.repeated s)
  else match s.set value p.options with
    | some options => .ok ⟨options, s :: p.given⟩
    | none => .error (.badValue s value)

def arguments : List String → Progress → Except UsageError (Option Progress)
  | [], p => .ok (some p)
  | argument :: rest, p =>
    match formOf argument with
    | .help => .ok none
    | .other => .error (.unexpected argument)
    | .divider =>
      match rest with
      | [] => .ok (some p)
      | next :: _ => .error (.unexpected next)
    | .long name value =>
      match Switch.named? name, value, rest with
      | none, _, _ => .error (.unexpected argument)
      | some .jsonLogs, some _, _ => .error (.surplusValue .jsonLogs)
      | some .jsonLogs, none, rest => do arguments rest (← p.give .jsonLogs "true")
      | some s, some value, rest => do arguments rest (← p.give s value)
      | some s, none, value :: rest =>
        if canBeValue value then do arguments rest (← p.give s value) else .error (.noValue s)
      | some s, none, [] => .error (.noValue s)

def complete (env : Environment) : List Switch → Progress → Except UsageError Progress
  | [], p => .ok p
  | s :: rest, p =>
    match env s.envName with
    | some value =>
      if p.given.contains s then complete env rest p
      else do complete env rest (← p.give s value)
    | none => complete env rest p

def read (args : List String) (env : Environment) : Except UsageError Usage := do
  match ← arguments args {} with
  | none => return .help
  | some p => return .run (← complete env Switch.all p).options

def helpLines (env : Environment) (s : Switch) : List String :=
  let value := match s.placeholder with
    | some name => " <" ++ name ++ ">"
    | none => ""
  let standard := match s.standard with
    | some text => " [default: " ++ text ++ "]"
    | none => ""
  ["      --" ++ s.name ++ value,
    "          " ++ s.about ++ " [env: " ++ s.envName ++ "=" ++ (env s.envName).getD "" ++ "]" ++
      standard]

def helpText (env : Environment) : List String :=
  ["Execute HTTP calls described by JSON records, with retries", "", "Usage: hs-sink [OPTIONS]", "",
    "Options:"] ++ Switch.all.flatMap (helpLines env) ++ ["  -h, --help", "          Print help"]

end Usage

end Courier.Runner
