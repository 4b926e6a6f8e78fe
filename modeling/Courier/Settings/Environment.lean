import Courier.Decimal.Reading
import Courier.Settings.Basic

/-!
# Settings from the environment

Variables that replace single settings, read in a fixed order. A value is trimmed and must parse
as its setting; the first that does not stops the reading, and what was read before it stays.
The queue name is taken as it stands and goes to both sides.
-/

namespace Courier

abbrev Environment := String → Option String

namespace Environment

def ofList (vars : List (String × String)) : Environment :=
  fun name => vars.lookup name

def overlay (high low : Environment) : Environment :=
  fun name => high name <|> low name

end Environment

/-- A variable, and what its trimmed value does to the settings. -/
structure Override where
  name : String
  read : List Char → Option (Settings → Settings)

namespace Override

def word32? (cs : List Char) : Option UInt32 :=
  (Decimal.unsigned? (UInt32.size - 1) cs).map UInt32.ofNat

def word64? (cs : List Char) : Option UInt64 :=
  (Decimal.unsigned? (UInt64.size - 1) cs).map UInt64.ofNat

def boolean? (cs : List Char) : Option Bool :=
  match String.ofList cs with
  | "true" => some true
  | "false" => some false
  | _ => none

def text? (cs : List Char) : Option String :=
  some (String.ofList cs)

def format? (cs : List Char) : Option RecordFormat :=
  (RecordFormat.parse (String.ofList cs)).toOption

def of (name : String) (parse : List Char → Option α) (set : α → Settings → Settings) :
    Override :=
  ⟨name, fun cs => (parse cs).map set⟩

def all : List Override :=
  [of "HS_RETRIES" word32? fun n s => { s with retry.retries := n },
    of "HS_RETRY_DELAY_MS" word64? fun n s => { s with retry.delay := n },
    of "HS_RETRY_MAX_DELAY_MS" word64? fun n s => { s with retry.maxDelay := n },
    of "HS_RETRY_DELAY_FACTOR" Decimal.float? fun x s => { s with retry.factor := x },
    of "HS_RETRY_JITTER_MS" word64? fun n s => { s with retry.jitter := n },
    of "HS_SUCCESS_PATTERN" text? fun p s => { s with retry.successPattern := p },
    of "HS_CONNECT_TIMEOUT_MS" word64? fun n s => { s with http.connectTimeout := n },
    of "HS_REQUEST_TIMEOUT_MS" word64? fun n s => { s with http.requestTimeout := n },
    of "HS_PUBLISH_TO_IN_MEMORY_QUEUE" boolean? fun b s => { s with sink.publish := b },
    of "HS_CONCURRENCY" word64? fun n s => { s with sink.concurrency := n },
    of "HS_SOURCE_ENABLED" boolean? fun b s => { s with source.enabled := b },
    of "HS_SUCCESS_TOPIC" text? fun t s => { s with source.successTopic := t },
    of "HS_ERRORS_TOPIC" text? fun t s => { s with source.errorsTopic := t },
    of "HS_SOURCE_RECORD_FORMAT" format? fun f s => { s with source.format := f }]

/-- The settings with what the variables say, up to the first bad value. -/
def apply (env : Environment) : List Override → Settings → Settings × Option SettingsError
  | [], s => (s, none)
  | o :: rest, s =>
    match env o.name with
    | none => apply env rest s
    | some value =>
      match o.read (Text.trimChars value.toList) with
      | some set => apply env rest (set s)
      | none => (s, some (.badVariable o.name value))

end Override

namespace Settings

def queueVariable : String := "HS_QUEUE_NAME"

def withQueueName (s : Settings) (name : String) : Settings :=
  { s with sink.queueName := name, source.queueName := name }

def override (s : Settings) (env : Environment) : Settings × Option SettingsError :=
  match Override.apply env Override.all s with
  | (s, some e) => (s, some e)
  | (s, none) => (((env queueVariable).map s.withQueueName).getD s, none)

end Settings

end Courier
