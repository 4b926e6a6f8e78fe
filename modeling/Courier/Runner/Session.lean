import Courier.Delivery.Timeline
import Courier.Runner.EnvFile
import Courier.Runner.Intake
import Courier.Runner.Options
import Courier.Settings.Loading
import Courier.Wire.Client

/-!
# Sessions

A run of the program: it starts with its settings, works off batches of records while the relay
gives out what becomes of them, and drains the relay at the end of its input.
-/

namespace Courier.Runner

structure Setting where
  arguments : List String
  environment : Environment
  envFile : Option String := none
  file : String → SettingsFile

def Setting.effective (s : Setting) : Environment :=
  match s.envFile with
  | some content => EnvFile.apply s.environment content
  | none => s.environment

inductive StartError where
  | settings (e : SettingsError)
  | client (e : TransportError)
  | queue (e : QueueError)

structure Session (σ : Type) where
  delivery : Delivery
  world : World σ
  site : Site σ
  relay : Option Relay

namespace Session

variable {σ : Type}

/-- Starts with checked settings. The relay registers before anything is sent. -/
def start (s : Settings) (worldOf : Wire.Client → World σ) (outside : σ) :
    Except StartError (Session σ) := do
  let client ← (Wire.Client.of s.http).mapError .client
  let delivery : Delivery := ⟨⟨.ofSettings s.retry, s.sink.requireCorrelationId⟩, s.sink⟩
  let world := worldOf client
  if s.source.enabled then
    let (relay, broker) ← (Relay.start ⟨s.source, false⟩ {}).mapError .queue
    return ⟨delivery, world, { world := outside, broker }, some relay⟩
  else return ⟨delivery, world, { world := outside }, none⟩

def giveOut (s : Session σ) (poll : Relay → Broker Exchange → Relay.Polled) :
    List OutboundRecord × Session σ :=
  match s.relay with
  | some relay =>
    let p := poll relay s.site.broker
    (p.records, { s with site := ({ s.site with broker := p.broker } : Site σ).count p.metrics })
  | none => ([], s)

variable [Pattern.Room]

def runBatch (s : Session σ) (records : List InboundRecord) :
    (List OutboundRecord × Nat) × Session σ :=
  let (put, site) := s.site.put s.world s.delivery records
  let (out, s) := { s with site }.giveOut Relay.follow
  ((out, put.elapsed), s)

def runBatches (s : Session σ) : List (List InboundRecord) → List OutboundRecord × Session σ
  | [] => ([], s)
  | batch :: rest =>
    let ((out, _), s) := s.runBatch batch
    let (more, s) := s.runBatches rest
    (out ++ more, s)

def finish (s : Session σ) : List OutboundRecord × Session σ :=
  s.giveOut Relay.drain

end Session

inductive Exit where
  | success
  | failure
  | misuse
deriving DecidableEq, Repr

def Exit.code : Exit → UInt8
  | success => 0
  | failure => 1
  | misuse => 2

structure Ending where
  exit : Exit
  output : List String

variable [Pattern.Room]

def prepare (setting : Setting) (worldOf : Settings → Wire.Client → World σ) (outside : σ) :
    Except Ending (Options × Session σ) := do
  let env := setting.effective
  match Usage.read setting.arguments env with
  | .error _ => .error ⟨.misuse, []⟩
  | .ok .help => .error ⟨.success, Usage.helpText env⟩
  | .ok (.run o) =>
    let file := match o.config with
      | some name => setting.file name
      | none => .unasked
    match Settings.load file env with
    | .error _ => .error ⟨.failure, []⟩
    | .ok settings =>
      match Session.start settings (worldOf settings) outside with
      | .error _ => .error ⟨.failure, []⟩
      | .ok s => return (o, s)

/-- A whole run over a given input. If the input does not end well, nothing is drained. -/
def run (setting : Setting) (worldOf : Settings → Wire.Client → World σ) (outside : σ)
    (input : Bytes) : Ending :=
  match prepare setting worldOf outside with
  | .error ending => ending
  | .ok (o, s) =>
    let intake := Intake.ofBytes o.batchSize.toNat input
    let (out, s) := s.runBatches intake.batches
    if intake.ended then ⟨.success, (out ++ s.finish.1).map OutboundRecord.text⟩
    else ⟨.failure, out.map OutboundRecord.text⟩

end Courier.Runner
