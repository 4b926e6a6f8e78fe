import Courier.Pattern.Meaning
import Courier.Settings.Basic

/-!
# Checking settings

What settings must satisfy before the program starts. The checks come in a fixed order and the
first that fails is reported.
-/

namespace Courier

def Proxy.isUsable (p : Proxy) : Bool :=
  !p.host.isEmpty && p.port != 0

namespace RetrySettings

def flaw? [Pattern.Room] (s : RetrySettings) : Option Flaw :=
  if s.factor ≤ 0 || !s.factor.isFinite then some (.factor s.factor)
  else match Pattern.compile s.successPattern with
    | .ok _ => none
    | .error e => some (.pattern s.successPattern e.message)

end RetrySettings

namespace SinkSettings

def flaw? (s : SinkSettings) : Option Flaw :=
  if s.concurrency = 0 then some .noConcurrency
  else if s.publish && s.queueName.isEmpty then some .sinkQueue
  else none

end SinkSettings

namespace ClientSettings

def flaw? (s : ClientSettings) : Option Flaw :=
  match s.proxy with
  | some p => if p.isUsable then none else some .proxy
  | none => none

end ClientSettings

namespace SourceSettings

/-- Nothing is asked of a source that is not enabled. -/
def flaw? (s : SourceSettings) : Option Flaw :=
  if !s.enabled then none
  else if s.queueName.isEmpty then some .sourceQueue
  else if s.successTopic.isEmpty || s.errorsTopic.isEmpty then some .topics
  else if s.batchSize = 0 then some .batchSize
  else none

end SourceSettings

namespace Settings

variable [Pattern.Room]

def flaw? (s : Settings) : Option Flaw :=
  s.retry.flaw? <|> s.sink.flaw? <|> s.http.flaw? <|> s.source.flaw?

def validate (s : Settings) : Except SettingsError Unit :=
  match s.flaw? with
  | some flaw => .error (.flawed flaw)
  | none => .ok ()

theorem flaw?_eq_none_iff {s : Settings} :
    s.flaw? = none ↔
      s.retry.flaw? = none ∧ s.sink.flaw? = none ∧ s.http.flaw? = none ∧
        s.source.flaw? = none := by
  simp [flaw?]

theorem validate_eq_ok_iff {s : Settings} : s.validate = .ok () ↔ s.flaw? = none := by
  unfold validate
  cases s.flaw? <;> simp

end Settings

end Courier
