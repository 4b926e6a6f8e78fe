import Courier.Settings.Client

/-!
# Settings

One part for each side of the program: how calls are retried, made, taken from records and given
back as records. Every field has a default.
-/

namespace Courier

open Json

/-- Any three-digit status below 500. -/
def defaultPattern : String := "^[1-4][0-9][0-9]$"

def defaultQueueName : String := "default"

structure RetrySettings where
  retries : UInt32 := 3
  delay : UInt64 := 500
  maxDelay : UInt64 := 300000
  factor : Float := 2.0
  jitter : UInt64 := 100
  successPattern : String := defaultPattern

structure SinkSettings where
  /-- Headers for every request that does not have them. -/
  staticHeaders : OrderedMap String := .empty
  publish : Bool := false
  queueName : String := defaultQueueName
  concurrency : UInt64 := 10
  requireCorrelationId : Bool := false
  generateMissingIds : Bool := true

inductive RecordFormat where
  | exchange
  | acknowledgement
deriving Repr, DecidableEq, Inhabited

structure SourceSettings where
  enabled : Bool := false
  queueName : String := defaultQueueName
  successTopic : String := ""
  errorsTopic : String := ""
  batchSize : UInt64 := 100
  format : RecordFormat := .exchange
deriving DecidableEq

structure Settings where
  retry : RetrySettings := {}
  http : ClientSettings := {}
  sink : SinkSettings := {}
  source : SourceSettings := {}

inductive Flaw where
  | factor (x : Float)
  | pattern (text reason : String)
  | noConcurrency
  | sinkQueue
  | proxy
  | sourceQueue
  | topics
  | batchSize
deriving Repr

def Flaw.message : Flaw → String
  | factor x => "retry_delay_factor must be positive, got " ++ Decimal.text x
  | pattern text reason => "success_pattern '" ++ text ++ "' is not a valid regex: " ++ reason
  | noConcurrency => "sink.concurrency must be at least 1"
  | sinkQueue => "sink.queue_name cannot be empty"
  | proxy => "http.proxy requires a host and a port"
  | sourceQueue => "source.queue_name cannot be empty"
  | topics => "source.success_topic and source.errors_topic are required"
  | batchSize => "source.poll_batch_size must be at least 1"

inductive SettingsError where
  | unreadable
  | malformed
  | badVariable (name value : String)
  | unknownFormat (text : String)
  | flawed (flaw : Flaw)
deriving Repr

def SettingsError.message : SettingsError → String
  | unreadable => "IO error"
  | malformed => "TOML parse error"
  | badVariable name value => "Invalid value '" ++ value ++ "' for " ++ name
  | unknownFormat text => "Invalid configuration: unknown record format '" ++ text ++ "'"
  | flawed flaw => "Invalid configuration: " ++ flaw.message

namespace RecordFormat

def name : RecordFormat → String
  | exchange => "EXCHANGE"
  | acknowledgement => "ACKNOWLEDGEMENT"

def named : List (RecordFormat × String) :=
  [exchange, acknowledgement].map fun f => (f, f.name)

def form (d : Dialect := .json) : Codec RecordFormat :=
  Codec.variant named name d

def parse (s : String) : Except SettingsError RecordFormat :=
  match [exchange, acknowledgement].find? fun f => f.name == Text.upper (Text.trim s) with
  | some f => .ok f
  | none => .error (.unknownFormat s)

end RecordFormat

def RetrySettings.form : Codec RetrySettings :=
  let base : RetrySettings := {}
  (Fields.as
    (.cons (.defaulted "retries" Codec.word32 base.retries) <|
      .cons (.defaulted "retry_delay_ms" Codec.word64 base.delay) <|
      .cons (.defaulted "retry_max_delay_ms" Codec.word64 base.maxDelay) <|
      .cons (.defaulted "retry_delay_factor" Codec.double base.factor) <|
      .cons (.defaulted "retry_jitter_ms" Codec.word64 base.jitter) <|
      .cons (.defaulted "success_pattern" Codec.text base.successPattern) <| .nil)
    (fun (retries, delay, maxDelay, factor, jitter, successPattern, ()) =>
      { retries, delay, maxDelay, factor, jitter, successPattern })
    (fun s =>
      (s.retries, s.delay, s.maxDelay, s.factor, s.jitter, s.successPattern, ()))).codec
        "RetryConfig" .toml

def SinkSettings.form : Codec SinkSettings :=
  let base : SinkSettings := {}
  (Fields.as
    (.cons (.defaulted "static_request_headers" (Forms.map Codec.text) base.staticHeaders) <|
      .cons (.defaulted "publish_to_in_memory_queue" Codec.boolean base.publish) <|
      .cons (.defaulted "queue_name" Codec.text base.queueName) <|
      .cons (.defaulted "concurrency" Codec.word64 base.concurrency) <|
      .cons (.defaulted "require_correlation_id" Codec.boolean base.requireCorrelationId) <|
      .cons (.defaulted "generate_missing_ids" Codec.boolean base.generateMissingIds) <| .nil)
    (fun (staticHeaders, publish, queueName, concurrency, requireCorrelationId,
        generateMissingIds, ()) =>
      { staticHeaders, publish, queueName, concurrency, requireCorrelationId, generateMissingIds })
    (fun s =>
      (s.staticHeaders, s.publish, s.queueName, s.concurrency, s.requireCorrelationId,
        s.generateMissingIds, ()))).codec "SinkTaskSettings" .toml

def SourceSettings.form : Codec SourceSettings :=
  let base : SourceSettings := {}
  (Fields.as
    (.cons (.defaulted "enabled" Codec.boolean base.enabled) <|
      .cons (.defaulted "queue_name" Codec.text base.queueName) <|
      .cons (.defaulted "success_topic" Codec.text base.successTopic) <|
      .cons (.defaulted "errors_topic" Codec.text base.errorsTopic) <|
      .cons (.defaulted "poll_batch_size" Codec.word64 base.batchSize) <|
      .cons (.defaulted "record_format" (RecordFormat.form .toml) base.format) <| .nil)
    (fun (enabled, queueName, successTopic, errorsTopic, batchSize, format, ()) =>
      { enabled, queueName, successTopic, errorsTopic, batchSize, format })
    (fun s =>
      (s.enabled, s.queueName, s.successTopic, s.errorsTopic, s.batchSize, s.format, ()))).codec
        "SourceTaskSettings" .toml

def Settings.form : Codec Settings :=
  (Fields.as
    (.cons (.defaulted "retry" RetrySettings.form {}) <|
      .cons (.defaulted "http" (ClientSettings.form .toml) {}) <|
      .cons (.defaulted "sink" SinkSettings.form {}) <|
      .cons (.defaulted "source" SourceSettings.form {}) <| .nil)
    (fun (retry, http, sink, source, ()) => { retry, http, sink, source })
    (fun s => (s.retry, s.http, s.sink, s.source, ()))).codec "SinkConfig" .toml

end Courier
