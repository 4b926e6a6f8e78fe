import Mathlib.Data.List.Basic
import Courier.Settings.Environment

/-!
# Settings under an environment

Variables take effect in their order up to the first whose value does not parse. The settings are
then those that an environment with only the earlier variables makes, and the error names the
variable with its value as it stands.
-/

namespace Courier

variable {α : Type} {env : Environment} {s : Settings} {o : Override}

-- ---------------------------------------------------------------------------
-- What an environment says
-- ---------------------------------------------------------------------------

/-- What a variable says, if it is set and its trimmed value parses. -/
def Environment.reading (env : Environment) (name : String) (parse : List Char → Option α) :
    Option α :=
  (env name).bind fun value => parse (Text.trimChars value.toList)

def Environment.only (env : Environment) (names : List String) : Environment :=
  fun name => if name ∈ names then env name else none

open Override in
/-- The settings with each field as its variable says, if it says something. -/
def Settings.under (s : Settings) (env : Environment) : Settings where
  retry :=
    { retries := (env.reading "HS_RETRIES" word32?).getD s.retry.retries
      delay := (env.reading "HS_RETRY_DELAY_MS" word64?).getD s.retry.delay
      maxDelay := (env.reading "HS_RETRY_MAX_DELAY_MS" word64?).getD s.retry.maxDelay
      factor := (env.reading "HS_RETRY_DELAY_FACTOR" Decimal.float?).getD s.retry.factor
      jitter := (env.reading "HS_RETRY_JITTER_MS" word64?).getD s.retry.jitter
      successPattern := (env.reading "HS_SUCCESS_PATTERN" text?).getD s.retry.successPattern }
  http :=
    { s.http with
      connectTimeout := (env.reading "HS_CONNECT_TIMEOUT_MS" word64?).getD s.http.connectTimeout
      requestTimeout := (env.reading "HS_REQUEST_TIMEOUT_MS" word64?).getD s.http.requestTimeout }
  sink :=
    { s.sink with
      publish := (env.reading "HS_PUBLISH_TO_IN_MEMORY_QUEUE" boolean?).getD s.sink.publish
      concurrency := (env.reading "HS_CONCURRENCY" word64?).getD s.sink.concurrency
      queueName := (env "HS_QUEUE_NAME").getD s.sink.queueName }
  source :=
    { s.source with
      enabled := (env.reading "HS_SOURCE_ENABLED" boolean?).getD s.source.enabled
      successTopic := (env.reading "HS_SUCCESS_TOPIC" text?).getD s.source.successTopic
      errorsTopic := (env.reading "HS_ERRORS_TOPIC" text?).getD s.source.errorsTopic
      format := (env.reading "HS_SOURCE_RECORD_FORMAT" format?).getD s.source.format
      queueName := (env "HS_QUEUE_NAME").getD s.source.queueName }

namespace Override

def misread? (o : Override) (env : Environment) : Option String :=
  (env o.name).filter fun value => (o.read (Text.trimChars value.toList)).isNone

def put (env : Environment) (s : Settings) (o : Override) : Settings :=
  ((env.reading o.name o.read).map (· s)).getD s

-- ---------------------------------------------------------------------------
-- One variable after the other
-- ---------------------------------------------------------------------------

theorem misread?_eq_some_iff {value : String} :
    o.misread? env = some value ↔
      env o.name = some value ∧ o.read (Text.trimChars value.toList) = none := by
  simp [misread?, Option.filter_eq_some_iff]

theorem apply_cons_of_misread {value : String} (h : o.misread? env = some value)
    (rest : List Override) (s : Settings) :
    apply env (o :: rest) s = (s, some (.badVariable o.name value)) := by
  obtain ⟨hset, hread⟩ := misread?_eq_some_iff.1 h
  simp only [apply, hset, hread]

theorem apply_cons_of_read (h : o.misread? env = none) (rest : List Override) (s : Settings) :
    apply env (o :: rest) s = apply env rest (put env s o) := by
  cases hset : env o.name with
  | none => simp [apply, put, Environment.reading, hset]
  | some value =>
    cases hread : o.read (Text.trimChars value.toList) with
    | none =>
      rw [misread?_eq_some_iff.2 ⟨hset, hread⟩] at h
      cases h
    | some set => simp [apply, put, Environment.reading, hset, hread]

theorem apply_append {before : List Override} (h : ∀ o ∈ before, o.misread? env = none)
    (rest : List Override) (s : Settings) :
    apply env (before ++ rest) s = apply env rest (before.foldl (put env) s) := by
  induction before generalizing s with
  | nil => rfl
  | cons o before ih =>
    rw [List.cons_append, apply_cons_of_read (h o List.mem_cons_self),
      ih fun o ho => h o (List.mem_cons_of_mem _ ho), List.foldl_cons]

-- ---------------------------------------------------------------------------
-- Variables and fields
-- ---------------------------------------------------------------------------

structure Slot where
  {α : Type}
  name : String
  parse : List Char → Option α
  get : Settings → α
  set : α → Settings → Settings
  set_get : ∀ s, set (get s) s = s

def Slot.override (v : Slot) : Override :=
  of v.name v.parse v.set

def Slot.fill (env : Environment) (s : Settings) (v : Slot) : Settings :=
  v.set ((env.reading v.name v.parse).getD (v.get s)) s

def slots : List Slot :=
  [⟨"HS_RETRIES", word32?, (·.retry.retries),
      fun n s => { s with retry.retries := n }, fun _ => rfl⟩,
    ⟨"HS_RETRY_DELAY_MS", word64?, (·.retry.delay),
      fun n s => { s with retry.delay := n }, fun _ => rfl⟩,
    ⟨"HS_RETRY_MAX_DELAY_MS", word64?, (·.retry.maxDelay),
      fun n s => { s with retry.maxDelay := n }, fun _ => rfl⟩,
    ⟨"HS_RETRY_DELAY_FACTOR", Decimal.float?, (·.retry.factor),
      fun x s => { s with retry.factor := x }, fun _ => rfl⟩,
    ⟨"HS_RETRY_JITTER_MS", word64?, (·.retry.jitter),
      fun n s => { s with retry.jitter := n }, fun _ => rfl⟩,
    ⟨"HS_SUCCESS_PATTERN", text?, (·.retry.successPattern),
      fun p s => { s with retry.successPattern := p }, fun _ => rfl⟩,
    ⟨"HS_CONNECT_TIMEOUT_MS", word64?, (·.http.connectTimeout),
      fun n s => { s with http.connectTimeout := n }, fun _ => rfl⟩,
    ⟨"HS_REQUEST_TIMEOUT_MS", word64?, (·.http.requestTimeout),
      fun n s => { s with http.requestTimeout := n }, fun _ => rfl⟩,
    ⟨"HS_PUBLISH_TO_IN_MEMORY_QUEUE", boolean?, (·.sink.publish),
      fun b s => { s with sink.publish := b }, fun _ => rfl⟩,
    ⟨"HS_CONCURRENCY", word64?, (·.sink.concurrency),
      fun n s => { s with sink.concurrency := n }, fun _ => rfl⟩,
    ⟨"HS_SOURCE_ENABLED", boolean?, (·.source.enabled),
      fun b s => { s with source.enabled := b }, fun _ => rfl⟩,
    ⟨"HS_SUCCESS_TOPIC", text?, (·.source.successTopic),
      fun t s => { s with source.successTopic := t }, fun _ => rfl⟩,
    ⟨"HS_ERRORS_TOPIC", text?, (·.source.errorsTopic),
      fun t s => { s with source.errorsTopic := t }, fun _ => rfl⟩,
    ⟨"HS_SOURCE_RECORD_FORMAT", format?, (·.source.format),
      fun f s => { s with source.format := f }, fun _ => rfl⟩]

theorem Slot.put_override (env : Environment) (s : Settings) (v : Slot) :
    put env s v.override = v.fill env s := by
  have hreading : env.reading v.name v.override.read =
      (env.reading v.name v.parse).map v.set := by
    simp only [Environment.reading, Slot.override, of, Option.map_bind]
    rfl
  change ((env.reading v.name v.override.read).map (· s)).getD s = _
  rw [hreading, Slot.fill]
  cases env.reading v.name v.parse with
  | none => exact (v.set_get s).symm
  | some a => rfl

theorem all_eq_slots : all = slots.map Slot.override := by
  simp only [all, slots, List.map_cons, List.map_nil, Slot.override]

theorem foldl_put_all (env : Environment) (s : Settings) :
    all.foldl (put env) s = slots.foldl (Slot.fill env) s := by
  rw [all_eq_slots, List.foldl_map]
  simp only [Slot.put_override]

theorem foldl_fill_slots (env : Environment) (s : Settings) :
    slots.foldl (Slot.fill env) s = { s.under env with
      sink.queueName := s.sink.queueName
      source.queueName := s.source.queueName } := by
  simp only [slots, List.foldl_cons, List.foldl_nil, Slot.fill]
  rfl

theorem foldl_put_eq_under (h : env Settings.queueVariable = none) (s : Settings) :
    all.foldl (put env) s = s.under env := by
  have hname : env "HS_QUEUE_NAME" = none := h
  rw [foldl_put_all, foldl_fill_slots]
  simp only [Settings.under, hname, Option.getD_none]

-- ---------------------------------------------------------------------------
-- The variables up to one of them
-- ---------------------------------------------------------------------------

theorem put_only_of_mem {names : List String} (h : o.name ∈ names) (s : Settings) :
    put (env.only names) s o = put env s o := by
  simp [put, Environment.reading, Environment.only, h]

theorem put_only_of_not_mem {names : List String} (h : o.name ∉ names) (s : Settings) :
    put (env.only names) s o = s := by
  simp [put, Environment.reading, Environment.only, h]

theorem nodup_names : (all.map (·.name)).Nodup := by
  decide

theorem foldl_put_only {before rest : List Override} (h : all = before ++ rest) (s : Settings) :
    all.foldl (put (env.only (before.map (·.name)))) s = before.foldl (put env) s := by
  have hnodup := nodup_names
  rw [h, List.map_append, List.nodup_append] at hnodup
  have hbefore : before.foldl (put (env.only (before.map (·.name)))) s =
      before.foldl (put env) s :=
    List.foldl_ext _ _ _ fun s o ho => put_only_of_mem (List.mem_map_of_mem ho) s
  have hrest (s : Settings) : rest.foldl (put (env.only (before.map (·.name)))) s = s :=
    (List.foldl_ext _ _ _ fun s o ho => put_only_of_not_mem
      (fun hmem => hnodup.2.2 _ hmem _ (List.mem_map_of_mem ho) rfl) s).trans
        (List.foldl_fixed rest)
  rw [h, List.foldl_append, hbefore, hrest]

theorem foldl_put_before {before rest : List Override} (h : all = before ++ rest) (s : Settings) :
    before.foldl (put env) s = s.under (env.only (before.map (·.name))) := by
  have hqueue : Settings.queueVariable ∉ before.map (·.name) := by
    have hall : Settings.queueVariable ∉ all.map (·.name) := by decide
    rw [h, List.map_append, List.mem_append, not_or] at hall
    exact hall.1
  rw [← foldl_put_only h, foldl_put_eq_under (if_neg hqueue)]

end Override

namespace Settings

theorem getD_getD (o : Option α) (a : α) : o.getD (o.getD a) = o.getD a := by
  cases o <;> rfl

theorem under_under (s : Settings) (env : Environment) :
    (s.under env).under env = s.under env := by
  simp only [under, getD_getD]

theorem override_of_read (h : ∀ o ∈ Override.all, o.misread? env = none) (s : Settings) :
    s.override env = (s.under env, none) := by
  have happly : Override.apply env Override.all s =
      (Override.all.foldl (Override.put env) s, none) := by
    rw [← List.append_nil Override.all, Override.apply_append h, List.append_nil]
    rfl
  rw [override, happly, Override.foldl_put_all, Override.foldl_fill_slots]
  cases hname : env queueVariable with
  | none =>
    have hname' : env "HS_QUEUE_NAME" = none := hname
    simp [under, hname']
  | some name =>
    have hname' : env "HS_QUEUE_NAME" = some name := hname
    simp [under, hname', withQueueName]

theorem override_of_misread {before after : List Override} {value : String}
    (hall : Override.all = before ++ o :: after) (h : ∀ o ∈ before, o.misread? env = none)
    (hvalue : o.misread? env = some value) (s : Settings) :
    s.override env =
      (s.under (env.only (before.map (·.name))), some (.badVariable o.name value)) := by
  rw [override, hall, Override.apply_append h, Override.apply_cons_of_misread hvalue,
    Override.foldl_put_before hall]

theorem read_or_misread (env : Environment) :
    (∀ o ∈ Override.all, o.misread? env = none) ∨ ∃ before o after value,
      Override.all = before ++ o :: after ∧ (∀ p ∈ before, p.misread? env = none) ∧
      o.misread? env = some value := by
  cases h : Override.all.findSome? (·.misread? env) with
  | none => exact .inl (List.findSome?_eq_none_iff.1 h)
  | some value =>
    obtain ⟨before, o, after, hall, hvalue, hbefore⟩ := List.findSome?_eq_some_iff.1 h
    exact .inr ⟨before, o, after, value, hall, hbefore, hvalue⟩

/-- Up to the first variable that is misread each takes effect, and nothing else changes; if there
is none all do, and so does the queue's. A second reading changes nothing. -/
theorem override_up_to_misread (s : Settings) (env : Environment) :
    ((∀ o ∈ Override.all, o.misread? env = none) → s.override env = (s.under env, none)) ∧
    ((∃ o ∈ Override.all, o.misread? env ≠ none) → ∃ before o after value,
      Override.all = before ++ o :: after ∧ (∀ p ∈ before, p.misread? env = none) ∧
      env o.name = some value ∧ o.read (Text.trimChars value.toList) = none ∧
      s.override env =
        (s.under (env.only (before.map (·.name))), some (.badVariable o.name value))) ∧
    (s.override env).1.override env = s.override env := by
  refine ⟨fun h => override_of_read h s, fun ⟨p, hp, hmisread⟩ => ?_, ?_⟩
  · rcases read_or_misread env with h | ⟨before, o, after, value, hall, hbefore, hvalue⟩
    · exact absurd (h p hp) hmisread
    · obtain ⟨hset, hread⟩ := Override.misread?_eq_some_iff.1 hvalue
      exact ⟨before, o, after, value, hall, hbefore, hset, hread,
        override_of_misread hall hbefore hvalue s⟩
  · rcases read_or_misread env with h | ⟨before, o, after, value, hall, hbefore, hvalue⟩
    · rw [override_of_read h, override_of_read h, under_under]
    · rw [override_of_misread hall hbefore hvalue, override_of_misread hall hbefore hvalue,
        under_under]

example : ({} : Settings).override
      (.ofList [("HS_RETRIES", " 7 "), ("HS_CONCURRENCY", "ten"), ("HS_QUEUE_NAME", "q")]) =
    ({ retry.retries := 7 }, some (.badVariable "HS_CONCURRENCY" "ten")) := by
  rfl

end Settings

end Courier
