import Mathlib.Data.List.Basic
import Courier.Proofs.Decimal.Digits
import Courier.Proofs.Relay.Conservation
import Courier.Settings.Validation

/-!
# What checked settings are good for

Settings that pass their check let the relay start and give every record a topic, name queues that
can be consumed, and lead to a proxy with a host and a port. The port for targets over TLS is not
checked, and nothing but that port can be zero in the address of a proxy.
-/

namespace Courier

-- ---------------------------------------------------------------------------
-- What a check establishes
-- ---------------------------------------------------------------------------

theorem Proxy.isUsable_iff {p : Proxy} : p.isUsable = true ↔ p.host ≠ "" ∧ p.port ≠ 0 := by
  simp [isUsable]

open scoped Pattern.Room in
theorem RetrySettings.flaw?_default : ({} : RetrySettings).flaw? = none := rfl

theorem SinkSettings.flaw?_eq_none_iff {s : SinkSettings} :
    s.flaw? = none ↔ s.concurrency ≠ 0 ∧ (s.publish = true → s.queueName ≠ "") := by
  by_cases hc : s.concurrency = 0 <;> simp [flaw?, hc]

theorem ClientSettings.flaw?_eq_none_iff {s : ClientSettings} :
    s.flaw? = none ↔ ∀ p, s.proxy = some p → p.host ≠ "" ∧ p.port ≠ 0 := by
  unfold flaw?
  cases s.proxy with
  | none => simp
  | some p => simp [← Proxy.isUsable_iff]

theorem SourceSettings.flaw?_eq_none_iff {s : SourceSettings} :
    s.flaw? = none ↔ s.enabled = true → s.queueName ≠ "" ∧ s.successTopic ≠ "" ∧
      s.errorsTopic ≠ "" ∧ s.batchSize ≠ 0 := by
  simp only [flaw?, String.isEmpty_iff, Bool.or_eq_true]
  split_ifs <;> grind

-- ---------------------------------------------------------------------------
-- Relays
-- ---------------------------------------------------------------------------

namespace Relay

variable {r : Relay} {record : OutboundRecord}

theorem start_of_ne (h : r.settings.queueName ≠ "") (broker : Broker Exchange) :
    ∃ b, r.start broker = .ok ({ r with started := true }, b) ∧
      b.hasConsumer r.settings.queueName = true := by
  obtain ⟨b, hb, -, hconsumers⟩ := broker.register_of_ne h
  refine ⟨b.ensure r.settings.queueName, ?_, (hconsumers _).2 (.inr rfl)⟩
  simp only [start, hb, bind, Except.bind, pure, Except.pure]

/-- Some poll gives the record out, be it one that waited for a first exchange. -/
def Emits (r : Relay) (record : OutboundRecord) : Prop :=
  ∃ broker, record ∈ (r.poll broker).records ∨ ∃ first, record ∈ (r.pollAfter first broker).records

theorem records_pollAfter (r : Relay) (first : Exchange) (broker : Broker Exchange) :
    (r.pollAfter first broker).records =
      (r.convert (first :: (r.waiting broker).take (r.batch - 1))).1 := rfl

theorem Emits.of_exchange (h : r.Emits record) : ∃ x, recordOf? r.settings x = some record := by
  have hconvert {xs : List Exchange} (hmem : record ∈ (r.convert xs).1) :
      ∃ x, recordOf? r.settings x = some record := by
    rw [convert_fst, List.mem_filterMap] at hmem
    obtain ⟨x, -, hx⟩ := hmem
    exact ⟨x, hx⟩
  obtain ⟨broker, hpoll | ⟨first, hwait⟩⟩ := h
  · unfold poll at hpoll
    split at hpoll
    · exact hconvert hpoll
    · cases hpoll
  · rw [records_pollAfter] at hwait
    exact hconvert hwait

theorem Emits.topic (h : r.Emits record) :
    record.topic = r.settings.successTopic ∨ record.topic = r.settings.errorsTopic := by
  obtain ⟨x, hx⟩ := h.of_exchange
  rw [(address_recordOf? hx).1]
  split
  · exact .inl rfl
  · exact .inr rfl

end Relay

-- ---------------------------------------------------------------------------
-- Addresses
-- ---------------------------------------------------------------------------

theorem eq_of_first_separator {α : Type} {a : α} {xs ys xs' ys' : List α}
    (h : xs ++ a :: ys = xs' ++ a :: ys') (hxs : a ∉ xs) (hxs' : a ∉ xs') :
    xs = xs' ∧ ys = ys' := by
  rcases List.append_eq_append_iff.1 h with ⟨zs, rfl, hzs⟩ | ⟨zs, rfl, hzs⟩
  all_goals
    cases zs with
    | nil => simpa [eq_comm] using hzs
    | cons z zs => simp_all

theorem eq_of_last_separator {α : Type} {a : α} {xs ys xs' ys' : List α}
    (h : xs ++ a :: ys = xs' ++ a :: ys') (hys : a ∉ ys) (hys' : a ∉ ys') :
    xs = xs' ∧ ys = ys' := by
  have hreverse := congrArg List.reverse h
  simp only [List.reverse_append, List.reverse_cons, List.append_assoc, List.singleton_append]
    at hreverse
  have := eq_of_first_separator hreverse (by simpa using hys) (by simpa using hys')
  simpa [and_comm] using this

namespace Proxy

/-- The text is the address of a host and of a port that is not zero, under some scheme. -/
def NamesEndpoint (text : String) : Prop :=
  ∃ (kind : ProxyKind) (host : String) (port : UInt16), host ≠ "" ∧ port ≠ 0 ∧
    text = kind.scheme ++ "://" ++ host ++ ":" ++ toString port.toNat

/-- Colons stand behind the scheme and before the port; what is between them is the host. -/
theorem toList_address (p : Proxy) (port : UInt16) :
    (p.address port).toList =
      p.kind.scheme.toList ++ ':' :: ('/' :: '/' :: p.host.toList) ++ ':' ::
        Nat.toDigits 10 port.toNat := by
  simp [address]

theorem colon_not_mem_scheme (kind : ProxyKind) : ':' ∉ kind.scheme.toList := by
  cases kind <;> decide

theorem colon_not_mem_digits (n : Nat) : ':' ∉ Nat.toDigits 10 n := fun h =>
  absurd (Decimal.isDigit_of_mem_toDigits h) (by decide)

theorem address_inj {p q : Proxy} {port port' : UInt16} (h : p.address port = q.address port') :
    p.host = q.host ∧ port = port' := by
  have hchars := congrArg String.toList h
  rw [toList_address, toList_address] at hchars
  obtain ⟨hfront, hdigits⟩ :=
    eq_of_last_separator hchars (colon_not_mem_digits _) (colon_not_mem_digits _)
  obtain ⟨-, hhost⟩ :=
    eq_of_first_separator hfront (colon_not_mem_scheme _) (colon_not_mem_scheme _)
  have hport := congrArg Decimal.ofDigits hdigits
  rw [Decimal.ofDigits_toDigits, Decimal.ofDigits_toDigits] at hport
  exact ⟨String.toList_inj.1 (by simpa using hhost), UInt16.toNat_inj.1 hport⟩

theorem namesEndpoint_address_iff {p : Proxy} {port : UInt16} :
    NamesEndpoint (p.address port) ↔ p.host ≠ "" ∧ port ≠ 0 := by
  constructor
  · rintro ⟨kind, host, port', hhost, hport, h⟩
    have hsame : p.address port = Proxy.address { p with kind, host } port' := h
    obtain ⟨hname, rfl⟩ := address_inj hsame
    exact ⟨hname ▸ hhost, hport⟩
  · rintro ⟨hhost, hport⟩
    exact ⟨p.kind, p.host, port, hhost, hport, rfl⟩

theorem namesEndpoint_securedUrl_iff {p : Proxy} (hhost : p.host ≠ "") (hport : p.port ≠ 0) :
    NamesEndpoint p.securedUrl ↔ p.securedPort ≠ some 0 := by
  rw [securedUrl, namesEndpoint_address_iff]
  cases p.securedPort with
  | none => simp [hhost, hport]
  | some port => simp [hhost]

end Proxy

-- ---------------------------------------------------------------------------
-- Checked settings
-- ---------------------------------------------------------------------------

/-- With checked settings every relay can start at every broker and has a topic for every record,
the queue that is published to can be consumed, and the proxy is addressed by a host and a port. For
targets over TLS it is so exactly if no port zero is set for them. -/
theorem Settings.usable_but_for_securedPort [Pattern.Room] (s : Settings)
    (h : s.validate = .ok ()) :
    (s.source.enabled = true → ∀ r : Relay, r.settings = s.source →
      (∀ broker, ∃ b, r.start broker = .ok ({ r with started := true }, b) ∧
        b.hasConsumer s.source.queueName = true) ∧
      ∀ record, r.Emits record → record.topic ≠ "") ∧
    (s.sink.publish = true → ∀ {α : Type} (broker : Broker α),
      ∃ b, broker.register s.sink.queueName = .ok b ∧ b.hasConsumer s.sink.queueName = true) ∧
    ∀ p, s.http.proxy = some p →
      Proxy.NamesEndpoint p.url ∧ (Proxy.NamesEndpoint p.securedUrl ↔ p.securedPort ≠ some 0) := by
  obtain ⟨-, hsink, hhttp, hsource⟩ := flaw?_eq_none_iff.1 (validate_eq_ok_iff.1 h)
  refine ⟨fun henabled r hr => ?_, fun hpublish α broker => ?_, fun p hp => ?_⟩
  · obtain ⟨hname, hsuccess, herrors, -⟩ := SourceSettings.flaw?_eq_none_iff.1 hsource henabled
    rw [← hr] at hname hsuccess herrors ⊢
    refine ⟨Relay.start_of_ne hname, fun record hemits => ?_⟩
    rcases hemits.topic with htopic | htopic
    · exact htopic ▸ hsuccess
    · exact htopic ▸ herrors
  · have hname := (SinkSettings.flaw?_eq_none_iff.1 hsink).2 hpublish
    obtain ⟨b, hb, -, hconsumers⟩ := broker.register_of_ne hname
    exact ⟨b, hb, (hconsumers _).2 (.inr rfl)⟩
  · obtain ⟨hhost, hport⟩ := ClientSettings.flaw?_eq_none_iff.1 hhttp p hp
    exact ⟨Proxy.namesEndpoint_address_iff.2 ⟨hhost, hport⟩,
      Proxy.namesEndpoint_securedUrl_iff hhost hport⟩

open scoped Pattern.Room in
theorem Settings.usable_behind_proxy :
    let p : Proxy := { host := "proxy.local", port := 3128, securedPort := some 3129 }
    let source : SourceSettings :=
      { enabled := true, queueName := "acks", successTopic := "ok", errorsTopic := "errors" }
    let s : Settings :=
      { http := { proxy := some p }, sink := { publish := true, queueName := "acks" }, source }
    s.validate = .ok () ∧
      (∃ b, Relay.start ⟨source, false⟩ {} = .ok (⟨source, true⟩, b) ∧
        b.hasConsumer "acks" = true) ∧
      (∃ b, ({} : Broker Exchange).register "acks" = .ok b ∧ b.hasConsumer "acks" = true) ∧
      Proxy.NamesEndpoint p.url ∧ Proxy.NamesEndpoint p.securedUrl := by
  intro p source s
  have hs : s.validate = .ok () :=
    validate_eq_ok_iff.2 (flaw?_eq_none_iff.2 ⟨RetrySettings.flaw?_default, rfl, rfl, rfl⟩)
  obtain ⟨hsource, hsink, hproxy⟩ := usable_but_for_securedPort s hs
  obtain ⟨hurl, hsecured⟩ := hproxy p rfl
  exact ⟨hs, (hsource rfl ⟨source, false⟩ rfl).1 {}, hsink rfl {}, hurl, hsecured.2 (by decide)⟩

open scoped Pattern.Room in
/-- A port zero for targets over TLS passes the check and stands in the address. -/
theorem Settings.zero_securedPort_passes :
    let p : Proxy := { host := "proxy.local", port := 3128, securedPort := some 0 }
    let s : Settings := { http := { proxy := some p } }
    s.validate = .ok () ∧ s.http.proxy = some p ∧ p.securedUrl = "http://proxy.local:0" ∧
      ¬ Proxy.NamesEndpoint p.securedUrl := by
  intro p s
  have hs : s.validate = .ok () :=
    validate_eq_ok_iff.2 (flaw?_eq_none_iff.2 ⟨RetrySettings.flaw?_default, rfl, rfl, rfl⟩)
  refine ⟨hs, rfl, by decide, fun h => ?_⟩
  exact (Proxy.namesEndpoint_securedUrl_iff (by decide) (by decide)).1 h rfl

end Courier
