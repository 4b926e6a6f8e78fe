import Mathlib.Data.List.Basic
import Mathlib.Data.List.Induction
import Courier.Proofs.Queue.Broker
import Courier.Proofs.Queue.Turns
import Courier.Settings.Basic

/-!
# The history of a broker

Mailboxes are asked for, consumed, published to, and used through handles that were given out
before. What a broker is after any calls can be told from what the calls did, name by name.
-/

namespace Courier.Broker

variable {α : Type} {b b' : Broker α}

-- ---------------------------------------------------------------------------
-- Calls
-- ---------------------------------------------------------------------------

/-- A call of the broker, or of a mailbox through its handle. A handle is the place of a mailbox
among all of them, in the order of their creation. -/
inductive Call (α : Type) where
  | get (name : String)
  | getDefault
  | register (name : String)
  | publish (name : String) (a : α)
  | offer (handle : Nat) (a : α)
  | poll (handle : Nat)
  | drain (handle : Nat) (most : Nat)

inductive Deed (α : Type) where
  | got (handle : Nat)
  | registered
  | refused
  | accepted (a : α)
  | returned (a : α)
  | offered (handle : Nat) (a : α)
  | taken (handle : Nat) (as : List α)

/-- What a call did under a name. -/
structure Event (α : Type) where
  name : String
  deed : Deed α

def get (b : Broker α) (name : String) : List (Event α) × Broker α :=
  let b := b.ensure name
  ([⟨name, .got (b.names.idxOf name)⟩], b)

/-- Nothing happens through a handle that was never given out. -/
def perform (b : Broker α) : Call α → List (Event α) × Broker α
  | .get name => b.get name
  | .getDefault => b.get defaultQueueName
  | .register name =>
    match b.register name with
    | .ok b => ([⟨name, .registered⟩], b)
    | .error _ => ([⟨name, .refused⟩], b)
  | .publish name a =>
    match b.publish? name a with
    | some b => ([⟨name, .accepted a⟩], b)
    | none => ([⟨name, .returned a⟩], b)
  | .offer handle a =>
    match b.names[handle]? with
    | some name => ([⟨name, .offered handle a⟩], b.offer name a)
    | none => ([], b)
  | .poll handle =>
    match b.names[handle]? with
    | some name => ([⟨name, .taken handle (b.poll name).1.toList⟩], (b.poll name).2)
    | none => ([], b)
  | .drain handle most =>
    match b.names[handle]? with
    | some name => ([⟨name, .taken handle (b.drain name most).1⟩], (b.drain name most).2)
    | none => ([], b)

def performAll (b : Broker α) : List (Call α) → List (Event α) × Broker α
  | [] => ([], b)
  | c :: cs =>
    let (events, b) := b.perform c
    let (later, b) := b.performAll cs
    (events ++ later, b)

-- ---------------------------------------------------------------------------
-- What events tell
-- ---------------------------------------------------------------------------

namespace Deed

def put : Deed α → List α
  | .accepted a => [a]
  | .offered _ a => [a]
  | _ => []

def takes : Deed α → List α
  | .taken _ as => as
  | _ => []

/-- Whether there is a mailbox of that name from then on. -/
def creates : Deed α → Bool
  | .got _ => true
  | .accepted _ => true
  | _ => false

def handle? : Deed α → Option Nat
  | .got handle => some handle
  | .offered handle _ => some handle
  | .taken handle _ => some handle
  | _ => none

end Deed

def under (name : String) (events : List (Event α)) : List (Event α) :=
  events.filter (·.name = name)

def putInto (name : String) (events : List (Event α)) : List α :=
  (under name events).flatMap (·.deed.put)

def takenFrom (name : String) (events : List (Event α)) : List α :=
  (under name events).flatMap (·.deed.takes)

section
variable (name : String) (e : Event α) (events later : List (Event α))

theorem putInto_append : putInto name (events ++ later) =
    putInto name events ++ putInto name later := by
  simp [putInto, under]

theorem takenFrom_append : takenFrom name (events ++ later) =
    takenFrom name events ++ takenFrom name later := by
  simp [takenFrom, under]

theorem putInto_singleton : putInto name [e] = if e.name = name then e.deed.put else [] := by
  by_cases h : e.name = name <;> simp [putInto, under, h]

theorem takenFrom_singleton : takenFrom name [e] = if e.name = name then e.deed.takes else [] := by
  by_cases h : e.name = name <;> simp [takenFrom, under, h]

end

-- ---------------------------------------------------------------------------
-- One call
-- ---------------------------------------------------------------------------

inductive Did (b : Broker α) : List (Event α) × Broker α → Prop where
  | nothing : Did b ([], b)
  | quiet {e : Event α} {b' : Broker α} (hmailboxes : b'.mailboxes = b.mailboxes)
      (hput : e.deed.put = []) (htakes : e.deed.takes = []) (hcreates : e.deed.creates = false)
      (hhandle : e.deed.handle? = none)
      (hconsumers : ∀ name, b'.hasConsumer name = true ↔
        b.hasConsumer name = true ∨ ⟨name, .registered⟩ = e) :
      Did b ([e], b')
  | change {e : Event α} (f : Mailbox α → Mailbox α)
      (hitems : e.deed.takes ++ (f (b.mailbox e.name)).items =
        (b.mailbox e.name).items ++ e.deed.put)
      (hregistered : e.deed ≠ .registered) (hcreates : e.deed.creates = true ∨ e.name ∈ b.names)
      (hhandle : ∀ handle, e.deed.handle? = some handle →
        (b.update e.name f).names[handle]? = some e.name) :
      Did b ([e], b.update e.name f)

namespace Did

theorem get (b : Broker α) (name : String) : Did b (b.get name) := by
  refine .change (e := ⟨name, .got _⟩) id (by simp [Deed.takes, Deed.put]) nofun (.inl rfl) ?_
  intro handle hh
  cases hh
  have hmem : name ∈ (b.ensure name).names := (mem_names_update b id).2 (.inr rfl)
  exact List.getElem?_idxOf hmem

theorem through {deed : Deed α} {handle : Nat} {name : String} (f : Mailbox α → Mailbox α)
    (hname : b.names[handle]? = some name)
    (hitems : deed.takes ++ (f (b.mailbox name)).items = (b.mailbox name).items ++ deed.put)
    (hregistered : deed ≠ .registered) (hhandle : deed.handle? = some handle) :
    Did b ([⟨name, deed⟩], b.update name f) := by
  refine .change (e := ⟨name, deed⟩) f hitems hregistered (.inr ?_) ?_
  · exact List.mem_of_getElem? hname
  · intro other hother
    cases hhandle.symm.trans hother
    exact getElem?_names_update name f hname

theorem perform (b : Broker α) (c : Call α) : Did b (b.perform c) := by
  cases c with
  | get name => exact .get b name
  | getDefault => exact .get b defaultQueueName
  | register name =>
    by_cases hn : name = ""
    · subst hn
      simp only [Broker.perform, register_of_empty]
      exact .quiet rfl rfl rfl rfl rfl (by simp)
    · obtain ⟨b', hb', hmailboxes, hconsumers⟩ := b.register_of_ne hn
      simp only [Broker.perform, hb']
      refine .quiet hmailboxes rfl rfl rfl rfl fun other => ?_
      rw [hconsumers, Event.mk.injEq, and_iff_left rfl]
  | publish name a =>
    cases hc : b.hasConsumer name with
    | true =>
      simp only [Broker.perform, publish?, hc, if_true]
      refine .change (e := ⟨name, .accepted a⟩) (·.offer a) ?_ nofun (.inl rfl) nofun
      simp [Deed.takes, Deed.put, Mailbox.items_offer]
    | false =>
      simp only [Broker.perform, publish?, hc, Bool.false_eq_true, if_false]
      exact .quiet rfl rfl rfl rfl rfl (by simp)
  | offer handle a =>
    cases hname : b.names[handle]? with
    | none =>
      simp only [Broker.perform, hname]
      exact .nothing
    | some name =>
      simp only [Broker.perform, hname]
      refine .through (·.offer a) hname ?_ nofun rfl
      simp [Deed.takes, Deed.put, Mailbox.items_offer]
  | poll handle =>
    cases hname : b.names[handle]? with
    | none =>
      simp only [Broker.perform, hname]
      exact .nothing
    | some name =>
      simp only [Broker.perform, hname]
      refine .through (·.poll.2) hname ?_ nofun rfl
      simp [Deed.takes, Deed.put, Broker.poll, Mailbox.items_poll]
  | drain handle most =>
    cases hname : b.names[handle]? with
    | none =>
      simp only [Broker.perform, hname]
      exact .nothing
    | some name =>
      simp only [Broker.perform, hname]
      refine .through (fun m => (m.drain most).2) hname ?_ nofun rfl
      simp [Deed.takes, Deed.put, drain_fst, Mailbox.drain]

end Did

theorem perform_elsewhere (b : Broker α) (c : Call α) (other : String)
    (h : ∀ e ∈ (b.perform c).1, e.name ≠ other) :
    (b.perform c).2.mailboxes.get? other = b.mailboxes.get? other ∧
      (b.perform c).2.hasConsumer other = b.hasConsumer other := by
  have hdid := Did.perform b c
  generalize b.perform c = result at h hdid ⊢
  cases hdid with
  | nothing => exact ⟨rfl, rfl⟩
  | @quiet e b' hmailboxes _ _ _ _ hconsumers =>
    have hne : (⟨other, .registered⟩ : Event α) ≠ e := by
      rintro rfl
      exact h _ (List.mem_singleton_self _) rfl
    refine ⟨by rw [hmailboxes], Bool.eq_iff_iff.2 ?_⟩
    rw [hconsumers, or_iff_left hne]
  | change f =>
    have hne := h _ (List.mem_singleton_self _)
    exact ⟨get?_update_of_ne b f hne.symm, rfl⟩

-- ---------------------------------------------------------------------------
-- Events up to now
-- ---------------------------------------------------------------------------

/-- What a broker is, as far as the events up to now tell it. -/
structure Told (events : List (Event α)) (b : Broker α) : Prop where
  items : ∀ name, takenFrom name events ++ (b.mailbox name).items = putInto name events
  consumers : ∀ name, b.hasConsumer name = true ↔ ⟨name, .registered⟩ ∈ events
  names : ∀ name, name ∈ b.names ↔ ∃ e ∈ events, e.name = name ∧ e.deed.creates = true
  handles : ∀ e ∈ events, ∀ handle, e.deed.handle? = some handle → b.names[handle]? = some e.name

namespace Told

variable {events : List (Event α)} {e : Event α}

theorem start : Told ([] : List (Event α)) {} where
  items name := rfl
  consumers name := by simp [hasConsumer]
  names name := by simp [Broker.names, OrderedMap.keys, OrderedMap.empty]
  handles e he := by cases he

theorem names_append (h : Told events b) (name : String) :
    (∃ e' ∈ events ++ [e], e'.name = name ∧ e'.deed.creates = true) ↔
      name ∈ b.names ∨ e.name = name ∧ e.deed.creates = true := by
  rw [h.names]
  simp [or_and_right, exists_or]

theorem quiet (h : Told events b) (hmailboxes : b'.mailboxes = b.mailboxes)
    (hput : e.deed.put = []) (htakes : e.deed.takes = []) (hcreates : e.deed.creates = false)
    (hhandle : e.deed.handle? = none)
    (hconsumers : ∀ name, b'.hasConsumer name = true ↔
      b.hasConsumer name = true ∨ ⟨name, .registered⟩ = e) : Told (events ++ [e]) b' := by
  have hnames : b'.names = b.names := by rw [Broker.names, hmailboxes, Broker.names]
  refine ⟨fun name => ?_, fun name => ?_, fun name => ?_, fun e' he' handle hh => ?_⟩
  · have hmailbox : b'.mailbox name = b.mailbox name := by rw [mailbox, hmailboxes, mailbox]
    rw [takenFrom_append, putInto_append, takenFrom_singleton, putInto_singleton, hput, htakes,
      hmailbox, ← h.items name]
    simp
  · rw [hconsumers, h.consumers, List.mem_append, List.mem_singleton]
  · rw [hnames, h.names_append, hcreates]
    simp
  · rw [hnames]
    rcases List.mem_append.1 he' with he' | he'
    · exact h.handles e' he' handle hh
    · rw [List.mem_singleton.1 he', hhandle] at hh
      cases hh

theorem update (h : Told events b) (f : Mailbox α → Mailbox α)
    (hitems : e.deed.takes ++ (f (b.mailbox e.name)).items = (b.mailbox e.name).items ++ e.deed.put)
    (hregistered : e.deed ≠ .registered)
    (hcreates : e.deed.creates = true ∨ e.name ∈ b.names)
    (hhandle : ∀ handle, e.deed.handle? = some handle →
      (b.update e.name f).names[handle]? = some e.name) :
    Told (events ++ [e]) (b.update e.name f) := by
  refine ⟨fun name => ?_, fun name => ?_, fun name => ?_, fun e' he' handle hh => ?_⟩
  · rw [takenFrom_append, putInto_append, takenFrom_singleton, putInto_singleton, ← h.items name]
    by_cases hn : e.name = name
    · subst hn
      simp only [if_true, mailbox_update, List.append_assoc, hitems]
    · simp only [hn, if_false, List.append_nil, mailbox_update_of_ne b f (Ne.symm hn)]
  · have hconsumer : (b.update e.name f).hasConsumer name = b.hasConsumer name := rfl
    rw [hconsumer, h.consumers, List.mem_append, List.mem_singleton]
    refine ⟨.inl, fun he => he.resolve_right fun he => ?_⟩
    exact hregistered (congrArg Event.deed he).symm
  · rw [mem_names_update, h.names_append]
    constructor
    · rintro (hn | rfl)
      · exact .inl hn
      · exact hcreates.elim (fun hc => .inr ⟨rfl, hc⟩) .inl
    · rintro (hn | ⟨hn, -⟩)
      · exact .inl hn
      · exact .inr hn.symm
  · rcases List.mem_append.1 he' with he' | he'
    · exact getElem?_names_update e.name f (h.handles e' he' handle hh)
    · rw [List.mem_singleton.1 he'] at hh ⊢
      exact hhandle handle hh

theorem perform (h : Told events b) (c : Call α) :
    Told (events ++ (b.perform c).1) (b.perform c).2 := by
  have hdid := Did.perform b c
  generalize b.perform c = result at hdid ⊢
  cases hdid with
  | nothing => simpa using h
  | quiet hmailboxes hput htakes hcreates hhandle hconsumers =>
    exact h.quiet hmailboxes hput htakes hcreates hhandle hconsumers
  | change f hitems hregistered hcreates hhandle =>
    exact h.update f hitems hregistered hcreates hhandle

theorem performAll (h : Told events b) (cs : List (Call α)) :
    Told (events ++ (b.performAll cs).1) (b.performAll cs).2 := by
  induction cs generalizing events b with
  | nil => simpa [Broker.performAll] using h
  | cons c cs ih => simpa [Broker.performAll] using ih (h.perform c)

theorem handle_eq_iff (h : Told events b) {name other : String}
    {handle k : Nat} (hgot : ⟨name, .got handle⟩ ∈ events) (hother : ⟨other, .got k⟩ ∈ events) :
    k = handle ↔ other = name := by
  have hn := h.handles _ hgot handle rfl
  have ho := h.handles _ hother k rfl
  constructor
  · rintro rfl
    exact Option.some.inj (ho.symm.trans hn)
  · rintro rfl
    have hlt : k < b.names.length := (List.getElem?_eq_some_iff.1 ho).1
    exact (List.getElem?_inj hlt b.mailboxes.nodup).1 (ho.trans hn.symm)

end Told

-- ---------------------------------------------------------------------------
-- Calls up to now
-- ---------------------------------------------------------------------------

theorem perform_get (b : Broker α) (name : String) :
    ∃ handle, (b.perform (.get name)).1 = [⟨name, .got handle⟩] ∧
      (b.perform (.get name)).2.names[handle]? = some name ∧
      (∀ other, (b.perform (.get name)).2.mailbox other = b.mailbox other) ∧
      (b.perform (.get name)).2.consumers = b.consumers := by
  have hmem : name ∈ (b.ensure name).names := (b.mem_names_update id).2 (.inr rfl)
  exact ⟨_, rfl, List.getElem?_idxOf hmem, b.mailbox_ensure name, rfl⟩

theorem hasConsumer_perform (b : Broker α) (c : Call α) (name : String) :
    (b.perform c).2.hasConsumer name = true ↔
      b.hasConsumer name = true ∨ name ≠ "" ∧ .register name = c := by
  cases c with
  | register other =>
    by_cases hother : other = ""
    · subst hother
      simp only [perform, register_of_empty, Call.register.injEq]
      exact ⟨.inl, fun h => h.resolve_right fun h => h.1 h.2⟩
    · obtain ⟨b', hb', -, hconsumers⟩ := b.register_of_ne hother
      simp only [perform, hb', hconsumers, Call.register.injEq]
      refine or_congr_right ⟨?_, And.right⟩
      rintro rfl
      exact ⟨hother, rfl⟩
  | get other | getDefault => exact (or_iff_left fun h => nomatch h.2).symm
  | publish other a =>
    rw [or_iff_left fun h => nomatch h.2]
    cases hc : b.hasConsumer other with
    | true =>
      simp only [perform, publish?, hc, if_true]
      rfl
    | false => simp only [perform, publish?, hc, Bool.false_eq_true, if_false]
  | offer handle a | poll handle | drain handle most =>
    rw [or_iff_left fun h => nomatch h.2]
    cases hname : b.names[handle]? with
    | none => simp only [perform, hname]
    | some other =>
      simp only [perform, hname]
      rfl

theorem mem_names_perform (b : Broker α) (c : Call α) (name : String) :
    name ∈ (b.perform c).2.names ↔ name ∈ b.names ∨ .get name = c ∨
      .getDefault = c ∧ name = defaultQueueName ∨
        b.hasConsumer name = true ∧ ∃ a, .publish name a = c := by
  cases c with
  | get other | getDefault => simp [perform, Broker.get, ensure, mem_names_update]
  | register other =>
    by_cases hother : other = ""
    · subst hother
      simp [perform, register_of_empty]
    · obtain ⟨b', hb', hmailboxes, -⟩ := b.register_of_ne hother
      simp [perform, hb', Broker.names, hmailboxes]
  | publish other a =>
    have hpublish : (∃ a', .publish name a' = Call.publish other a) ↔ name = other := by
      simp [eq_comm]
    simp only [reduceCtorEq, false_and, false_or, hpublish]
    cases hc : b.hasConsumer other with
    | true =>
      simp only [perform, publish?, hc, if_true, Broker.offer, mem_names_update]
      refine or_congr_right ⟨?_, And.right⟩
      rintro rfl
      exact ⟨hc, rfl⟩
    | false =>
      simp only [perform, publish?, hc, Bool.false_eq_true, if_false]
      refine (or_iff_left ?_).symm
      rintro ⟨h, rfl⟩
      exact Bool.false_ne_true (hc.symm.trans h)
  | offer handle a | poll handle | drain handle most =>
    cases hname : b.names[handle]? with
    | none => simp [perform, hname]
    | some other =>
      simp [perform, hname, Broker.offer, Broker.poll, Broker.drain,
        mem_names_update_of_handle _ hname]

theorem performAll_concat (b : Broker α) (cs : List (Call α)) (c : Call α) :
    (b.performAll (cs ++ [c])).2 = ((b.performAll cs).2.perform c).2 := by
  induction cs generalizing b with
  | nil => rfl
  | cons d cs ih => exact ih (b.perform d).2

theorem hasConsumer_performAll (calls : List (Call α)) (name : String) :
    (({} : Broker α).performAll calls).2.hasConsumer name = true ↔
      name ≠ "" ∧ .register name ∈ calls := by
  induction calls using List.reverseRecOn with
  | nil => simp [performAll, hasConsumer]
  | append_singleton cs c ih =>
    rw [performAll_concat, hasConsumer_perform, ih, List.mem_append, List.mem_singleton,
      and_or_left]

/-- The calls make a mailbox of that name: it is asked for, or published to behind a registration
of its consumer. -/
def Makes (calls : List (Call α)) (name : String) : Prop :=
  .get name ∈ calls ∨ .getDefault ∈ calls ∧ name = defaultQueueName ∨
    name ≠ "" ∧ ∃ a, [.register name, .publish name a].Sublist calls

theorem makes_concat (calls : List (Call α)) (c : Call α) (name : String) :
    Makes (calls ++ [c]) name ↔ Makes calls name ∨ .get name = c ∨
      .getDefault = c ∧ name = defaultQueueName ∨
        (name ≠ "" ∧ .register name ∈ calls) ∧ ∃ a, .publish name a = c := by
  have hsub (a : α) : [.register name, .publish name a].Sublist (calls ++ [c]) ↔
      [.register name, .publish name a].Sublist calls ∨
        .register name ∈ calls ∧ .publish name a = c := by
    calc [.register name, .publish name a].Sublist (calls ++ [c])
        ↔ [.publish name a, .register name].Sublist (c :: calls.reverse) := by
          rw [← List.reverse_sublist]
          simp
      _ ↔ [.publish name a, .register name].Sublist calls.reverse ∨
          .publish name a = c ∧ .register name ∈ calls := by simp [List.sublist_cons_iff]
      _ ↔ _ := by
          rw [← List.reverse_sublist, List.reverse_reverse, and_comm]
          rfl
  simp only [Makes, hsub, List.mem_append, List.mem_singleton, exists_or, exists_and_left]
  tauto

theorem names_performAll (calls : List (Call α)) (name : String) :
    name ∈ (({} : Broker α).performAll calls).2.names ↔ Makes calls name := by
  -- from the last call back: a publication looks at what was registered before it
  induction calls using List.reverseRecOn with
  | nil => simp [performAll, Makes, Broker.names, OrderedMap.keys, OrderedMap.empty]
  | append_singleton cs c ih =>
    rw [performAll_concat, mem_names_perform, makes_concat, ih, hasConsumer_performAll]

-- ---------------------------------------------------------------------------
-- Histories
-- ---------------------------------------------------------------------------

/-- After any calls of a new broker. -/
theorem history_tells_broker (calls : List (Call α)) :
    let events := (({} : Broker α).performAll calls).1
    let b := (({} : Broker α).performAll calls).2
    (∀ name, ⟨name, .registered⟩ ∈ events ↔ name ≠ "" ∧ .register name ∈ calls) ∧
    (∀ name a,
      (⟨name, .registered⟩ ∈ events → (b.perform (.publish name a)).1 = [⟨name, .accepted a⟩]) ∧
      (⟨name, .registered⟩ ∉ events →
        b.perform (.publish name a) = ([⟨name, .returned a⟩], b))) ∧
    (∀ name, takenFrom name events ++ (b.mailbox name).items = putInto name events) ∧
    (∀ name, ∃ handle, (b.perform (.get name)).1 = [⟨name, .got handle⟩] ∧
      (b.perform (.get name)).2.names[handle]? = some name ∧
      (∀ other, (b.perform (.get name)).2.mailbox other = b.mailbox other) ∧
      (b.perform (.get name)).2.consumers = b.consumers) ∧
    b.perform .getDefault = b.perform (.get defaultQueueName) ∧
    (∀ name handle, ⟨name, .got handle⟩ ∈ events →
      (∀ other k, ⟨other, .got k⟩ ∈ events → (k = handle ↔ other = name)) ∧
      (∀ a, (b.perform (.offer handle a)).1 = [⟨name, .offered handle a⟩]) ∧
      (b.perform (.poll handle)).1 = [⟨name, .taken handle ((b.mailbox name).items.take 1)⟩] ∧
      ∀ most, (b.perform (.drain handle most)).1 =
        [⟨name, .taken handle ((b.mailbox name).items.take most)⟩]) ∧
    (∀ c other, (∀ e ∈ (b.perform c).1, e.name ≠ other) →
      (b.perform c).2.mailboxes.get? other = b.mailboxes.get? other ∧
      (b.perform c).2.hasConsumer other = b.hasConsumer other) ∧
    (∀ name, (b.perform (.register name)).1 =
      [⟨name, if name = "" then .refused else .registered⟩]) ∧
    (b.perform (.register "")).2 = b ∧
    (∀ c name, b.hasConsumer name = true → (b.perform c).2.hasConsumer name = true) ∧
    (b.isEmpty = true ↔ ∀ e ∈ events, e.deed.creates = false) ∧
    (b.isEmpty = true ↔ ∀ name, ¬ Makes calls name) ∧
    b.names.Nodup ∧
    (∀ name, name ∈ b.names ↔ ∃ e ∈ events, e.name = name ∧ e.deed.creates = true) ∧
    ∀ name, name ∈ b.names ↔ Makes calls name := by
  intro events b
  have told : Told events b := Told.start.performAll calls
  have hnames (name : String) : name ∈ b.names ↔ Makes calls name := names_performAll calls name
  refine ⟨fun name => ?_, fun name a => ⟨fun hr => ?_, fun hr => ?_⟩, told.items, b.perform_get,
    rfl, fun name handle hgot => ⟨fun other k => told.handle_eq_iff hgot, ?_⟩,
    b.perform_elsewhere, fun name => ?_, rfl, fun c name hc => ?_, ?_, ?_, b.mailboxes.nodup,
    told.names, hnames⟩
  · rw [← told.consumers, hasConsumer_performAll]
  · have hc := (told.consumers name).2 hr
    simp only [perform, publish?, hc, if_true]
  · have hc : b.hasConsumer name = false := by simpa using mt (told.consumers name).1 hr
    simp only [perform, publish?, hc, Bool.false_eq_true, if_false]
  · have hname : b.names[handle]? = some name := told.handles _ hgot handle rfl
    simp [perform, hname, Broker.poll, Mailbox.poll_fst]
  · by_cases hn : name = ""
    · subst hn
      simp [perform, register_of_empty]
    · obtain ⟨b', hb', -⟩ := b.register_of_ne hn
      simp [perform, hb', hn]
  · exact (b.hasConsumer_perform c name).2 (.inl hc)
  · rw [isEmpty_iff]
    simp only [told.names, not_exists, not_and, Bool.not_eq_true]
    exact ⟨fun h e he => h e.name e he rfl, fun h _ e he _ => h e he⟩
  · simp only [isEmpty_iff, hnames]

end Courier.Broker
