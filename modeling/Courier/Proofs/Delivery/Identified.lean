import Courier.Proofs.Delivery.Building
import Courier.Proofs.Delivery.Timeline

/-!
# Calls with ids

Where missing ids are generated, a call has both of them from its beginning on, and so has the
exchange that it publishes. It is so in whatever order the calls of a batch go on and whatever
others do to the broker, and on the timeline. Nothing has to be known of what attempts come to.
-/

namespace Courier

structure Request.Identified (r : Request) : Prop where
  correlationId : r.correlationId.isSome = true
  requestId : r.requestId.isSome = true

-- ---------------------------------------------------------------------------
-- Exchanges that wait
-- ---------------------------------------------------------------------------

namespace Broker

variable {b : Broker Exchange} {name : String} {xs : List Exchange} {x : Exchange}

def Identified (b : Broker Exchange) (name : String) : Prop :=
  ∀ x ∈ (b.mailbox name).items, x.request.Identified

theorem Identified.offer (h : b.Identified name) (other : String) (hx : x.request.Identified) :
    (b.offer other x).Identified name := by
  intro y hy
  by_cases hname : name = other
  · subst hname
    rw [items_offer, List.mem_append, List.mem_singleton] at hy
    rcases hy with hy | rfl
    · exact h y hy
    · exact hx
  · rw [Broker.offer, mailbox_update_of_ne _ _ hname] at hy
    exact h y hy

theorem Identified.foldl (h : b.Identified name) (other : String)
    (hxs : ∀ x ∈ xs, x.request.Identified) :
    (xs.foldl (fun b x => b.offer other x) b).Identified name := by
  induction xs generalizing b with
  | nil => exact h
  | cons x xs ih =>
    exact ih (h.offer other (hxs x List.mem_cons_self))
      fun y hy => hxs y (List.mem_cons_of_mem _ hy)

end Broker

namespace Schedule

def Identifies (effects : List Effect) : Prop :=
  ∀ x ∈ published effects, x.request.Identified

theorem Identifies.append {first second : List Effect} (h : Identifies first)
    (h' : Identifies second) : Identifies (first ++ second) := by
  intro x hx
  rw [published_append, List.mem_append] at hx
  exact hx.elim (h x) (h' x)

theorem identifies_of_published {effects : List Effect} (h : published effects = []) :
    Identifies effects := by
  intro x hx
  rw [h] at hx
  cases hx

theorem Offered.identified {others : Broker Exchange → Broker Exchange → Prop}
    {queue name : String} {start broker : Broker Exchange} {items : List Exchange}
    (h : Offered others queue start items broker) (hitems : ∀ x ∈ items, x.request.Identified)
    (hothers : ∀ b b', others b b' → b.Identified name → b'.Identified name)
    (hstart : start.Identified name) : broker.Identified name := by
  induction h with
  | start => exact hstart
  | offer h x ih =>
    have hx := hitems x (List.mem_append_right _ List.mem_cons_self)
    exact (ih fun y hy => hitems y (List.mem_append_left _ hy)).offer queue hx
  | outside h hb ih => exact hothers _ _ hb (ih hitems)

end Schedule

-- ---------------------------------------------------------------------------
-- One call
-- ---------------------------------------------------------------------------

namespace Delivery

theorem completed_identified {settings : SinkSettings} (h : settings.generateMissingIds = true)
    (ids : FreshIds) (q : Request) : (completed settings ids q).Identified where
  correlationId := by cases hq : q.correlationId <;> simp [completed, h, hq]
  requestId := by cases hq : q.requestId <;> simp [completed, h, hq]

end Delivery

variable [Pattern.Room]

/-- The call has both ids, and its pattern is that of its policy. -/
structure Invocation.Sound (i : Invocation) : Prop where
  identified : i.request.Identified
  compiled : SuccessPattern.compile i.policy.successPattern = .ok i.pattern

theorem Delivery.sound_of_prepare {t : Delivery} {ids : FreshIds} {record : InboundRecord}
    {i : Invocation} (hids : t.settings.generateMissingIds = true)
    (h : t.prepare ids record = .ok i) : i.Sound := by
  obtain ⟨request, hbuilt, hstart⟩ := prepare_ok h
  obtain ⟨hrequest, -⟩ := Invocation.start_ok hstart
  obtain ⟨q, -, -, rfl⟩ := buildRequest_eq_ok_iff.1 hbuilt
  exact ⟨hrequest ▸ completed_identified hids ids q, (prepare_first h).2⟩

namespace Invocation.Sound

variable {i j : Invocation} {a : Attempt}

theorem numbered (h : i.Sound) (n : Nat) : (i.numbered n).Sound :=
  ⟨h.identified, h.compiled⟩

theorem of_pause {delay : Span} (h : i.Sound) (hnext : i.next a = .pause delay j) : j.Sound := by
  by_cases hd : i.decision a.result = .retry
  · rw [next_of_retry hd] at hnext
    cases hnext
    exact ⟨h.identified, h.compiled⟩
  · rw [next_of_stop hd] at hnext
    cases hnext

theorem of_done {x : Exchange} (h : i.Sound) (hnext : i.next a = .done x) :
    x.request.Identified := by
  by_cases hd : i.decision a.result = .retry
  · rw [next_of_retry hd] at hnext
    cases hnext
  · rw [next_of_stop hd] at hnext
    cases hnext
    exact h.identified

end Invocation.Sound

def Flight.call : Flight → Invocation
  | .answering i _ => i
  | .pausing i => i

namespace Schedule

variable {σ : Type} {w : World σ} {t : Delivery} {s : Shared σ}

def SoundJob : InboundRecord ⊕ Flight → Prop
  | .inl _ => True
  | .inr f => f.call.Sound

def SoundLeg : Leg → Prop
  | .wait _ f => f.call.Sound
  | .landed _ => True

theorem launch_sound (hids : t.settings.generateMissingIds = true) (record : InboundRecord) :
    SoundLeg (launch w t s record).leg ∧ Identifies (launch w t s record).effects := by
  rcases launch_cases w t s record with ⟨i, ms, s', hi, hleg, heffects⟩ | ⟨e, -, hleg, heffects⟩
  · rw [hleg, heffects]
    exact ⟨(Delivery.sound_of_prepare hids hi).numbered 1, identifies_of_published (by simp)⟩
  · rw [hleg, heffects]
    exact ⟨trivial, identifies_of_published rfl⟩

theorem resume_sound {f : Flight} (h : f.call.Sound) :
    SoundLeg (resume w t s f).leg ∧ Identifies (resume w t s f).effects := by
  cases f with
  | pausing i => exact ⟨h, identifies_of_published rfl⟩
  | answering i a =>
    obtain ⟨classifier, hresume⟩ := @resume_answering _ w t _ s i a h.compiled
    rw [hresume]
    cases hnext : i.next a with
    | pause delay j => exact ⟨h.of_pause hnext, identifies_of_published rfl⟩
    | done x =>
      refine ⟨trivial, fun y hy => ?_⟩
      simp only [published_map_published, publications] at hy
      split at hy
      · rw [List.mem_singleton.1 hy]
        exact h.of_done hnext
      · cases hy

/-- A call that runs stays sound, and publishes nothing without ids. -/
theorem run_sound (hids : t.settings.generateMissingIds = true) {job : InboundRecord ⊕ Flight}
    (h : SoundJob job) : SoundLeg (run w t s job).leg ∧ Identifies (run w t s job).effects := by
  cases job with
  | inl record => exact launch_sound hids record
  | inr f => exact resume_sound h

-- ---------------------------------------------------------------------------
-- Batches in any order
-- ---------------------------------------------------------------------------

def State.published (b : State σ) : List Exchange :=
  (b.flying.flatMap fun call => Schedule.published call.effects) ++
    (b.landed ++ b.taken).flatMap fun call => Schedule.published call.effects

variable {others : Broker Exchange → Broker Exchange → Prop} {start : Broker Exchange}
  {records : List InboundRecord} {b b' : State σ} {name : String}

/-- A batch at any time of a run in which ids are generated. -/
structure Traced (t : Delivery) (others : Broker Exchange → Broker Exchange → Prop)
    (start : Broker Exchange) (b : State σ) : Prop where
  flying : ∀ call ∈ b.flying, SoundJob call.stage ∧ Identifies call.effects
  landed : ∀ call ∈ b.landed, Identifies call.effects
  taken : ∀ call ∈ b.taken, Identifies call.effects
  offered : ∃ items, Offered others t.settings.queueName start items b.shared.site.broker ∧
    ∀ x ∈ items, x.request.Identified

namespace Traced

theorem of (records : List InboundRecord) (s : Shared σ) :
    Traced t others s.site.broker (.of records s) where
  flying _ h := nomatch h
  landed _ h := nomatch h
  taken _ h := nomatch h
  offered := ⟨[], .start, fun _ h => nomatch h⟩

theorem goes (hids : t.settings.generateMissingIds = true) {stretch : Stretch σ}
    {call : Call (InboundRecord ⊕ Flight)} {rest : List (Call (InboundRecord ⊕ Flight))}
    (h : Traced t others start b) (hcall : b.flying.Perm (call :: rest))
    (hrun : run w t b.shared call.stage = stretch) :
    SoundLeg stretch.leg ∧ Identifies (call.effects ++ stretch.effects) ∧
      ∃ items, Offered others t.settings.queueName start items stretch.shared.site.broker ∧
        ∀ x ∈ items, x.request.Identified := by
  obtain ⟨hjob, heffects⟩ := h.flying call (hcall.mem_iff.2 List.mem_cons_self)
  obtain ⟨hleg, hmore⟩ := run_sound (w := w) (s := b.shared) hids hjob
  obtain ⟨items, hoffered, hitems⟩ := h.offered
  have hbroker := broker_run (w := w) (t := t) b.shared call.stage
  rw [hrun] at hleg hmore hbroker
  -- The broker has what was offered so far, and now what this call published.
  refine ⟨hleg, heffects.append hmore, _, hbroker ▸ hoffered.foldl _, fun x hx => ?_⟩
  exact (List.mem_append.1 hx).elim (hitems x) (hmore x)

theorem step (hids : t.settings.generateMissingIds = true) (h : Traced t others start b)
    (hstep : Step w t b b') : Traced t others start b' := by
  cases hstep with
  | begin hroom hwaiting =>
    refine { h with flying := List.forall_mem_cons.2 ⟨⟨trivial, ?_⟩, h.flying⟩ }
    exact identifies_of_published rfl
  | wait hcall hrun =>
    obtain ⟨hleg, heffects, hoffered⟩ := h.goes hids hcall hrun
    refine { h with
      flying := List.forall_mem_cons.2 ⟨⟨hleg, heffects⟩, fun other hother => ?_⟩
      offered := hoffered }
    exact h.flying other (hcall.mem_iff.2 (List.mem_cons_of_mem _ hother))
  | land hcall hrun =>
    obtain ⟨-, heffects, hoffered⟩ := h.goes hids hcall hrun
    refine { h with
      flying := fun other hother => ?_
      landed := List.forall_mem_cons.2 ⟨heffects, h.landed⟩
      offered := hoffered }
    exact h.flying other (hcall.mem_iff.2 (List.mem_cons_of_mem _ hother))
  | take hcall hplace =>
    have hlanded := fun other hother => h.landed other (hcall.mem_iff.2 hother)
    obtain ⟨hfirst, hrest⟩ := List.forall_mem_cons.1 hlanded
    refine { h with landed := hrest, taken := fun other hother => ?_ }
    rcases List.mem_append.1 hother with hother | hother
    · exact h.taken other hother
    · exact List.mem_singleton.1 hother ▸ hfirst

theorem published (h : Traced t others start b) :
    ∀ x ∈ b.published, x.request.Identified := by
  intro x hx
  simp only [State.published, List.mem_append, List.mem_flatMap] at hx
  rcases hx with ⟨call, hcall, hx⟩ | ⟨call, hcall | hcall, hx⟩
  · exact (h.flying call hcall).2 x hx
  · exact h.landed call hcall x hx
  · exact h.taken call hcall x hx

end Traced

theorem Run.traced (hids : t.settings.generateMissingIds = true) {n : Nat}
    (h : Run w t others (.of records s) n b) : Traced t others s.site.broker b := by
  induction h with
  | start => exact .of records s
  | step hrun hstep ih => exact ih.step hids hstep
  | outside hrun hothers ih =>
    obtain ⟨items, hoffered, hitems⟩ := ih.offered
    exact { ih with offered := ⟨items, hoffered.outside hothers, hitems⟩ }

-- ---------------------------------------------------------------------------
-- The timeline
-- ---------------------------------------------------------------------------

variable {a : Batch}

/-- A leg of a sound call, at a site where no exchange without ids waits under that name. -/
def SoundAt (name : String) (leg : Leg × Site σ) : Prop :=
  SoundLeg leg.1 ∧ leg.2.broker.Identified name

theorem soundAt_runOn (hids : t.settings.generateMissingIds = true) {site : Site σ}
    {job : InboundRecord ⊕ Flight} (h : SoundJob job) (hsite : site.broker.Identified name) :
    SoundAt name (runOn w t site job) := by
  -- A sound call knows its pattern, so it runs as where no pattern was ever compiled.
  have heq : runOn w t site job =
      ((run w t ⟨site, {}⟩ job).leg, (run w t ⟨site, {}⟩ job).shared.site) := by
    cases job with
    | inl record => exact (launch_eq ⟨site, {}⟩).symm
    | inr f =>
      refine (resume_eq ⟨site, {}⟩ fun i a hf => ?_).symm
      subst hf
      exact h.compiled
  obtain ⟨hleg, heffects⟩ := run_sound (w := w) (s := ⟨site, {}⟩) hids h
  rw [heq]
  refine ⟨hleg, ?_⟩
  simp only [broker_run]
  exact hsite.foldl _ heffects

theorem soundAt_proceed (hids : t.settings.generateMissingIds = true) {leg : Leg × Site σ}
    (h : SoundAt name leg) (fuel : Nat) : SoundAt name (Site.proceed w t fuel leg) := by
  induction fuel generalizing leg with
  | zero => exact h
  | succ fuel ih =>
    match leg with
    | (.landed result, site) => exact h
    | (.wait (ms + 1) f, site) => exact h
    | (.wait 0 f, site) =>
      have hnext : SoundAt name (runOn w t site (.inr f)) := soundAt_runOn hids h.1 h.2
      exact ih hnext

structure SoundBatch (a : Batch) : Prop where
  ready : ∀ entry ∈ a.ready, SoundJob entry.2
  resting : ∀ entry ∈ a.resting, entry.2.2.call.Sound

namespace SoundBatch

theorem of (records : List InboundRecord) : SoundBatch (.of records) where
  ready _ h := nomatch h
  resting _ h := nomatch h

theorem fill (h : SoundBatch a) (width : Nat) : SoundBatch (a.fill width) where
  ready entry hentry := by
    rcases List.mem_append.1 hentry with hentry | hentry
    · exact h.ready entry hentry
    · obtain ⟨_, -, rfl⟩ := List.mem_map.1 hentry
      trivial
  resting := h.resting

theorem take {a' : Batch} (h : SoundBatch a) (htake : a.take? = some a') : SoundBatch a' := by
  unfold Batch.take? at htake
  split at htake
  · cases htake
    exact ⟨h.ready, h.resting⟩
  · cases htake

theorem awake {a' : Batch} (h : SoundBatch a) (hawake : a.awake? = some a') : SoundBatch a' := by
  obtain ⟨due, later, hperm, -, ha'⟩ := awake?_eq_some hawake
  rw [ha']
  refine ⟨fun entry hentry => ?_, fun entry hentry => ?_⟩
  · rcases List.mem_append.1 hentry with hentry | hentry
    · exact h.ready entry hentry
    · obtain ⟨rest, hrest, rfl⟩ := List.mem_map.1 hentry
      exact h.resting rest (hperm.mem_iff.1 (List.mem_append_left _ hrest))
  · exact h.resting entry (hperm.mem_iff.1 (List.mem_append_right _ hentry))

theorem run (hids : t.settings.generateMissingIds = true) {site : Site σ} {place : Nat}
    {job : InboundRecord ⊕ Flight} {rest : List (Nat × (InboundRecord ⊕ Flight))}
    (h : SoundBatch a) (hready : a.ready = (place, job) :: rest)
    (hsite : site.broker.Identified name) :
    SoundBatch (a.run w t site place job rest).1 ∧
      (a.run w t site place job rest).2.broker.Identified name := by
  have hall := h.ready
  rw [hready] at hall
  obtain ⟨hjob, hrest⟩ := List.forall_mem_cons.1 hall
  have hleg : SoundAt name (Site.proceed w t Site.patience (runOn w t site job)) :=
    soundAt_proceed hids (soundAt_runOn hids hjob hsite) Site.patience
  rw [batch_run_eq]
  split
  · next ms f site' hproceed =>
    rw [hproceed] at hleg
    refine ⟨⟨hrest, fun entry hentry => ?_⟩, hleg.2⟩
    rcases List.mem_append.1 hentry with hentry | hentry
    · exact h.resting entry hentry
    · exact List.mem_singleton.1 hentry ▸ hleg.1
  · next result site' hproceed =>
    rw [hproceed] at hleg
    exact ⟨⟨hrest, h.resting⟩, hleg.2⟩

theorem workOff (hids : t.settings.generateMissingIds = true) (width fuel : Nat) {site : Site σ}
    (h : SoundBatch a) (hsite : site.broker.Identified name) :
    (Batch.workOff w t width fuel a site).2.broker.Identified name := by
  induction fuel generalizing a site with
  | zero => exact hsite
  | succ fuel ih =>
    rw [Batch.workOff]
    split
    · next a' htake => exact ih ((h.take htake).fill width) hsite
    · split
      · next place job rest hready =>
        obtain ⟨hbatch, hsite'⟩ := h.run (w := w) hids hready hsite
        exact ih hbatch hsite'
      · split
        · next a' hawake => exact ih (h.awake hawake) hsite
        · exact hsite

end SoundBatch

/-- A batch in which ids are generated leaves no exchange without ids to wait. -/
theorem put_identified (w : World σ) (hids : t.settings.generateMissingIds = true)
    (site : Site σ) (records : List InboundRecord) (h : site.broker.Identified name) :
    (site.put w t records).2.broker.Identified name := by
  -- Stated of the fuel as it is written, which is too large to be unfolded.
  have hsite := ((SoundBatch.of records).fill t.width).workOff (w := w) hids t.width
    ((records.length + 1) * (3 * Site.patience)) h
  obtain ⟨worked, hworked, hput⟩ := put_eq w t site records
  rw [hworked] at hsite
  rw [hput]
  exact hsite

end Schedule

end Courier
