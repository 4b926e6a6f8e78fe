import Courier.Proofs.Delivery.Schedule

/-!
# The timeline as one order of many

The timeline lets the calls of a batch go on in the order of their waits. That is one of the orders
in which they may go on, so what holds of all holds of it. It comes to its end within its fuel.
-/

namespace Courier.Schedule

variable {a : Batch}

-- ---------------------------------------------------------------------------
-- The timeline by itself
-- ---------------------------------------------------------------------------

def Full (t : Delivery) (a : Batch) : Prop :=
  a.waiting = [] ∨ t.width ≤ a.begun

theorem full_fill (t : Delivery) (a : Batch) : Full t (a.fill t.width) := by
  simp only [Full, Batch.fill, Batch.begun, List.drop_eq_nil_iff, List.length_append,
    List.length_map, List.length_take]
  omega

theorem perm_filter_of_lookup {α : Type} {entries : List (Nat × α)} {key : Nat} {value : α}
    (hkeys : (entries.map Prod.fst).Nodup) (h : entries.lookup key = some value) :
    entries.Perm ((key, value) :: entries.filter (·.1 != key)) := by
  induction entries with
  | nil => cases h
  | cons entry rest ih =>
    obtain ⟨k, v⟩ := entry
    obtain ⟨hk, hrest⟩ := List.nodup_cons.1 hkeys
    by_cases hkey : key = k
    · subst hkey
      simp only [List.lookup_cons_self, Option.some.injEq] at h
      have hothers : rest.filter (·.1 != key) = rest := by
        refine List.filter_eq_self.2 fun entry hentry => bne_iff_ne.2 ?_
        rintro rfl
        exact hk (List.mem_map.2 ⟨entry, hentry, rfl⟩)
      simp [h, hothers]
    · have hne : (key == k) = false := beq_eq_false_iff_ne.2 hkey
      rw [List.lookup_cons, hne] at h
      rw [List.filter_cons_of_pos (by simpa using Ne.symm hkey)]
      exact ((ih hrest h).cons _).trans (.swap ..)

theorem take?_resting {a' : Batch} (h : a.take? = some a') : a'.resting = a.resting := by
  unfold Batch.take? at h
  split at h
  · cases h
    rfl
  · cases h

theorem awake?_eq_some {a' : Batch} (h : a.awake? = some a') :
    ∃ due later, (due ++ later).Perm a.resting ∧ due ≠ [] ∧
      a' = { a with
        ready := a.ready ++ due.map fun (place, _, f) => (place, .inr f)
        resting := later
        now := a'.now } := by
  unfold Batch.awake? at h
  split at h
  · cases h
  · next time htime =>
    rw [List.partition_eq_filter_filter] at h
    cases h
    obtain ⟨rest, hrest, hdue⟩ := List.mem_map.1 (List.min?_mem htime)
    refine ⟨_, _, List.filter_append_perm _ _, ?_, rfl⟩
    refine List.ne_nil_of_mem (List.mem_filter.2 ⟨hrest, ?_⟩)
    simp [hdue]

theorem awake?_frame {a' : Batch} (h : a.awake? = some a') :
    a'.waiting = a.waiting ∧ a'.begun = a.begun ∧ a'.resting.length < a.resting.length := by
  obtain ⟨due, later, hperm, hdue, ha'⟩ := awake?_eq_some h
  have hlength := hperm.length_eq
  have hpos := List.length_pos_iff.2 hdue
  rw [List.length_append] at hlength
  rw [ha']
  simp only [Batch.begun, List.length_append, List.length_map, true_and]
  omega

variable {σ : Type} {w : World σ} {t : Delivery}
  {outcome : Request → UInt32 → Except TransportError Response}
  {others : Broker Exchange → Broker Exchange → Prop} {records : List InboundRecord}
  [Pattern.Room] {shared : Shared σ} {s : Site σ} {b : State σ} {n : Nat}

-- ---------------------------------------------------------------------------
-- One state seen both ways
-- ---------------------------------------------------------------------------

def Call.bare {stage : Type} (call : Call stage) : Nat × stage :=
  (call.place, call.stage)

/-- The same batch on the timeline and in no particular order. -/
structure Agrees (b : State σ) (a : Batch) (s : Site σ) : Prop where
  waiting : b.waiting = a.waiting
  flying : (b.flying.map Call.bare).Perm
    (a.ready ++ a.resting.map fun (place, _, f) => (place, .inr f))
  landed : (b.landed.map Call.bare).Perm a.landed
  taken : b.results = a.taken.reverse
  site : b.shared.site = s

theorem Agrees.begun_eq (h : Agrees b a s) : b.begun = a.begun := by
  have hflying := h.flying.length_eq
  have hlanded := h.landed.length_eq
  simp only [List.length_map, List.length_append] at hflying hlanded
  simp only [State.begun, Batch.begun]
  omega

theorem Agrees.length_taken (h : Agrees b a s) : b.taken.length = a.taken.length := by
  have htaken := congrArg List.length h.taken
  simpa [State.results] using htaken

/-- A run of `n` steps gets to where the timeline is. -/
def Meets (w : World σ) (t : Delivery) (others : Broker Exchange → Broker Exchange → Prop)
    (records : List InboundRecord) (shared : Shared σ) (n : Nat) (a : Batch) (s : Site σ) : Prop :=
  ∃ b, Run w t others (.of records shared) n b ∧ Agrees b a s

theorem meets_of (records : List InboundRecord) (shared : Shared σ) :
    Meets w t others records shared 0 (.of records) shared.site :=
  ⟨_, .start, rfl, .refl _, .refl _, rfl, rfl⟩

-- ---------------------------------------------------------------------------
-- Beginning calls
-- ---------------------------------------------------------------------------

theorem Meets.begin {room rest : List (Nat × InboundRecord)}
    (h : Meets w t others records shared n a s) (hwaiting : a.waiting = room ++ rest)
    (hroom : a.begun + room.length ≤ t.width) :
    ∃ m, n ≤ m ∧ Meets w t others records shared m
      { a with
        waiting := rest
        ready := a.ready ++ room.map fun (place, record) => (place, .inl record) } s := by
  induction room generalizing a n with
  | nil =>
    obtain ⟨b, hrun, hagrees⟩ := h
    refine ⟨n, Nat.le_refl n, b, hrun, { hagrees with waiting := ?_, flying := ?_ }⟩
    · exact hagrees.waiting.trans hwaiting
    · simpa using hagrees.flying
  | cons next room ih =>
    obtain ⟨b, hrun, hagrees⟩ := h
    obtain ⟨place, record⟩ := next
    rw [List.length_cons] at hroom
    have hstep : Step w t b { b with
        waiting := room ++ rest, flying := ⟨place, [], .inl record⟩ :: b.flying } :=
      .begin (by rw [hagrees.begun_eq]; omega) (hagrees.waiting.trans hwaiting)
    have hmeets : Meets w t others records shared (n + 1)
        { a with waiting := room ++ rest, ready := a.ready ++ [(place, .inl record)] } s := by
      refine ⟨_, hrun.step hstep, { hagrees with waiting := rfl, flying := ?_ }⟩
      rw [List.map_cons, List.append_assoc]
      exact (hagrees.flying.cons _).trans List.perm_middle.symm
    obtain ⟨m, hm, hmeets⟩ := ih hmeets rfl (by
      simp only [Batch.begun, List.length_append, List.length_singleton] at hroom ⊢
      omega)
    refine ⟨m, by omega, ?_⟩
    simpa using hmeets

theorem Meets.fill (hw : w.Answers outcome) (h : Meets w t others records shared n a s) :
    ∃ m, n ≤ m ∧ Meets w t others records shared m (a.fill t.width) s := by
  obtain ⟨b, hrun, hagrees⟩ := h
  have hroom := (hrun.orderly hw).1.room
  rw [hagrees.begun_eq] at hroom
  exact Meets.begin ⟨b, hrun, hagrees⟩ (List.take_append_drop _ _).symm (by
    rw [List.length_take]
    omega)

-- ---------------------------------------------------------------------------
-- Taking results
-- ---------------------------------------------------------------------------

theorem Orderly.nodup_landed {start : Broker Exchange}
    (h : Orderly w t outcome others records start b) : (b.landed.map (·.place)).Nodup :=
  (List.nodup_append.1 (h.places.nodup_iff.2 List.nodup_range')).2.1

theorem Agrees.map_fst_landed (h : Agrees b a s) :
    (b.landed.map (·.place)).Perm (a.landed.map Prod.fst) := by
  have hfst := h.landed.map Prod.fst
  rw [List.map_map] at hfst
  exact hfst

theorem Meets.take (hw : w.Answers outcome) {a' : Batch}
    (h : Meets w t others records shared n a s) (htake : a.take? = some a') :
    Meets w t others records shared (n + 1) a' s := by
  obtain ⟨b, hrun, hagrees⟩ := h
  unfold Batch.take? at htake
  split at htake
  · next result hlookup =>
    cases htake
    have hnodup : (a.landed.map Prod.fst).Nodup :=
      hagrees.map_fst_landed.nodup_iff.1 (hrun.orderly hw).1.nodup_landed
    have hlanded := hagrees.landed.trans (perm_filter_of_lookup hnodup hlookup)
    obtain ⟨call, hcall, hbare⟩ := List.mem_map.1 (hlanded.mem_iff.2 List.mem_cons_self)
    obtain ⟨hplace, hstage⟩ := Prod.mk.inj hbare
    obtain ⟨before, after, heq⟩ := List.append_of_mem hcall
    have hperm : b.landed.Perm (call :: (before ++ after)) := heq ▸ List.perm_middle
    have hrest := (hperm.map Call.bare).symm.trans hlanded
    rw [List.map_cons, hbare, List.perm_cons] at hrest
    refine ⟨_, hrun.step (.take hperm (hplace.trans hagrees.length_taken.symm)),
      { hagrees with landed := hrest, taken := ?_ }⟩
    have htaken := hagrees.taken
    simp only [State.results] at htaken
    simp [State.results, htaken, hstage]
  · cases htake

-- ---------------------------------------------------------------------------
-- Running calls
-- ---------------------------------------------------------------------------

structure Moved (b b' : State σ) (place : Nat) (rest : List (Call (InboundRecord ⊕ Flight)))
    (leg : Leg × Site σ) : Prop where
  waiting : b'.waiting = b.waiting
  taken : b'.taken = b.taken
  site : b'.shared.site = leg.2
  call : ∃ effects, match leg.1 with
    | .wait _ f => b'.flying = ⟨place, effects, .inr f⟩ :: rest ∧ b'.landed = b.landed
    | .landed result => b'.flying = rest ∧ b'.landed = ⟨place, effects, result⟩ :: b.landed

theorem Moved.step {call : Call (InboundRecord ⊕ Flight)}
    {rest : List (Call (InboundRecord ⊕ Flight))} (hcall : b.flying.Perm (call :: rest)) :
    ∃ b', Step w t b b' ∧ Moved b b' call.place rest
      ((run w t b.shared call.stage).leg, (run w t b.shared call.stage).shared.site) := by
  match hrun : run w t b.shared call.stage with
  | ⟨.wait ms f, effects, shared⟩ =>
    exact ⟨_, .wait hcall hrun, rfl, rfl, rfl, _, rfl, rfl⟩
  | ⟨.landed result, effects, shared⟩ =>
    exact ⟨_, .land hcall hrun, rfl, rfl, rfl, _, rfl, rfl⟩

theorem Moved.proceed (hw : w.Answers outcome) {place : Nat} {b₁ : State σ}
    {rest : List (Call (InboundRecord ⊕ Flight))} {leg : Leg × Site σ}
    (hrun : Run w t others (.of records shared) n b₁) (h : Moved b b₁ place rest leg)
    (fuel : Nat) :
    ∃ m b₂, n ≤ m ∧ Run w t others (.of records shared) m b₂ ∧
      Moved b b₂ place rest (Site.proceed w t fuel leg) := by
  induction fuel generalizing n b₁ leg with
  | zero => exact ⟨n, b₁, Nat.le_refl n, hrun, h⟩
  | succ fuel ih =>
    match leg with
    | (.landed result, s) => exact ⟨n, b₁, Nat.le_refl n, hrun, h⟩
    | (.wait (ms + 1) f, s) => exact ⟨n, b₁, Nat.le_refl n, hrun, h⟩
    | (.wait 0 f, s) =>
      obtain ⟨effects, hflying, hlanded⟩ := h.call
      have hcall : b₁.flying.Perm (⟨place, effects, .inr f⟩ :: rest) := hflying ▸ .refl _
      obtain ⟨record, -, hunderway⟩ := (hrun.orderly hw).1.called hcall
      obtain ⟨b₂, hstep, hmoved⟩ := Moved.step (w := w) (t := t) hcall
      rw [run_eq hunderway, h.site] at hmoved
      obtain ⟨m, b₃, hm, hrun', hmoved'⟩ := ih (hrun.step hstep)
        ⟨hmoved.waiting.trans h.waiting, hmoved.taken.trans h.taken, hmoved.site,
          hlanded ▸ hmoved.call⟩
      exact ⟨m, b₃, by omega, hrun', hmoved'⟩

theorem batch_run_eq (w : World σ) (t : Delivery) (a : Batch) (s : Site σ) (place : Nat)
    (job : InboundRecord ⊕ Flight) (rest : List (Nat × (InboundRecord ⊕ Flight))) :
    a.run w t s place job rest =
      match Site.proceed w t Site.patience (runOn w t s job) with
      | (.wait ms f, s) =>
        ({ a with ready := rest, resting := a.resting ++ [(place, a.now + ms, f)] }, s)
      | (.landed result, s) =>
        ({ a with ready := rest, landed := a.landed ++ [(place, result)] }, s) := by
  cases job <;> rfl

theorem Meets.run (hw : w.Answers outcome) {place : Nat} {job : InboundRecord ⊕ Flight}
    {rest : List (Nat × (InboundRecord ⊕ Flight))}
    (h : Meets w t others records shared n a s) (hready : a.ready = (place, job) :: rest) :
    ∃ m, n < m ∧ Meets w t others records shared m (a.run w t s place job rest).1
      (a.run w t s place job rest).2 := by
  obtain ⟨b, hrun, hagrees⟩ := h
  have hflying := hagrees.flying
  rw [hready] at hflying
  obtain ⟨call, hcall, hbare⟩ := List.mem_map.1 (hflying.mem_iff.2 List.mem_cons_self)
  obtain ⟨rfl, rfl⟩ := Prod.mk.inj hbare
  obtain ⟨before, after, heq⟩ := List.append_of_mem hcall
  have hperm : b.flying.Perm (call :: (before ++ after)) := heq ▸ List.perm_middle
  have hothers := (hperm.map Call.bare).symm.trans hflying
  rw [List.map_cons, hbare, List.cons_append, List.perm_cons] at hothers
  obtain ⟨record, -, hunderway⟩ := (hrun.orderly hw).1.called hperm
  obtain ⟨b₁, hstep, hmoved⟩ := Moved.step (w := w) (t := t) hperm
  obtain ⟨m, b₂, hm, hrun', hmoved'⟩ :=
    Moved.proceed hw (hrun.step hstep) hmoved Site.patience
  refine ⟨m, by omega, b₂, hrun', ?_⟩
  rw [run_eq hunderway, hagrees.site] at hmoved'
  have htaken : b₂.results = a.taken.reverse := by
    rw [State.results, hmoved'.taken]
    exact hagrees.taken
  have hwaiting := hmoved'.waiting.trans hagrees.waiting
  have hsite := hmoved'.site
  obtain ⟨effects, hleg⟩ := hmoved'.call
  rw [batch_run_eq]
  split
  · next ms f s' hproceed =>
    rw [hproceed] at hleg hsite
    obtain ⟨hflying', hlanded'⟩ := hleg
    refine ⟨hwaiting, ?_, hlanded' ▸ hagrees.landed, htaken, hsite⟩
    rw [hflying', List.map_append, ← List.append_assoc]
    exact (hothers.cons _).trans (List.perm_append_singleton _ _).symm
  · next result s' hproceed =>
    rw [hproceed] at hleg hsite
    obtain ⟨hflying', hlanded'⟩ := hleg
    refine ⟨hwaiting, hflying' ▸ hothers, ?_, htaken, hsite⟩
    rw [hlanded']
    exact (hagrees.landed.cons _).trans (List.perm_append_singleton _ _).symm

-- ---------------------------------------------------------------------------
-- Letting time pass
-- ---------------------------------------------------------------------------

theorem Meets.awake {a' : Batch} (h : Meets w t others records shared n a s)
    (hawake : a.awake? = some a') : Meets w t others records shared n a' s := by
  obtain ⟨b, hrun, hagrees⟩ := h
  obtain ⟨due, later, hperm, -, ha'⟩ := awake?_eq_some hawake
  rw [ha']
  refine ⟨b, hrun, { hagrees with flying := hagrees.flying.trans ?_ }⟩
  simp only [List.append_assoc, ← List.map_append]
  exact ((hperm.map _).append_left _).symm

-- ---------------------------------------------------------------------------
-- The whole batch
-- ---------------------------------------------------------------------------

/-- Nothing can be done on the timeline only when everything is done. -/
theorem Agrees.done {start : Broker Exchange} (h : Agrees b a s)
    (horderly : Orderly w t outcome others records start b) (hfull : Full t a)
    (htake : a.take? = none) (hready : a.ready = []) (hawake : a.awake? = none) : b.Done := by
  have hresting : a.resting = [] := by
    unfold Batch.awake? at hawake
    split at hawake
    · next hmin => simpa using hmin
    · cases hawake
  have hflying : b.flying = [] := by
    have hperm := h.flying
    rw [hready, hresting] at hperm
    simpa using hperm.eq_nil
  have hlanded : b.landed = [] := by
    by_contra hne
    have hmem := h.map_fst_landed.mem_iff.1 (horderly.mem_places hflying hne)
    obtain ⟨⟨place, result⟩, hentry, hplace⟩ := List.mem_map.1 hmem
    unfold Batch.take? at htake
    split at htake
    · cases htake
    · next hlookup =>
      rw [← h.length_taken] at hlookup
      have hkey := List.lookup_eq_none_iff.1 hlookup _ hentry
      simp [← hplace] at hkey
  have hbegun : a.begun = 0 := by
    rw [← h.begun_eq, State.begun, hflying, hlanded]
    rfl
  have hwaiting : b.waiting = [] := by
    rw [h.waiting]
    refine hfull.resolve_right ?_
    rw [hbegun, Delivery.width]
    omega
  exact ⟨hwaiting, hflying, hlanded⟩

theorem Meets.le (hw : w.Answers outcome) (h : Meets w t others records shared n a s) :
    n ≤ records.length * (2 * UInt32.size + 2) := by
  obtain ⟨b, hrun, -⟩ := h
  have hle := (hrun.orderly hw).2
  omega

theorem batch_run_frame {place : Nat} {job : InboundRecord ⊕ Flight}
    {rest : List (Nat × (InboundRecord ⊕ Flight))} (hready : a.ready = (place, job) :: rest) :
    (a.run w t s place job rest).1.waiting = a.waiting ∧
      (a.run w t s place job rest).1.begun = a.begun ∧
      (a.run w t s place job rest).1.resting.length ≤ a.resting.length + 1 := by
  rw [batch_run_eq]
  split
  · simp only [Batch.begun, hready, List.length_append, List.length_cons, List.length_nil,
      Nat.le_refl, true_and, and_true]
    omega
  · simp only [Batch.begun, hready, List.length_append, List.length_cons, List.length_nil,
      true_and]
    omega

/-- The timeline comes to its end, and a run with it. Every run of a call or taking of a result is
a step, and between steps only so often time passes as calls rest. -/
theorem workOff_done (hw : w.Answers outcome) {fuel : Nat}
    (hfuel : 2 * (records.length * (2 * UInt32.size + 2) - n) + a.resting.length < fuel)
    (h : Meets w t others records shared n a s) (hfull : Full t a) :
    ∃ m b, Run w t others (.of records shared) m b ∧ b.Done ∧
      Agrees b (Batch.workOff w t t.width fuel a s).1
        (Batch.workOff w t t.width fuel a s).2 := by
  induction fuel generalizing n a s with
  | zero => omega
  | succ fuel ih =>
    rw [Batch.workOff]
    split
    · next a' htake =>
      obtain ⟨m, hm, hmeets⟩ := (h.take hw htake).fill hw
      have hle := hmeets.le hw
      have hresting := take?_resting htake
      exact ih (by simp only [Batch.fill, hresting]; omega) hmeets (full_fill t a')
    · next htake =>
      split
      · next place job rest hready =>
        -- a step may leave one call more to rest, which the step itself makes up for
        obtain ⟨m, hm, hmeets⟩ := h.run hw hready
        obtain ⟨hwaiting, hbegun, hresting⟩ :=
          batch_run_frame (w := w) (t := t) (s := s) hready
        have hle := hmeets.le hw
        have hfull' : Full t (a.run w t s place job rest).1 := by
          rw [Full, hwaiting, hbegun]
          exact hfull
        have hfuel' : 2 * (records.length * (2 * UInt32.size + 2) - m) +
            (a.run w t s place job rest).1.resting.length < fuel := by
          omega
        exact ih hfuel' hmeets hfull'
      · next hready =>
        split
        · next a' hawake =>
          -- no step, but one call less that rests
          obtain ⟨hwaiting, hbegun, hresting⟩ := awake?_frame hawake
          exact ih (by omega) (h.awake hawake) (by rw [Full, hwaiting, hbegun]; exact hfull)
        · next hawake =>
          obtain ⟨b, hrun, hagrees⟩ := h
          exact ⟨n, b, hrun, hagrees.done (hrun.orderly hw).1 hfull htake hready hawake, hagrees⟩

/-- The fuel is a large number, so what the batch is worked off to is not to be unfolded. -/
theorem put_eq (w : World σ) (t : Delivery) (s : Site σ) (records : List InboundRecord) :
    ∃ worked, Batch.workOff w t t.width ((records.length + 1) * (3 * Site.patience))
        ((Batch.of records).fill t.width) s = worked ∧
      s.put w t records = (⟨worked.1.taken.reverse, worked.1.now⟩, worked.2) :=
  ⟨_, rfl, rfl⟩

theorem put_done (hw : w.Answers outcome) (others : Broker Exchange → Broker Exchange → Prop)
    (records : List InboundRecord) (shared : Shared σ) :
    ∃ n b, Run w t others (.of records shared) n b ∧ b.Done ∧
      b.results = (shared.site.put w t records).1.results ∧
      b.shared.site = (shared.site.put w t records).2 := by
  have hstart : Meets w t others records shared 0 (.of records) shared.site :=
    meets_of records shared
  obtain ⟨m, -, hmeets⟩ := hstart.fill hw
  have hfuel : 2 * (records.length * (2 * UInt32.size + 2) - m) +
      ((Batch.of records).fill t.width).resting.length <
        (records.length + 1) * (3 * Site.patience) := by
    have hresting : ((Batch.of records).fill t.width).resting = [] := rfl
    simp only [hresting, List.length_nil, Site.patience, UInt32.size]
    omega
  obtain ⟨n, b, hrun, hdone, hagrees⟩ := workOff_done hw hfuel hmeets (full_fill t _)
  obtain ⟨worked, hworked, hput⟩ := put_eq w t shared.site records
  rw [hworked] at hagrees
  rw [hput]
  exact ⟨n, b, hrun, hdone, hagrees.taken, hagrees.site⟩

end Courier.Schedule
