import Mathlib.Data.List.Perm.Basic
import Courier.Proofs.Delivery.Landing

/-!
# Batches in any order

Whatever the order in which the calls of a batch go on, each record is begun once and its result
taken once, in record order, and what is published is what the calls published. No run goes on for
ever, and none stops before everything is done.
-/

namespace Courier.Schedule

variable {σ : Type} {w : World σ} {t : Delivery}
  {outcome : Request → UInt32 → Except TransportError Response}
  {others : Broker Exchange → Broker Exchange → Prop} {records : List InboundRecord}

-- ---------------------------------------------------------------------------
-- Offers among what others do
-- ---------------------------------------------------------------------------

namespace Offered

variable {α : Type} {others : Broker α → Broker α → Prop} {name : String} {start b : Broker α}
  {items : List α}

theorem foldl (h : Offered others name start items b) (more : List α) :
    Offered others name start (items ++ more) (more.foldl (fun b a => b.offer name a) b) := by
  induction more generalizing items b with
  | nil => exact (List.append_nil items).symm ▸ h
  | cons a more ih => exact List.append_cons items a more ▸ ih (h.offer a)

theorem eq_foldl (h : Offered others name start items b) (hothers : ∀ b b', others b b' → b' = b) :
    b = items.foldl (fun b a => b.offer name a) start := by
  induction h with
  | start => rfl
  | offer h a ih => rw [ih, List.foldl_append, List.foldl_cons, List.foldl_nil]
  | outside h hb ih => rw [hothers _ _ hb, ih]

theorem items_foldl (start : Broker α) (name : String) (items : List α) :
    ((items.foldl (fun b a => b.offer name a) start).mailbox name).items =
      (start.mailbox name).items ++ items := by
  induction items generalizing start with
  | nil => simp
  | cons a items ih => simp [ih]

theorem hasConsumer_eq {consumed : Bool} (h : Offered others name start items b)
    (hstart : start.hasConsumer name = consumed)
    (hothers : ∀ b b', others b b' → b.hasConsumer name = consumed →
      b'.hasConsumer name = consumed) : b.hasConsumer name = consumed := by
  induction h with
  | start => exact hstart
  | offer h a ih => exact ih
  | outside h hb ih => exact hothers _ _ hb ih

end Offered

-- ---------------------------------------------------------------------------
-- Places
-- ---------------------------------------------------------------------------

def placesFrom (records : List InboundRecord) (n : Nat) : List (Nat × InboundRecord) :=
  (records.zipIdx.map fun (record, place) => (place, record)).drop n

theorem placesFrom_eq_cons {n place : Nat} {record : InboundRecord}
    {rest : List (Nat × InboundRecord)} (h : placesFrom records n = (place, record) :: rest) :
    place = n ∧ records[n]? = some record ∧ rest = placesFrom records (n + 1) := by
  have hhead : (placesFrom records n)[0]? = some (place, record) := by rw [h]; rfl
  have htail : rest = placesFrom records (n + 1) := by
    rw [placesFrom, ← List.drop_drop, ← placesFrom, h]
    rfl
  simp only [placesFrom, List.getElem?_drop, List.getElem?_map, List.getElem?_zipIdx,
    Option.map_map, Option.map_eq_some_iff] at hhead
  obtain ⟨_, hrecord, heq⟩ := hhead
  simp only [Function.comp_apply, Prod.mk.injEq] at heq
  obtain ⟨rfl, rfl⟩ := heq
  exact ⟨by simp, hrecord, htail⟩

theorem length_placesFrom (records : List InboundRecord) (n : Nat) :
    (placesFrom records n).length = records.length - n := by
  simp [placesFrom]

-- ---------------------------------------------------------------------------
-- One step
-- ---------------------------------------------------------------------------

def Possible (t : Delivery) (others : Broker Exchange → Broker Exchange → Prop)
    (start : Broker Exchange) (b : Broker Exchange) : Prop :=
  ∃ items, Offered others t.settings.queueName start items b

variable [Pattern.Room] {start b b' : State σ}

/-- A batch at any time of a run. The places of calls under way are those that follow the taken
ones, and every call's account is that of the record of its place. -/
structure Orderly (w : World σ) (t : Delivery)
    (outcome : Request → UInt32 → Except TransportError Response)
    (others : Broker Exchange → Broker Exchange → Prop) (records : List InboundRecord)
    (start : Broker Exchange) (b : State σ) : Prop where
  waiting : b.waiting = placesFrom records (b.taken.length + b.begun)
  places : (b.flying.map (·.place) ++ b.landed.map (·.place)).Perm
    (List.range' b.taken.length b.begun)
  room : b.begun ≤ t.width
  known : b.taken.length + b.begun ≤ records.length
  flying : ∀ call ∈ b.flying, ∃ record, records[call.place]? = some record ∧
    Underway w t record outcome call.effects call.stage
  landed : ∀ call ∈ b.landed, ∃ record, records[call.place]? = some record ∧
    Over w t record outcome (Possible t others start) call.effects call.stage
  taken : ∀ (n : Nat) (call : Call (Except Rejection Exchange)), b.taken[n]? = some call →
    ∃ record, records[n]? = some record ∧
      Over w t record outcome (Possible t others start) call.effects call.stage
  offered : ∃ items, Offered others t.settings.queueName start items b.shared.site.broker ∧
    items.Perm ((b.landed ++ b.taken).flatMap fun call => published call.effects)

namespace Orderly

variable {start : Broker Exchange}

theorem of (records : List InboundRecord) (s : Shared σ) :
    Orderly w t outcome others records s.site.broker (.of records s) where
  waiting := rfl
  places := .refl _
  room := Nat.zero_le _
  known := Nat.zero_le _
  flying _ h := nomatch h
  landed _ h := nomatch h
  taken n call h := by simp [State.of] at h
  offered := ⟨[], .start, .refl _⟩

theorem begin {place : Nat} {record : InboundRecord} {waiting : List (Nat × InboundRecord)}
    (h : Orderly w t outcome others records start b) (hroom : b.begun < t.width)
    (hwaiting : b.waiting = (place, record) :: waiting) :
    Orderly w t outcome others records start
      { b with waiting, flying := ⟨place, [], .inl record⟩ :: b.flying } := by
  obtain ⟨rfl, hrecord, hrest⟩ := placesFrom_eq_cons (h.waiting.symm.trans hwaiting)
  have hbegun : State.begun { b with
      waiting, flying := ⟨b.taken.length + b.begun, [], .inl record⟩ :: b.flying } =
        b.begun + 1 := by
    simp only [State.begun, List.length_cons]
    omega
  refine { h with waiting := ?_, places := ?_, room := ?_, known := ?_, flying := ?_ }
  · rw [hbegun]
    exact hrest
  · rw [hbegun, List.range'_1_concat]
    exact (h.places.cons _).trans (List.perm_append_singleton _ _).symm
  · rw [hbegun]
    exact hroom
  · rw [hbegun]
    exact (List.getElem?_eq_some_iff.1 hrecord).1
  · intro call hcall
    rcases List.mem_cons.1 hcall with rfl | hcall
    · exact ⟨record, hrecord, .fresh⟩
    · exact h.flying call hcall

theorem called {call : Call (InboundRecord ⊕ Flight)}
    {rest : List (Call (InboundRecord ⊕ Flight))}
    (h : Orderly w t outcome others records start b) (hcall : b.flying.Perm (call :: rest)) :
    ∃ record, records[call.place]? = some record ∧
      Underway w t record outcome call.effects call.stage :=
  h.flying call (hcall.mem_iff.2 List.mem_cons_self)

theorem goes (hw : w.Answers outcome) {record : InboundRecord}
    {call : Call (InboundRecord ⊕ Flight)} {stretch : Stretch σ}
    (h : Orderly w t outcome others records start b)
    (hcall : Underway w t record outcome call.effects call.stage)
    (hrun : run w t b.shared call.stage = stretch) :
    Gets w t record outcome (Possible t others start) (call.effects ++ stretch.effects)
        stretch.leg ∧
      ∃ items, Offered others t.settings.queueName start (items ++ published stretch.effects)
          stretch.shared.site.broker ∧
        items.Perm ((b.landed ++ b.taken).flatMap fun call => published call.effects) := by
  obtain ⟨items, hoffered, hitems⟩ := h.offered
  have hbroker := broker_run (w := w) (t := t) b.shared call.stage
  rw [hrun] at hbroker
  refine ⟨hrun ▸ gets_run hw ⟨items, hoffered⟩ hcall, items, ?_, hitems⟩
  rw [hbroker]
  exact hoffered.foldl _

theorem wait (hw : w.Answers outcome) {call : Call (InboundRecord ⊕ Flight)}
    {rest : List (Call (InboundRecord ⊕ Flight))} {ms : Nat} {f : Flight}
    {effects : List Effect} {shared : Shared σ}
    (h : Orderly w t outcome others records start b) (hcall : b.flying.Perm (call :: rest))
    (hrun : run w t b.shared call.stage = ⟨.wait ms f, effects, shared⟩) :
    Orderly w t outcome others records start
      { b with shared, flying := ⟨call.place, call.effects ++ effects, .inr f⟩ :: rest } := by
  obtain ⟨record, hrecord, hunderway⟩ := h.called hcall
  obtain ⟨hgets, items, hoffered, hitems⟩ := h.goes hw hunderway hrun
  have hbegun : State.begun { b with
      shared, flying := ⟨call.place, call.effects ++ effects, .inr f⟩ :: rest } = b.begun := by
    simp only [State.begun, hcall.length_eq, List.length_cons]
  -- A call that waits has published nothing.
  have hnone : published effects = [] := by
    have heq := Underway.published_eq hgets
    rw [published_append] at heq
    exact (List.append_eq_nil_iff.1 heq).2
  refine { h with
    waiting := ?_, places := ?_, room := ?_, known := ?_, flying := ?_, offered := ?_ }
  · rw [hbegun]
    exact h.waiting
  · rw [hbegun]
    exact ((hcall.map (·.place)).append_right _).symm.trans h.places
  · rw [hbegun]
    exact h.room
  · rw [hbegun]
    exact h.known
  · intro other hother
    rcases List.mem_cons.1 hother with rfl | hother
    · exact ⟨record, hrecord, hgets⟩
    · exact h.flying other (hcall.mem_iff.2 (List.mem_cons_of_mem _ hother))
  · rw [hnone, List.append_nil] at hoffered
    exact ⟨items, hoffered, hitems⟩

theorem land (hw : w.Answers outcome) {call : Call (InboundRecord ⊕ Flight)}
    {rest : List (Call (InboundRecord ⊕ Flight))} {result : Except Rejection Exchange}
    {effects : List Effect} {shared : Shared σ}
    (h : Orderly w t outcome others records start b) (hcall : b.flying.Perm (call :: rest))
    (hrun : run w t b.shared call.stage = ⟨.landed result, effects, shared⟩) :
    Orderly w t outcome others records start
      { b with
        shared, flying := rest
        landed := ⟨call.place, call.effects ++ effects, result⟩ :: b.landed } := by
  obtain ⟨record, hrecord, hunderway⟩ := h.called hcall
  obtain ⟨hgets, items, hoffered, hitems⟩ := h.goes hw hunderway hrun
  have hbegun : State.begun { b with
      shared, flying := rest
      landed := ⟨call.place, call.effects ++ effects, result⟩ :: b.landed } = b.begun := by
    simp only [State.begun, hcall.length_eq, List.length_cons]
    omega
  refine { h with
    waiting := ?_, places := ?_, room := ?_, known := ?_, flying := ?_, landed := ?_,
    offered := ?_ }
  · rw [hbegun]
    exact h.waiting
  · rw [hbegun]
    exact List.perm_middle.trans
      (((hcall.map (·.place)).append_right _).symm.trans h.places)
  · rw [hbegun]
    exact h.room
  · rw [hbegun]
    exact h.known
  · intro other hother
    exact h.flying other (hcall.mem_iff.2 (List.mem_cons_of_mem _ hother))
  · intro other hother
    rcases List.mem_cons.1 hother with rfl | hother
    · exact ⟨record, hrecord, hgets⟩
    · exact h.landed other hother
  · refine ⟨_, hoffered, ?_⟩
    simp only [List.cons_append, List.flatMap_cons, published_append, hunderway.published_eq,
      List.nil_append]
    exact (hitems.append_right _).trans List.perm_append_comm

theorem take {call : Call (Except Rejection Exchange)}
    {landed : List (Call (Except Rejection Exchange))}
    (h : Orderly w t outcome others records start b) (hcall : b.landed.Perm (call :: landed))
    (hplace : call.place = b.taken.length) :
    Orderly w t outcome others records start
      { b with landed, taken := b.taken ++ [call] } := by
  have hbegun : State.begun { b with landed, taken := b.taken ++ [call] } + 1 = b.begun := by
    simp only [State.begun, hcall.length_eq, List.length_cons]
    omega
  have htaken : (b.taken ++ [call]).length = b.taken.length + 1 := List.length_append
  have hsum : b.taken.length + b.begun = (b.taken ++ [call]).length +
      State.begun { b with landed, taken := b.taken ++ [call] } := by
    omega
  obtain ⟨record, hrecord, hover⟩ := h.landed call (hcall.mem_iff.2 List.mem_cons_self)
  refine { h with
    waiting := ?_, places := ?_, room := ?_, known := ?_, landed := ?_, taken := ?_,
    offered := ?_ }
  · exact h.waiting.trans (congrArg _ hsum)
  · -- the place of the result is the first of those under way
    have hplaces := ((hcall.map (·.place)).append_left _).symm.trans h.places
    rw [← hbegun, List.range'_succ, List.map_cons, hplace] at hplaces
    have hrest := (List.perm_cons _).1 (List.perm_middle.symm.trans hplaces)
    rw [htaken]
    exact hrest
  · have := h.room
    omega
  · exact hsum ▸ h.known
  · intro other hother
    exact h.landed other (hcall.mem_iff.2 (List.mem_cons_of_mem _ hother))
  · intro n other hother
    rcases Nat.lt_trichotomy n b.taken.length with hlt | rfl | hgt
    · rw [List.getElem?_append_left hlt] at hother
      exact h.taken n other hother
    · rw [List.getElem?_concat_length] at hother
      cases hother
      exact ⟨record, hplace ▸ hrecord, hover⟩
    · rw [List.getElem?_eq_none (by rw [htaken]; omega)] at hother
      cases hother
  · obtain ⟨items, hoffered, hitems⟩ := h.offered
    refine ⟨items, hoffered, hitems.trans ?_⟩
    have hperm : (b.landed ++ b.taken).Perm (landed ++ (b.taken ++ [call])) := by
      refine (hcall.append_right _).trans ?_
      rw [← List.append_assoc]
      exact (List.perm_append_singleton _ _).symm
    exact hperm.flatMap_right _

theorem outside {shared : Shared σ} (h : Orderly w t outcome others records start b)
    (hothers : others b.shared.site.broker shared.site.broker) :
    Orderly w t outcome others records start { b with shared } := by
  obtain ⟨items, hoffered, hitems⟩ := h.offered
  exact { h with offered := ⟨items, hoffered.outside hothers, hitems⟩ }

theorem step (hw : w.Answers outcome) (h : Orderly w t outcome others records start b)
    (hstep : Step w t b b') : Orderly w t outcome others records start b' := by
  cases hstep with
  | begin hroom hwaiting => exact h.begin hroom hwaiting
  | wait hcall hrun => exact h.wait hw hcall hrun
  | land hcall hrun => exact h.land hw hcall hrun
  | take hcall hplace => exact h.take hcall hplace

end Orderly

-- ---------------------------------------------------------------------------
-- Progress
-- ---------------------------------------------------------------------------

/-- More steps than are left of a batch. -/
def stepsLeft (b : State σ) : Nat :=
  b.waiting.length * (2 * UInt32.size + 2) + (b.flying.map fun call => left call.stage).sum +
    b.landed.length

theorem stepsLeft_of (records : List InboundRecord) (s : Shared σ) :
    stepsLeft (.of records s) = records.length * (2 * UInt32.size + 2) := by
  simp [stepsLeft, State.of]

omit [Pattern.Room] in
theorem sum_left_perm {call : Call (InboundRecord ⊕ Flight)}
    {flying rest : List (Call (InboundRecord ⊕ Flight))} (h : flying.Perm (call :: rest)) :
    (flying.map fun call => left call.stage).sum =
      left call.stage + (rest.map fun call => left call.stage).sum := by
  rw [(h.map _).sum_nat, List.map_cons, List.sum_cons]

namespace Orderly

variable {start : Broker Exchange}

theorem stepsLeft_lt (hw : w.Answers outcome) (h : Orderly w t outcome others records start b)
    (hstep : Step w t b b') : stepsLeft b' < stepsLeft b := by
  cases hstep with
  | begin hroom hwaiting =>
    simp only [stepsLeft, hwaiting, List.length_cons, List.map_cons, List.sum_cons, left,
      Nat.succ_mul]
    omega
  | wait hcall hrun =>
    obtain ⟨record, -, hunderway⟩ := h.called hcall
    have hlt := @leftOf_run_lt _ w t record outcome _ _ b.shared hw _ hunderway
    rw [hrun] at hlt
    simp only [leftOf] at hlt
    simp only [stepsLeft, sum_left_perm hcall, List.map_cons, List.sum_cons]
    omega
  | land hcall hrun =>
    obtain ⟨record, -, hunderway⟩ := h.called hcall
    have hlt := @leftOf_run_lt _ w t record outcome _ _ b.shared hw _ hunderway
    rw [hrun] at hlt
    simp only [leftOf] at hlt
    simp only [stepsLeft, sum_left_perm hcall, List.length_cons]
    omega
  | take hcall hplace =>
    simp only [stepsLeft, hcall.length_eq, List.length_cons]
    omega

theorem mem_places (h : Orderly w t outcome others records start b) (hflying : b.flying = [])
    (hlanded : b.landed ≠ []) : b.taken.length ∈ b.landed.map (·.place) := by
  have hplaces := h.places
  rw [hflying] at hplaces
  refine hplaces.mem_iff.2 (List.mem_range'_1.2 ⟨Nat.le_refl _, ?_⟩)
  have hpos := List.length_pos_iff.2 hlanded
  simp only [State.begun]
  omega

/-- As long as something is left to do, it can be done. -/
theorem progress (h : Orderly w t outcome others records start b) (hleft : ¬ b.Done) :
    ∃ b', Step w t b b' := by
  match hflying : b.flying, hlanded : b.landed with
  | call :: rest, _ =>
    have hcall : b.flying.Perm (call :: rest) := hflying ▸ .refl _
    match hrun : run w t b.shared call.stage with
    | ⟨.wait ms f, effects, shared⟩ => exact ⟨_, .wait hcall hrun⟩
    | ⟨.landed result, effects, shared⟩ => exact ⟨_, .land hcall hrun⟩
  | [], first :: rest =>
    have hmem := h.mem_places hflying (hlanded ▸ List.cons_ne_nil first rest)
    obtain ⟨call, hcall, hplace⟩ := List.mem_map.1 hmem
    obtain ⟨before, after, heq⟩ := List.append_of_mem hcall
    exact ⟨_, .take (heq ▸ List.perm_middle) hplace⟩
  | [], [] =>
    have hroom : b.begun < t.width := by
      simp only [State.begun, hflying, hlanded, List.length_nil, Delivery.width]
      omega
    match hwaiting : b.waiting with
    | (place, record) :: waiting => exact ⟨_, .begin hroom hwaiting⟩
    | [] => exact absurd ⟨hwaiting, hflying, hlanded⟩ hleft

theorem length_taken (h : Orderly w t outcome others records start b) (hdone : b.Done) :
    b.taken.length = records.length := by
  have hbegun : b.begun = 0 := by simp [State.begun, hdone.2.1, hdone.2.2]
  have hwaiting := congrArg List.length h.waiting
  rw [hdone.1, hbegun, length_placesFrom] at hwaiting
  have hknown := h.known
  simp only [List.length_nil] at hwaiting
  omega

end Orderly

/-- What holds at any time of a run, and how many steps it can have had. -/
theorem Run.orderly (hw : w.Answers outcome) {s : Shared σ} {n : Nat}
    (h : Run w t others (.of records s) n b) :
    Orderly w t outcome others records s.site.broker b ∧
      n + stepsLeft b ≤ records.length * (2 * UInt32.size + 2) := by
  induction h with
  | start => exact ⟨.of records s, by rw [stepsLeft_of, Nat.zero_add]⟩
  | step hrun hstep ih =>
    have hlt := ih.1.stepsLeft_lt hw hstep
    exact ⟨ih.1.step hw hstep, by omega⟩
  | outside hrun hothers ih => exact ⟨ih.1.outside hothers, ih.2⟩

end Courier.Schedule
