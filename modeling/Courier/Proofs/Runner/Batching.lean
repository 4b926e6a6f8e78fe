import Courier.Runner.Session

/-!
# Batches of a run

Lines become records one by one, records fill a tray, and a full tray is run. Between two lines
the tray is never full, so every batch that is run for being full has exactly the size of the tray,
and what is in the tray at the end is the rest. An input that ends well has its rest run before the
relay hears that nothing more comes.
-/

namespace Courier.Runner

variable {σ : Type}

-- ---------------------------------------------------------------------------
-- Batches that are worked off
-- ---------------------------------------------------------------------------

section

variable [Pattern.Room]

/-- Batches are handed to the delivery one after the other, and behind each the relay gives out what
it finds. Says nothing of how a run goes about it. -/
inductive Session.WorksOff : Session σ → List (List InboundRecord) → List OutboundRecord →
    Session σ → Prop where
  | nothing (s : Session σ) : WorksOff s [] [] s
  | put {s next last : Session σ} {batch : List InboundRecord}
      {rest : List (List InboundRecord)} {out more : List OutboundRecord} {result : PutResult}
      {site : Site σ} (hput : s.site.put s.world s.delivery batch = (result, site))
      (hout : ({ s with site } : Session σ).giveOut Relay.follow = (out, next))
      (hrest : WorksOff next rest more last) : WorksOff s (batch :: rest) (out ++ more) last

theorem Session.worksOff_runBatches (s : Session σ) (batches : List (List InboundRecord)) :
    s.WorksOff batches (s.runBatches batches).1 (s.runBatches batches).2 := by
  induction batches generalizing s with
  | nil => exact .nothing s
  | cons batch batches ih => exact .put rfl rfl (ih _)

theorem run_worksOff {setting : Setting} {worldOf : Settings → Wire.Client → World σ}
    {outside : σ} {o : Options} {s : Session σ} (h : prepare setting worldOf outside = .ok (o, s))
    (input : Bytes) :
    let i := Intake.ofBytes o.batchSize.toNat input
    ∃ out last, s.WorksOff i.batches out last ∧
      run setting worldOf outside input =
        if i.ended then ⟨.success, (out ++ (last.giveOut Relay.drain).1).map OutboundRecord.text⟩
        else ⟨.failure, out.map OutboundRecord.text⟩ := by
  refine ⟨_, _, s.worksOff_runBatches _, ?_⟩
  simp only [run, h]
  rfl

end

-- ---------------------------------------------------------------------------
-- One line
-- ---------------------------------------------------------------------------

def Tray.Open (t : Tray) : Prop :=
  t.records.length < max t.size 1

theorem Tray.add_eq (t : Tray) (line : String) :
    t.add line =
      if max t.size 1 ≤ (t.records ++ (recordOf? line).toList).length then
        (some (t.records ++ (recordOf? line).toList), { t with records := [] })
      else (none, { t with records := t.records ++ (recordOf? line).toList }) := by
  cases h : recordOf? line <;> simp [add, h]

theorem Tray.add_cases {t : Tray} (h : t.Open) (line : String) :
    (∃ t' : Tray, t.add line = (none, t') ∧ t'.Open ∧ t'.size = t.size ∧
      t'.records = t.records ++ (recordOf? line).toList) ∨
    ∃ batch, t.add line = (some batch, { t with records := [] }) ∧
      batch.length = max t.size 1 ∧ batch = t.records ++ (recordOf? line).toList := by
  have hlength : (t.records ++ (recordOf? line).toList).length ≤ max t.size 1 := by
    have hroom : t.records.length < max t.size 1 := h
    have hone : (recordOf? line).toList.length ≤ 1 := by cases recordOf? line <;> simp
    rw [List.length_append]
    omega
  rw [t.add_eq line]
  split
  · next hfull => exact .inr ⟨_, rfl, Nat.le_antisymm hlength hfull, rfl⟩
  · next hroom => exact .inl ⟨_, rfl, Nat.lt_of_not_le hroom, rfl, rfl⟩

theorem Tray.add_of_none {t : Tray} (h : t.Open) {line : String} (hline : recordOf? line = none) :
    t.add line = (none, t) := by
  rw [t.add_eq line, hline, Option.toList_none, List.append_nil]
  exact if_neg (Nat.not_le_of_lt h)

theorem Tray.open_empty (t : Tray) : Open { t with records := [] } :=
  Nat.lt_of_lt_of_le Nat.zero_lt_one (Nat.le_max_right _ _)

-- ---------------------------------------------------------------------------
-- All lines
-- ---------------------------------------------------------------------------

namespace Intake

/-- An intake that cuts up the given records: full batches and what is left. -/
structure Cuts (size : Nat) (records : List InboundRecord) (i : Intake) : Prop where
  full : ∀ batch ∈ i.full, batch.length = max size 1
  rest : i.rest.length < max size 1
  all : i.full.flatten ++ i.rest = records

theorem ended_ofLines (t : Tray) (lines : List (Option String)) :
    (ofLines t lines).ended = true ↔ ∀ line ∈ lines, line.isSome = true := by
  induction lines generalizing t with
  | nil => simp [ofLines]
  | cons line lines ih =>
    cases line with
    | none => simp [ofLines]
    | some line =>
      have hlater : ∀ t', (ofLines t' lines).ended = true ↔
          ∀ l ∈ some line :: lines, l.isSome = true := fun t' => by simp [ih t']
      simp only [ofLines]
      split <;> exact hlater _

variable {size : Nat} {records : List InboundRecord} {i : Intake}

theorem batches_cases (i : Intake) :
    (i.batches = i.full ∧ (i.ended = true → i.rest = [])) ∨
      (i.batches = i.full ++ [i.rest] ∧ i.rest ≠ []) := by
  cases hended : i.ended with
  | false => simp [batches, hended]
  | true => cases hrest : i.rest <;> simp [batches, hended, hrest]

/-- No batch is empty, and only the last one may fall short. -/
theorem Cuts.batches (h : Cuts size records i) :
    (∀ b ∈ i.batches, b ≠ [] ∧ b.length ≤ max size 1) ∧
      ∀ b ∈ i.batches.dropLast, b.length = max size 1 := by
  have hfull : ∀ b ∈ i.full, b ≠ [] ∧ b.length ≤ max size 1 := by
    intro b hb
    have hlength := h.full b hb
    refine ⟨fun hnil => ?_, Nat.le_of_eq hlength⟩
    rw [hnil, List.length_nil] at hlength
    have := Nat.le_max_right size 1
    omega
  rcases i.batches_cases with ⟨hb, -⟩ | ⟨hb, hne⟩
  · rw [hb]
    exact ⟨hfull, fun b hmem => h.full b (List.dropLast_subset _ hmem)⟩
  · rw [hb, List.dropLast_concat]
    refine ⟨fun b hmem => ?_, h.full⟩
    rcases List.mem_append.1 hmem with hmem | hmem
    · exact hfull b hmem
    · rw [List.mem_singleton.1 hmem]
      exact ⟨hne, Nat.le_of_lt h.rest⟩

end Intake

end Courier.Runner
