import Courier.Pattern.Regex

/-!
# Matching

The table of ends holds exactly the stretches that an expression covers. The bounds of every
repetition must be in order for this. More rounds than the text has characters never help, because
one of them covers nothing and can be left out or repeated.
-/

namespace Courier.Pattern.Regex

variable {text : List Char} {r a b : Regex} {i j k n m : Nat}

def Ordered : Regex → Prop
  | .concat a b => a.Ordered ∧ b.Ordered
  | .either a b => a.Ordered ∧ b.Ordered
  | .times r least most => r.Ordered ∧ ∀ n ∈ most, least ≤ n
  | _ => True

def Covers (r : Regex) (text : List Char) : Prop :=
  Matches text r 0 text.length

-- ---------------------------------------------------------------------------
-- Stretches
-- ---------------------------------------------------------------------------

theorem matches_empty : Matches text .empty i j ↔ i = j := by
  constructor
  · rintro ⟨⟩
    rfl
  · rintro rfl
    exact .empty

theorem matches_set {has : Char → Bool} :
    Matches text (.set has) i j ↔ ∃ c, text[i]? = some c ∧ has c = true ∧ j = i + 1 := by
  constructor
  · rintro (_ | ⟨hc, hhas⟩)
    exact ⟨_, hc, hhas, rfl⟩
  · rintro ⟨c, hc, hhas, rfl⟩
    exact .set hc hhas

theorem matches_look {holds : Option Char → Option Char → Bool} :
    Matches text (.look holds) i j ↔ holds (before text i) text[i]? = true ∧ i = j := by
  constructor
  · rintro (_ | _ | h)
    exact ⟨h, rfl⟩
  · rintro ⟨h, rfl⟩
    exact .look h

theorem matches_concat :
    Matches text (.concat a b) i k ↔ ∃ j, Matches text a i j ∧ Matches text b j k := by
  constructor
  · rintro (_ | _ | _ | ⟨ha, hb⟩)
    exact ⟨_, ha, hb⟩
  · rintro ⟨j, ha, hb⟩
    exact .concat ha hb

theorem matches_either :
    Matches text (.either a b) i j ↔ Matches text a i j ∨ Matches text b i j := by
  constructor
  · intro h
    cases h with
    | left h => exact .inl h
    | right h => exact .inr h
  · rintro (h | h)
    · exact .left h
    · exact .right h

theorem matches_times {least : Nat} {most : Option Nat} :
    Matches text (.times r least most) i j ↔
      ∃ n, least ≤ n ∧ (∀ m ∈ most, n ≤ m) ∧ Rounds text r n i j := by
  constructor
  · intro h
    cases h with
    | times hl hm hr => exact ⟨_, hl, hm, hr⟩
  · rintro ⟨n, hl, hm, hr⟩
    exact .times hl hm hr

theorem rounds_zero : Rounds text r 0 i j ↔ i = j := by
  constructor
  · rintro ⟨⟩
    rfl
  · rintro rfl
    exact .done

theorem rounds_succ :
    Rounds text r (n + 1) i k ↔ ∃ j, Matches text r i j ∧ Rounds text r n j k := by
  constructor
  · intro h
    cases h with
    | more first rest => exact ⟨_, first, rest⟩
  · rintro ⟨j, first, rest⟩
    exact .more first rest

theorem rounds_add :
    Rounds text r (m + n) i k ↔ ∃ j, Rounds text r m i j ∧ Rounds text r n j k := by
  induction m generalizing i with
  | zero => simp [rounds_zero]
  | succ m ih =>
    rw [Nat.add_right_comm, rounds_succ]
    simp only [ih, rounds_succ]
    constructor
    · rintro ⟨l, first, j, rest, last⟩
      exact ⟨j, ⟨l, first, rest⟩, last⟩
    · rintro ⟨j, ⟨l, first, rest⟩, last⟩
      exact ⟨l, first, j, rest, last⟩

theorem Matches.bounds (h : Matches text r i j) (hi : i ≤ text.length) :
    i ≤ j ∧ j ≤ text.length := by
  induction r generalizing i j with
  | empty =>
    cases matches_empty.1 h
    exact ⟨Nat.le_refl i, hi⟩
  | set has =>
    obtain ⟨c, hc, -, rfl⟩ := matches_set.1 h
    exact ⟨Nat.le_succ i, (List.getElem?_eq_some_iff.1 hc).1⟩
  | look holds =>
    obtain ⟨-, rfl⟩ := matches_look.1 h
    exact ⟨Nat.le_refl i, hi⟩
  | concat a b iha ihb =>
    obtain ⟨k, ha, hb⟩ := matches_concat.1 h
    obtain ⟨hik, hk⟩ := iha ha hi
    obtain ⟨hkj, hj⟩ := ihb hb hk
    exact ⟨Nat.le_trans hik hkj, hj⟩
  | either a b iha ihb =>
    rcases matches_either.1 h with ha | hb
    · exact iha ha hi
    · exact ihb hb hi
  | times r least most ih =>
    obtain ⟨n, -, -, hr⟩ := matches_times.1 h
    clear h
    induction n generalizing i with
    | zero =>
      cases rounds_zero.1 hr
      exact ⟨Nat.le_refl _, hi⟩
    | succ n ihn =>
      obtain ⟨k, first, rest⟩ := rounds_succ.1 hr
      obtain ⟨hik, hk⟩ := ih first hi
      obtain ⟨hkj, hj⟩ := ihn hk rest
      exact ⟨Nat.le_trans hik hkj, hj⟩

theorem Rounds.bounds (h : Rounds text r n i j) (hi : i ≤ text.length) :
    i ≤ j ∧ j ≤ text.length :=
  Matches.bounds (.times (Nat.le_refl n) (by simp) h : Matches text (.times r n none) i j) hi

-- ---------------------------------------------------------------------------
-- Rounds that cover nothing
-- ---------------------------------------------------------------------------

/-- With more rounds than characters one round covers nothing: it can be repeated. -/
theorem Rounds.grow (h : Rounds text r n i j) (hi : i ≤ text.length) (hn : j - i < n) :
    Rounds text r (n + 1) i j := by
  induction n generalizing i with
  | zero => exact absurd hn (Nat.not_lt_zero _)
  | succ n ih =>
    obtain ⟨k, first, rest⟩ := rounds_succ.1 h
    obtain ⟨hik, hk⟩ := first.bounds hi
    rcases Nat.eq_or_lt_of_le hik with rfl | hlt
    · exact .more first h
    · have hkj := (rest.bounds hk).1
      exact .more first (ih rest hk (by omega))

theorem Rounds.shrink (h : Rounds text r (n + 1) i j) (hi : i ≤ text.length) (hn : j - i ≤ n) :
    Rounds text r n i j := by
  induction n generalizing i with
  | zero =>
    obtain ⟨k, first, rest⟩ := rounds_succ.1 h
    cases rounds_zero.1 rest
    have hik := (first.bounds hi).1
    exact rounds_zero.2 (by omega)
  | succ n ih =>
    obtain ⟨k, first, rest⟩ := rounds_succ.1 h
    obtain ⟨hik, hk⟩ := first.bounds hi
    rcases Nat.eq_or_lt_of_le hik with rfl | hlt
    · exact rest
    · have hkj := (rest.bounds hk).1
      exact .more first (ih rest hk (by omega))

/-- So a number of rounds that is beyond the length of the text is as good as the next one. -/
theorem rounds_min (hi : i ≤ text.length) :
    Rounds text r (min n (text.length + 1)) i j ↔ Rounds text r n i j := by
  induction n with
  | zero => simp
  | succ n ih =>
    rcases Nat.lt_or_ge n (text.length + 1) with hlt | hge
    · rw [Nat.min_eq_left hlt]
    · rw [Nat.min_eq_right (Nat.le_succ_of_le hge), ← Nat.min_eq_right hge, ih]
      constructor
      · intro h
        have hj := (h.bounds hi).2
        exact h.grow hi (by omega)
      · intro h
        have hj := (h.bounds hi).2
        exact h.shrink hi (by omega)

-- ---------------------------------------------------------------------------
-- Places
-- ---------------------------------------------------------------------------

theorem entry_tabulate (f : Nat → List Nat) (hi : i ≤ text.length) :
    entry (tabulate text f) i = f i := by
  simp [entry, tabulate, List.getElem?_range (Nat.lt_succ_of_le hi)]

theorem mem_follow {step : Nat → List Nat} {places : List Nat} :
    j ∈ follow step places ↔ ∃ i ∈ places, j ∈ step i := by
  simp [follow, List.mem_eraseDups]

def Follows (text : List Char) (r : Regex) (step : Nat → List Nat) : Prop :=
  ∀ i ≤ text.length, ∀ j, j ∈ step i ↔ Matches text r i j

section
variable {step : Nat → List Nat} {places : List Nat} (hstep : Follows text r step)
include hstep

theorem mem_follow_iff (hp : ∀ i ∈ places, i ≤ text.length) :
    j ∈ follow step places ↔ ∃ i ∈ places, Matches text r i j := by
  rw [mem_follow]
  constructor
  · rintro ⟨i, hi, hj⟩
    exact ⟨i, hi, (hstep i (hp i hi) j).1 hj⟩
  · rintro ⟨i, hi, hj⟩
    exact ⟨i, hi, (hstep i (hp i hi) j).2 hj⟩

theorem follow_bounds (hp : ∀ i ∈ places, i ≤ text.length) :
    ∀ j ∈ follow step places, j ≤ text.length := by
  intro j hj
  obtain ⟨i, hi, hm⟩ := (mem_follow_iff hstep hp).1 hj
  exact (hm.bounds (hp i hi)).2

theorem mem_rounds_iff (hp : ∀ i ∈ places, i ≤ text.length) :
    j ∈ rounds step n places ↔ ∃ i ∈ places, Rounds text r n i j := by
  induction n generalizing places with
  | zero => simp [rounds, rounds_zero]
  | succ n ih =>
    rw [rounds, ih (follow_bounds hstep hp)]
    simp only [mem_follow_iff hstep hp, rounds_succ]
    constructor
    · rintro ⟨k, ⟨i, hi, first⟩, rest⟩
      exact ⟨i, hi, k, first, rest⟩
    · rintro ⟨i, hi, k, first, rest⟩
      exact ⟨k, ⟨i, hi, first⟩, rest⟩

theorem mem_roundsUpTo_iff (hp : ∀ i ∈ places, i ≤ text.length) :
    j ∈ roundsUpTo step n places ↔ ∃ i ∈ places, ∃ m ≤ n, Rounds text r m i j := by
  induction n generalizing places with
  | zero => simp [roundsUpTo, rounds_zero]
  | succ n ih =>
    have hmore : ∀ k ∈ (places ++ follow step places).eraseDups, k ≤ text.length := by
      intro k hk
      rcases List.mem_append.1 (List.mem_eraseDups.1 hk) with hk | hk
      · exact hp k hk
      · exact follow_bounds hstep hp k hk
    rw [roundsUpTo, ih hmore]
    simp only [List.mem_eraseDups, List.mem_append, mem_follow_iff hstep hp]
    constructor
    · rintro ⟨k, hk | ⟨i, hi, first⟩, m, hm, rest⟩
      · exact ⟨k, hk, m, Nat.le_succ_of_le hm, rest⟩
      · exact ⟨i, hi, m + 1, Nat.succ_le_succ hm, .more first rest⟩
    · rintro ⟨i, hi, m, hm, h⟩
      cases m with
      | zero => exact ⟨i, .inl hi, 0, Nat.zero_le n, h⟩
      | succ m =>
        obtain ⟨k, first, rest⟩ := rounds_succ.1 h
        exact ⟨k, .inr ⟨i, hi, first⟩, m, Nat.le_of_succ_le_succ hm, rest⟩

/-- Rounds that are needed, and after them further ones, none beyond the length of the text. -/
theorem mem_times_iff {least further : Nat} {most : Option Nat} (hi : i ≤ text.length)
    (allowed : ∀ q ≤ further, ∀ m ∈ most, least + q ≤ m)
    (enough : ∀ q, (∀ m ∈ most, least + q ≤ m) → min q (text.length + 1) ≤ further) :
    j ∈ roundsUpTo step further (rounds step (min least (text.length + 1)) [i]) ↔
      Matches text (.times r least most) i j := by
  have hone : ∀ k ∈ [i], k ≤ text.length := by simpa using hi
  have hplaces : ∀ k ∈ rounds step (min least (text.length + 1)) [i], k ≤ text.length := by
    intro k hk
    obtain ⟨l, hl, hr⟩ := (mem_rounds_iff hstep hone).1 hk
    exact (hr.bounds (hone l hl)).2
  rw [mem_roundsUpTo_iff hstep hplaces, matches_times]
  simp only [mem_rounds_iff hstep hone, List.mem_singleton, exists_eq_left, rounds_min hi]
  constructor
  · rintro ⟨k, first, q, hq, rest⟩
    exact ⟨least + q, Nat.le_add_right least q, allowed q hq, rounds_add.2 ⟨k, first, rest⟩⟩
  · rintro ⟨n, hl, hmost, h⟩
    obtain ⟨q, rfl⟩ := Nat.exists_eq_add_of_le hl
    obtain ⟨k, first, rest⟩ := rounds_add.1 h
    have hk := (first.bounds hi).2
    exact ⟨k, first, min q (text.length + 1), enough q hmost, (rounds_min hk).2 rest⟩

end

-- ---------------------------------------------------------------------------
-- The table of ends
-- ---------------------------------------------------------------------------

theorem length_ends (text : List Char) (r : Regex) : (ends text r).length = text.length + 1 := by
  cases r <;> simp [ends, tabulate]

theorem mem_ends_iff (h : r.Ordered) (hi : i ≤ text.length) :
    j ∈ entry (ends text r) i ↔ Matches text r i j := by
  induction r generalizing i j with
  | empty =>
    rw [ends, entry_tabulate _ hi, matches_empty, List.mem_singleton, eq_comm]
  | set has =>
    rw [ends, entry_tabulate _ hi, matches_set]
    cases hc : text[i]? with
    | none => simp
    | some c => by_cases hhas : has c = true <;> simp [hhas]
  | look holds =>
    rw [ends, entry_tabulate _ hi, matches_look]
    by_cases hl : holds (before text i) text[i]? = true
    · simp [hl, eq_comm]
    · simp [hl]
  | concat a b iha ihb =>
    rw [ends, entry_tabulate _ hi, mem_follow, matches_concat]
    simp only [iha h.1 hi]
    constructor
    · rintro ⟨k, ha, hb⟩
      exact ⟨k, ha, (ihb h.2 (ha.bounds hi).2).1 hb⟩
    · rintro ⟨k, ha, hb⟩
      exact ⟨k, ha, (ihb h.2 (ha.bounds hi).2).2 hb⟩
  | either a b iha ihb =>
    rw [ends, entry_tabulate _ hi, matches_either, List.mem_eraseDups, List.mem_append,
      iha h.1 hi, ihb h.2 hi]
  | times r least most ih =>
    have hstep : Follows text r (entry (ends text r)) := fun k hk l => ih h.1 hk
    cases most with
    | none =>
      rw [ends, entry_tabulate _ hi]
      exact mem_times_iff hstep hi (by simp) fun q _ => Nat.min_le_right _ _
    | some m =>
      have hlm : least ≤ m := h.2 m rfl
      rw [ends, entry_tabulate _ hi]
      refine mem_times_iff hstep hi ?_ ?_
      · rintro q hq _ ⟨⟩
        omega
      · intro q hq
        have hqm := hq m rfl
        omega

theorem occurs_iff (h : r.Ordered) :
    r.occurs text = true ↔ ∃ i j, i ≤ text.length ∧ Matches text r i j := by
  rw [occurs, List.any_eq_true]
  constructor
  · rintro ⟨places, hplaces, hne⟩
    obtain ⟨i, hi, rfl⟩ := List.mem_iff_getElem.1 hplaces
    have hle : i ≤ text.length := by
      rw [length_ends] at hi
      omega
    obtain ⟨j, hj⟩ := List.exists_mem_of_ne_nil _ (by simpa using hne)
    refine ⟨i, j, hle, (mem_ends_iff h hle).1 ?_⟩
    simpa [entry, hi] using hj
  · rintro ⟨i, j, hi, hm⟩
    have hlt : i < (ends text r).length := by
      rw [length_ends]
      omega
    have hj := (mem_ends_iff h hi).2 hm
    simp only [entry, List.getElem?_eq_getElem hlt, Option.getD_some] at hj
    refine ⟨_, List.getElem_mem hlt, ?_⟩
    simpa using List.ne_nil_of_mem hj

end Courier.Pattern.Regex
