import Courier.Json.Value

/-!
# Sorting members

Sorting puts names in ascending order. Where no name stands twice, that is all it changes: every
name leads to the same value as before.
-/

namespace Courier.Json.Value

variable {β γ : Type} {m : String × β} {ms ns : List (String × β)}

theorem insertMember_perm (h : m.1 ∉ ms.map Prod.fst) : (insertMember m ms).Perm (m :: ms) := by
  induction ms with
  | nil => exact .refl _
  | cons first rest ih =>
    rw [List.map_cons, List.mem_cons, not_or] at h
    rw [insertMember, if_neg h.1]
    split
    · exact .refl _
    · exact ((ih h.2).cons first).trans (.swap m first rest)

theorem foldl_insertMember_perm (h : ((ns ++ ms).map Prod.fst).Nodup) :
    (ms.foldl (fun sorted m => insertMember m sorted) ns).Perm (ns ++ ms) := by
  induction ms generalizing ns with
  | nil => simp
  | cons m ms ih =>
    -- The entry taken next is new to those already sorted.
    have moved : (m :: ns ++ ms).Perm (ns ++ m :: ms) := List.perm_middle.symm
    have fresh : m.1 ∉ ns.map Prod.fst := by
      have := ((moved.map Prod.fst).nodup_iff).2 h
      rw [List.cons_append, List.map_cons, List.nodup_cons, List.map_append, List.mem_append,
        not_or] at this
      exact this.1.1
    have inserted : (insertMember m ns ++ ms).Perm (m :: ns ++ ms) :=
      (insertMember_perm fresh).append_right ms
    have nodup : ((insertMember m ns ++ ms).map Prod.fst).Nodup :=
      (((inserted.trans moved).map Prod.fst).nodup_iff).2 h
    exact (ih nodup).trans (inserted.trans moved)

theorem sortMembers_perm (h : (ms.map Prod.fst).Nodup) : (sortMembers ms).Perm ms :=
  foldl_insertMember_perm h

theorem nodup_sortMembers (h : (ms.map Prod.fst).Nodup) :
    ((sortMembers ms).map Prod.fst).Nodup :=
  (((sortMembers_perm h).map Prod.fst).nodup_iff).2 h

theorem lookup_eq_of_perm (hp : ms.Perm ns) (h : (ms.map Prod.fst).Nodup) (name : String) :
    ms.lookup name = ns.lookup name := by
  induction hp with
  | nil => rfl
  | cons m _ ih =>
    obtain ⟨key, v⟩ := m
    rw [List.map_cons, List.nodup_cons] at h
    rw [List.lookup_cons, List.lookup_cons, ih h.2]
  | swap a b rest =>
    obtain ⟨key, v⟩ := a
    obtain ⟨other, w⟩ := b
    simp only [List.map_cons, List.nodup_cons, List.mem_cons, not_or] at h
    have hne : other ≠ key := h.1.1
    simp only [List.lookup_cons]
    cases hother : name == other with
    | false => rfl
    | true =>
      rw [beq_iff_eq] at hother
      have hkey : (name == key) = false := beq_eq_false_iff_ne.2 (hother ▸ hne)
      simp only [hkey]
  | trans hp _ ih₁ ih₂ => exact (ih₁ h).trans (ih₂ (((hp.map Prod.fst).nodup_iff).1 h))

theorem lookup_sortMembers (h : (ms.map Prod.fst).Nodup) (name : String) :
    (sortMembers ms).lookup name = ms.lookup name :=
  lookup_eq_of_perm (sortMembers_perm h) (nodup_sortMembers h) name

theorem mem_insertMember {e : String × β} (h : e ∈ insertMember m ms) : e = m ∨ e ∈ ms := by
  induction ms with
  | nil => simpa [insertMember] using h
  | cons first rest ih =>
    rw [insertMember] at h
    split at h
    · exact (List.mem_cons.1 h).imp_right (List.mem_cons_of_mem _)
    · split at h
      · exact List.mem_cons.1 h
      · cases List.mem_cons.1 h with
        | inl here => exact .inr (here ▸ List.mem_cons_self)
        | inr there => exact (ih there).imp_right (List.mem_cons_of_mem _)

theorem ascending_insertMember (h : ms.Pairwise fun a b => a.1 < b.1) :
    (insertMember m ms).Pairwise fun a b => a.1 < b.1 := by
  induction ms with
  | nil => exact List.pairwise_singleton _ _
  | cons first rest ih =>
    have hrest := List.pairwise_cons.1 h
    rw [insertMember]
    split
    · next heq => exact List.pairwise_cons.2 ⟨heq ▸ hrest.1, hrest.2⟩
    · next hne =>
      split
      · next hbefore =>
        refine List.pairwise_cons.2 ⟨fun e he => ?_, h⟩
        cases List.mem_cons.1 he with
        | inl here => exact here ▸ hbefore
        | inr there => exact String.lt_trans hbefore (hrest.1 e there)
      · next hbehind =>
        have hlt : first.1 < m.1 := Std.lt_of_le_of_ne (String.not_lt.1 hbehind) (Ne.symm hne)
        refine List.pairwise_cons.2 ⟨fun e he => ?_, ih hrest.2⟩
        cases mem_insertMember he with
        | inl new => exact new ▸ hlt
        | inr old => exact hrest.1 e old

theorem ascending_sortMembers (ms : List (String × β)) :
    (sortMembers ms).Pairwise fun a b => a.1 < b.1 := by
  have (ns : List (String × β)) (h : ns.Pairwise fun a b => a.1 < b.1) :
      (ms.foldl (fun sorted m => insertMember m sorted) ns).Pairwise fun a b => a.1 < b.1 := by
    induction ms generalizing ns with
    | nil => exact h
    | cons m ms ih => exact ih _ (ascending_insertMember h)
  exact this [] .nil

theorem mem_foldl_insertMember {e : String × β}
    (h : e ∈ ms.foldl (fun sorted m => insertMember m sorted) ns) : e ∈ ns ∨ e ∈ ms := by
  induction ms generalizing ns with
  | nil => exact .inl h
  | cons m ms ih =>
    rcases ih h with hsorted | hlater
    · rcases mem_insertMember hsorted with rfl | hold
      · exact .inr List.mem_cons_self
      · exact .inl hold
    · exact .inr (List.mem_cons_of_mem _ hlater)

theorem mem_of_mem_sortMembers {e : String × β} (h : e ∈ sortMembers ms) : e ∈ ms :=
  (mem_foldl_insertMember h).resolve_left List.not_mem_nil

theorem sortMembers_of_ascending (h : ms.Pairwise fun a b => a.1 < b.1) : sortMembers ms = ms := by
  have hnodup : (ms.map Prod.fst).Nodup := by
    refine List.pairwise_map.2 (h.imp ?_)
    intro a b hlt heq
    exact String.lt_irrefl _ (heq ▸ hlt)
  exact (sortMembers_perm hnodup).eq_of_pairwise
    (fun _ _ _ _ hlt hgt => absurd hgt (String.lt_asymm hlt)) (ascending_sortMembers ms) h

theorem map_insertMember (f : β → γ) :
    (insertMember m ms).map (fun e => (e.1, f e.2)) =
      insertMember (m.1, f m.2) (ms.map fun e => (e.1, f e.2)) := by
  induction ms with
  | nil => rfl
  | cons first rest ih =>
    simp only [insertMember, List.map_cons]
    split
    · rfl
    · split
      · rfl
      · rw [List.map_cons, ih]

theorem map_sortMembers (f : β → γ) :
    (sortMembers ms).map (fun e => (e.1, f e.2)) =
      sortMembers (ms.map fun e => (e.1, f e.2)) := by
  have (ns : List (String × β)) :
      (ms.foldl (fun sorted m => insertMember m sorted) ns).map (fun e => (e.1, f e.2)) =
        (ms.map fun e => (e.1, f e.2)).foldl (fun sorted m => insertMember m sorted)
          (ns.map fun e => (e.1, f e.2)) := by
    induction ms generalizing ns with
    | nil => rfl
    | cons m ms ih => rw [List.foldl_cons, ih, map_insertMember, List.map_cons, List.foldl_cons]
  exact this []

theorem canonicalItems_eq_map (vs : List Value) : canonicalItems vs = vs.map canonical := by
  induction vs with
  | nil => rfl
  | cons v vs ih => rw [canonicalItems, ih, List.map_cons]

theorem canonicalMembers_eq_map (ms : List Member) :
    canonicalMembers ms = ms.map fun m => (m.1, m.2.canonical) := by
  induction ms with
  | nil => rfl
  | cons m ms ih => rw [canonicalMembers, ih, List.map_cons]

theorem map_eq_self_iff {f : β → β} {as : List β} : as.map f = as ↔ ∀ a ∈ as, f a = a := by
  have h := List.map_inj_left (f := f) (g := id) (l := as)
  rwa [List.map_id] at h

theorem canonical_array_eq_iff (vs : List Value) :
    (array vs).canonical = array vs ↔ ∀ v ∈ vs, v.canonical = v := by
  rw [canonical, array.injEq, canonicalItems_eq_map, map_eq_self_iff]

theorem canonical_object_eq_iff (ms : List Member) :
    (object ms).canonical = object ms ↔
      (ms.Pairwise fun a b => a.1 < b.1) ∧ ∀ m ∈ ms, m.2.canonical = m.2 := by
  have hmembers : (ms.map fun m => (m.1, m.2.canonical)) = ms ↔
      ∀ m ∈ ms, m.2.canonical = m.2 := by
    simp only [map_eq_self_iff, Prod.ext_iff, true_and]
  rw [canonical, object.injEq, canonicalMembers_eq_map]
  constructor
  · intro h
    have hascending : ms.Pairwise fun a b => a.1 < b.1 := h ▸ ascending_sortMembers _
    have hmapped : (ms.map fun m => (m.1, m.2.canonical)).Pairwise fun a b => a.1 < b.1 :=
      List.pairwise_map.2 hascending
    rw [sortMembers_of_ascending hmapped] at h
    exact ⟨hascending, hmembers.1 h⟩
  · rintro ⟨hascending, h⟩
    rw [hmembers.2 h, sortMembers_of_ascending hascending]

/-- What holds of a container if it holds of all that is in it holds of every value. -/
@[elab_as_elim]
theorem induct {P : Value → Prop} (null : P .null) (bool : ∀ b, P (.bool b))
    (number : ∀ n, P (.number n)) (string : ∀ s, P (.string s))
    (array : ∀ items, (∀ v ∈ items, P v) → P (.array items))
    (object : ∀ members : List Member, (∀ m ∈ members, P m.2) → P (.object members))
    (v : Value) : P v :=
  Value.rec null bool number string array object
    (fun _ hv => nomatch hv)
    (fun _ _ hv hvs w hw => (List.mem_cons.1 hw).elim (fun h => h ▸ hv) (hvs w))
    (fun _ hm => nomatch hm)
    (fun _ _ hm hms n hn => (List.mem_cons.1 hn).elim (fun h => h ▸ hm) (hms n))
    (fun _ _ hv => hv) v

theorem canonical_canonical (v : Value) : v.canonical.canonical = v.canonical := by
  induction v using induct with
  | null => rfl
  | bool b => rfl
  | number n => rfl
  | string s => rfl
  | array items ih =>
    refine (canonical_array_eq_iff _).2 fun v hv => ?_
    rw [canonicalItems_eq_map] at hv
    obtain ⟨w, hw, rfl⟩ := List.mem_map.1 hv
    exact ih w hw
  | object members ih =>
    refine (canonical_object_eq_iff _).2 ⟨ascending_sortMembers _, fun m hm => ?_⟩
    have hm := mem_of_mem_sortMembers hm
    rw [canonicalMembers_eq_map] at hm
    obtain ⟨n, hn, rfl⟩ := List.mem_map.1 hm
    exact ih n hn

end Courier.Json.Value
