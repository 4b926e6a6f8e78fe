import Mathlib.Data.List.Nodup
import Mathlib.Data.List.Perm.Subperm
import Courier.OrderedMap
import Courier.Proofs.Json.Canonical

/-!
# Maps and their entries

A map is made again from its entries. Maps are equal if they have the same entries in any order, as
a map and the same map with its entries sorted.
-/

namespace Courier.OrderedMap

variable {β : Type}

theorem lookup_of_mem {es : List (String × β)} (h : (es.map Prod.fst).Nodup)
    (hm : (key, v) ∈ es) : es.lookup key = some v := by
  induction es with
  | nil => cases hm
  | cons e rest ih =>
    obtain ⟨k, w⟩ := e
    rw [List.map_cons, List.nodup_cons] at h
    rw [List.lookup_cons]
    cases List.mem_cons.1 hm with
    | inl first =>
      cases first
      simp
    | inr later =>
      have hne : key ≠ k := fun e => h.1 (e ▸ List.mem_map.2 ⟨(key, v), later, rfl⟩)
      rw [beq_eq_false_iff_ne.2 hne]
      exact ih h.2 later

theorem get?_eq_some_iff {m : OrderedMap β} : m.get? key = some v ↔ (key, v) ∈ m.entries := by
  constructor
  · intro h
    obtain ⟨before, after, hentries, -⟩ := List.lookup_eq_some_iff.1 h
    simp [hentries]
  · exact lookup_of_mem m.nodup

theorem get?_of_perm {m n : OrderedMap β} (h : m.entries.Perm n.entries) (key : String) :
    m.get? key = n.get? key :=
  Json.Value.lookup_eq_of_perm h m.nodup key

theorem beq_iff_perm [BEq β] [LawfulBEq β] {m n : OrderedMap β} :
    (m == n) = true ↔ m.entries.Perm n.entries := by
  have hbeq : (m == n) = true ↔
      m.entries.length = n.entries.length ∧ ∀ e ∈ m.entries, e ∈ n.entries := by
    change (_ && _) = true ↔ _
    simp only [Bool.and_eq_true, beq_iff_eq, List.all_eq_true, get?_eq_some_iff]
  rw [hbeq]
  constructor
  · rintro ⟨hlength, hsubset⟩
    have hsubperm := List.subperm_of_subset (List.Nodup.of_map _ m.nodup) hsubset
    exact hsubperm.perm_of_length_le (Nat.le_of_eq hlength.symm)
  · intro hperm
    exact ⟨hperm.length_eq, fun e he => hperm.mem_iff.1 he⟩

theorem alterEntries_of_not_mem {es : List (String × β)} (h : key ∉ es.map Prod.fst) :
    alterEntries key fresh f es = es ++ [(key, fresh)] := by
  induction es with
  | nil => rfl
  | cons e rest ih =>
    obtain ⟨k, w⟩ := e
    rw [List.map_cons, List.mem_cons, not_or] at h
    rw [alterEntries, if_neg fun e => h.1 e.symm, ih h.2, List.cons_append]

theorem entries_foldl_insert (m : OrderedMap β) {es : List (String × β)}
    (h : ((m.entries ++ es).map Prod.fst).Nodup) :
    (es.foldl (fun m e => m.insert e.1 e.2) m).entries = m.entries ++ es := by
  induction es generalizing m with
  | nil => simp
  | cons e rest ih =>
    have fresh : e.1 ∉ m.entries.map Prod.fst := by
      rw [List.map_append, List.map_cons, List.nodup_append] at h
      exact fun he => h.2.2 e.1 he e.1 List.mem_cons_self rfl
    have inserted : (m.insert e.1 e.2).entries = m.entries ++ [e] := alterEntries_of_not_mem fresh
    rw [List.foldl_cons, ih, inserted, List.append_assoc, List.singleton_append]
    rwa [inserted, List.append_assoc, List.singleton_append]

theorem eq_of_entries {m n : OrderedMap β} (h : m.entries = n.entries) : m = n := by
  cases m
  cases n
  cases h
  rfl

theorem ofList_entries (m : OrderedMap β) : ofList m.entries = m :=
  eq_of_entries (entries_foldl_insert empty m.nodup)

-- ---------------------------------------------------------------------------
-- Changes at one key
-- ---------------------------------------------------------------------------

theorem alterEntries_congr {es : List (String × β)} {a b : β} {f g : β → β}
    (h : ((es.lookup key).map f).getD a = ((es.lookup key).map g).getD b) :
    alterEntries key a f es = alterEntries key b g es := by
  induction es with
  | nil => simpa [alterEntries] using h
  | cons e rest ih =>
    obtain ⟨k, v⟩ := e
    by_cases hk : k = key
    · subst hk
      simpa [alterEntries] using h
    · rw [List.lookup_cons, beq_eq_false_iff_ne.2 (Ne.symm hk)] at h
      simp only [alterEntries, hk, if_false, ih h]

theorem alterEntries_alterEntries (key : String) (a b : β) (f g : β → β)
    (es : List (String × β)) :
    alterEntries key b g (alterEntries key a f es) = alterEntries key (g a) (g ∘ f) es := by
  induction es with
  | nil => simp [alterEntries]
  | cons e rest ih =>
    obtain ⟨k, v⟩ := e
    by_cases hk : k = key <;> simp [alterEntries, hk, ih]

theorem alterEntries_id {es : List (String × β)} (h : key ∈ es.map Prod.fst) :
    alterEntries key a id es = es := by
  induction es with
  | nil => cases h
  | cons e rest ih =>
    obtain ⟨k, v⟩ := e
    by_cases hk : k = key
    · simp [alterEntries, hk]
    · rw [List.map_cons, List.mem_cons] at h
      rw [alterEntries, if_neg hk, ih (h.resolve_left (Ne.symm hk))]

theorem alter_congr {m : OrderedMap β} {a b : β} {f g : β → β}
    (h : ((m.get? key).map f).getD a = ((m.get? key).map g).getD b) :
    m.alter key a f = m.alter key b g :=
  eq_of_entries (alterEntries_congr h)

theorem alter_alter (m : OrderedMap β) (key : String) (a b : β) (f g : β → β) :
    (m.alter key a f).alter key b g = m.alter key (g a) (g ∘ f) :=
  eq_of_entries (alterEntries_alterEntries key a b f g m.entries)

theorem alter_id {m : OrderedMap β} (h : key ∈ m.keys) (a : β) : m.alter key a id = m :=
  eq_of_entries (alterEntries_id h)

-- ---------------------------------------------------------------------------
-- Sorted entries
-- ---------------------------------------------------------------------------

def sorted (m : OrderedMap β) : OrderedMap β :=
  ⟨Json.Value.sortMembers m.entries, Json.Value.nodup_sortMembers m.nodup⟩

theorem sorted_perm (m : OrderedMap β) : m.sorted.entries.Perm m.entries :=
  Json.Value.sortMembers_perm m.nodup

theorem ascending_sorted (m : OrderedMap β) : m.sorted.keys.Pairwise (· < ·) :=
  List.pairwise_map.2 (Json.Value.ascending_sortMembers m.entries)

end Courier.OrderedMap
