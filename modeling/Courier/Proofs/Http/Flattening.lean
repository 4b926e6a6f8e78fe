import Courier.Proofs.Http.Drafting
import Courier.Proofs.Http.Reordering

/-!
# Headers from their pairs

The pairs of a map, added one by one to a new draft, make the map again: the pairs of a name come
one behind the other, so the first of them makes the entry and the others extend it. Names without
values have no pairs, and only they get lost.
-/

namespace Courier

theorem Draft.steps_header (d : Draft) (ps : List (String × String)) :
    d.steps (ps.map fun p => .header p.1 p.2) = { d with headers := d.headers.appendAll ps } := by
  induction ps generalizing d with
  | nil => rfl
  | cons p ps ih => exact ih (d.step (.header p.1 p.2))

namespace Headers

variable {g h : Headers}

/-- The map without the names that have no values. -/
def pruned (h : Headers) : Headers where
  entries := h.entries.filter fun e => !e.2.isEmpty
  nodup := h.nodup.sublist (List.filter_sublist.map Prod.fst)

theorem entries_eq (h : Headers) : h.entries = h.keys.map fun name => (name, h.valuesOf name) := by
  have hentry : ∀ e ∈ h.entries, e = (e.1, h.valuesOf e.1) := fun e he => by
    rw [valuesOf_of_mem he]
  rw [OrderedMap.keys, List.map_map]
  exact (List.map_id _).symm.trans (List.map_congr_left hentry)

theorem entries_pruned (h : Headers) :
    h.pruned.entries = h.valued.map fun name => (name, h.valuesOf name) := by
  have hfilter := congrArg (List.filter fun e => !e.2.isEmpty) h.entries_eq
  rw [List.filter_map] at hfilter
  exact hfilter

theorem appendAll_flatten (h : Headers) : appendAll .empty h.flatten = h.pruned := by
  obtain ⟨hkeys, hvalues⟩ := extends_appendAll .empty h.flatten
  have hnames : (appendAll .empty h.flatten).keys = h.valued := by
    rw [hkeys, valued_eq]
    rfl
  have hfound : (appendAll .empty h.flatten).valuesOf = h.valuesOf := by
    funext name
    rw [hvalues, filter_flatten, List.map_map]
    exact List.map_id _
  apply OrderedMap.eq_of_entries
  rw [entries_eq, hnames, hfound, entries_pruned]

theorem pruned_of_valued (hvalues : ∀ e ∈ h.entries, e.2 ≠ []) : h.pruned = h := by
  obtain ⟨entries, nodup⟩ := h
  have hall : entries.filter (fun e => !e.2.isEmpty) = entries :=
    List.filter_eq_self.2 fun e he => by simpa using hvalues e he
  simp only [pruned, hall]

/-- A new draft takes the pairs of a map back to the map without its empty entries, names and values
in their order. So maps all of whose names have values can be told apart by their pairs. -/
theorem pairs_restore_headers :
    (∀ h : Headers,
      ({} : Draft).steps (h.flatten.map fun p => .header p.1 p.2) = { headers := h.pruned }) ∧
    ∀ g h : Headers, (∀ e ∈ g.entries, e.2 ≠ []) → (∀ e ∈ h.entries, e.2 ≠ []) →
      g.flatten = h.flatten → g = h := by
  refine ⟨fun h => ?_, fun g h hg hh heq => ?_⟩
  · rw [Draft.steps_header, appendAll_flatten]
  · calc g = g.pruned := (pruned_of_valued hg).symm
      _ = h.pruned := by rw [← appendAll_flatten g, heq, appendAll_flatten]
      _ = h := pruned_of_valued hh

/-- Two spellings of a name stay apart and between them a name without values goes; the order of the
names shows in the pairs. -/
theorem pairs_restore_spellings :
    let g : Headers := ⟨[("X-A", ["2", "1", "2"]), ("x-a", [""])], by decide⟩
    let h : Headers := ⟨[("x-a", [""]), ("X-A", ["2", "1", "2"])], by decide⟩
    let k : Headers := ⟨[("X-A", ["2", "1", "2"]), ("X-None", []), ("x-a", [""])], by decide⟩
    ((∀ e ∈ g.entries, e.2 ≠ []) ∧ ∀ e ∈ h.entries, e.2 ≠ []) ∧ g.flatten ≠ h.flatten ∧
      ({} : Draft).steps (k.flatten.map fun p => .header p.1 p.2) = { headers := g } := by
  intro g h k
  have hg : ∀ e ∈ g.entries, e.2 ≠ [] := by decide
  have hh : ∀ e ∈ h.entries, e.2 ≠ [] := by decide
  refine ⟨⟨hg, hh⟩, fun heq => ?_, pairs_restore_headers.1 k⟩
  have hsame : g.entries = h.entries :=
    congrArg OrderedMap.entries (pairs_restore_headers.2 g h hg hh heq)
  exact absurd hsame (by decide)

end Headers

end Courier
