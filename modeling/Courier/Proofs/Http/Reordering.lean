import Courier.Proofs.Http.Headers

/-!
# Headers in another order

Equal headers may have their names in different orders. A name that is spelled in several ways, with
different values, is then answered by whichever spelling stands first, and pairs come name by name
in the order of those names that have values.
-/

namespace Courier

theorem eraseDups_flatMap {names : List String} {f : String → List String} (hnodup : names.Nodup)
    (hf : ∀ name ∈ names, f name ≠ [] ∧ ∀ other ∈ f name, other = name) :
    (names.flatMap f).eraseDups = names := by
  induction names with
  | nil => rfl
  | cons name names ih =>
    rw [List.nodup_cons] at hnodup
    obtain ⟨hne, hsame⟩ := hf name List.mem_cons_self
    have hfirst : (f name).eraseDups = [name] := by
      cases hlist : f name with
      | nil => exact absurd hlist hne
      | cons first more =>
        rw [hlist, List.forall_mem_cons] at hsame
        have hmore : more.filter (fun other => !other == name) = [] := by
          simpa using hsame.2
        rw [hsame.1, List.eraseDups_cons, hmore, List.eraseDups_nil]
    have hothers : (names.flatMap f).removeAll (f name) = names.flatMap f := by
      refine List.filter_eq_self.2 fun other hother => ?_
      obtain ⟨next, hnext, hmem⟩ := List.mem_flatMap.1 hother
      have hother := (hf next (List.mem_cons_of_mem _ hnext)).2 other hmem
      have hnot : other ∉ f name := fun hname =>
        hnodup.1 (hsame other hname ▸ hother ▸ hnext)
      simpa using hnot
    rw [List.flatMap_cons, List.eraseDups_append, hfirst, hothers,
      ih hnodup.2 fun next hnext => hf next (List.mem_cons_of_mem _ hnext), List.singleton_append]

namespace Headers

variable {h h' : Headers} {name : String}

theorem valuesOf_of_mem (he : (name, values) ∈ h.entries) : h.valuesOf name = values := by
  rw [valuesOf, OrderedMap.get?_eq_some_iff.2 he, Option.getD_some]

theorem valuesOf_of_perm (hperm : h.entries.Perm h'.entries) : h.valuesOf = h'.valuesOf := by
  funext name
  rw [valuesOf, valuesOf, OrderedMap.get?_of_perm hperm]

-- ---------------------------------------------------------------------------
-- Look-ups
-- ---------------------------------------------------------------------------

/-- All spellings of a name have the same values. -/
def Unanimous (h : Headers) (name : String) : Prop :=
  ∀ e ∈ h.entries, ∀ e' ∈ h.entries, Text.sameName e.1 name = true →
    Text.sameName e'.1 name = true → e.2 = e'.2

theorem Unanimous.values?_eq_some_iff (hname : h.Unanimous name) :
    h.values? name = some values ↔
      ∃ e ∈ h.entries, Text.sameName e.1 name = true ∧ e.2 = values := by
  rw [values?, Option.map_eq_some_iff]
  constructor
  · rintro ⟨e, hfind, hvalues⟩
    exact ⟨e, List.mem_of_find?_eq_some hfind, by simpa using List.find?_some hfind, hvalues⟩
  · rintro ⟨e, he, hsame, rfl⟩
    have hfound : (h.entries.find? fun e => Text.sameName e.1 name).isSome = true :=
      List.find?_isSome.2 ⟨e, he, hsame⟩
    obtain ⟨first, hfirst⟩ := Option.isSome_iff_exists.1 hfound
    have hfirstSame : Text.sameName first.1 name = true := by simpa using List.find?_some hfirst
    exact ⟨first, hfirst, hname _ (List.mem_of_find?_eq_some hfirst) _ he hfirstSame hsame⟩

theorem values?_of_perm (hperm : h.entries.Perm h'.entries) (hname : h.Unanimous name) :
    h.values? name = h'.values? name := by
  have hname' : h'.Unanimous name := fun e he e' he' =>
    hname e (hperm.mem_iff.2 he) e' (hperm.mem_iff.2 he')
  refine Option.ext fun values => ?_
  simp only [hname.values?_eq_some_iff, hname'.values?_eq_some_iff, hperm.mem_iff]

theorem exists_perm_of_not_unanimous (hname : ¬ h.Unanimous name) :
    ∃ h' : Headers, h.entries.Perm h'.entries ∧ h.values? name ≠ h'.values? name := by
  have hfront : ∀ e ∈ h.entries, Text.sameName e.1 name = true →
      ∃ h' : Headers, h.entries.Perm h'.entries ∧ h'.values? name = some e.2 := by
    intro e he hsame
    have hperm := List.perm_cons_erase he
    refine ⟨⟨e :: h.entries.erase e, ((hperm.map Prod.fst).nodup_iff).1 h.nodup⟩, hperm, ?_⟩
    simp [values?, hsame]
  simp only [Unanimous, not_forall] at hname
  obtain ⟨e, he, e', he', hsame, hsame', hne⟩ := hname
  obtain ⟨first, hfirst, hvalues⟩ := hfront e he hsame
  obtain ⟨second, hsecond, hvalues'⟩ := hfront e' he' hsame'
  by_cases hcase : h.values? name = first.values? name
  · refine ⟨second, hsecond, ?_⟩
    rw [hcase, hvalues, hvalues']
    exact fun h => hne (Option.some.inj h)
  · exact ⟨first, hfirst, hcase⟩

-- ---------------------------------------------------------------------------
-- Pairs
-- ---------------------------------------------------------------------------

def valued (h : Headers) : List String :=
  h.keys.filter fun name => !(h.valuesOf name).isEmpty

theorem nodup_valued (h : Headers) : h.valued.Nodup :=
  h.nodup.filter _

theorem valued_perm (hperm : h.entries.Perm h'.entries) : h.valued.Perm h'.valued := by
  rw [valued, valued, valuesOf_of_perm hperm]
  exact (hperm.map Prod.fst).filter _

theorem flatten_eq (h : Headers) :
    h.flatten = h.valued.flatMap fun name => (h.valuesOf name).map (name, ·) := by
  have hkeys : h.flatten = h.keys.flatMap fun name => (h.valuesOf name).map (name, ·) := by
    rw [flatten, OrderedMap.keys, List.flatMap_map]
    exact List.flatMap_congr fun e he => by rw [valuesOf_of_mem he]
  rw [hkeys, List.flatMap, List.flatMap, ← List.flatten_filter_not_isEmpty, List.filter_map, valued]
  simp [Function.comp_def]

theorem valued_eq (h : Headers) : h.valued = (h.flatten.map Prod.fst).eraseDups := by
  rw [flatten_eq, List.map_flatMap]
  refine (eraseDups_flatMap h.nodup_valued fun name hname => ?_).symm
  simpa [valued] using (List.mem_filter.1 hname).2

theorem flatten_eq_iff (hperm : h.entries.Perm h'.entries) :
    h.flatten = h'.flatten ↔ h.valued = h'.valued := by
  constructor
  · intro heq
    rw [valued_eq, valued_eq, heq]
  · intro heq
    rw [flatten_eq, flatten_eq, heq, valuesOf_of_perm hperm]

theorem valued_sorted_iff : valued h.sorted = h.valued ↔ h.valued.Pairwise (· < ·) := by
  have hsorted : (valued h.sorted).Pairwise (· < ·) := h.ascending_sorted.filter _
  constructor
  · intro heq
    rwa [← heq]
  · intro hascending
    exact (valued_perm h.sorted_perm).eq_of_pairwise
      (fun _ _ _ _ hlt hgt => absurd hgt (String.lt_asymm hlt)) hsorted hascending

theorem filter_flatten (h : Headers) (name : String) :
    h.flatten.filter (·.1 == name) = (h.valuesOf name).map (name, ·) := by
  obtain ⟨es, hnodup⟩ := h
  show (es.flatMap fun e => e.2.map (e.1, ·)).filter (·.1 == name) =
    ((es.lookup name).getD []).map (name, ·)
  induction es with
  | nil => rfl
  | cons e es ih =>
    obtain ⟨key, values⟩ := e
    rw [List.map_cons, List.nodup_cons] at hnodup
    rw [List.flatMap_cons, List.filter_append, ih hnodup.2, List.lookup_cons]
    by_cases hkey : name = key
    · subst hkey
      have hrest : es.lookup name = none := by
        rw [List.lookup_eq_none_iff]
        intro e he
        rw [bne_iff_ne]
        rintro rfl
        exact hnodup.1 (List.mem_map.2 ⟨e, he, rfl⟩)
      simp [hrest, List.filter_map, Function.comp_def]
    · simp [Ne.symm hkey, List.filter_map, Function.comp_def, beq_eq_false_iff_ne.2 hkey]

end Headers

end Courier
