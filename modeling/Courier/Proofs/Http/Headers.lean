import Mathlib.Data.List.Induction
import Courier.Http.Headers
import Courier.Proofs.OrderedMap

/-!
# Added headers

Pairs that are added one after the other stand behind the values of their names; a name that was not
there comes behind the others. Default headers, each added only if its name is not there yet in any
letter case, stand behind those that were there, in their own order. What was there stays as it was,
and every name is there in the end.
-/

namespace Courier

theorem Text.sameName_congr_right {a b : String} (h : sameName a b = true) (c : String) :
    sameName c a = sameName c b := by
  rw [sameName_iff] at h
  rw [sameName, sameName, h]

theorem eraseDups_of_nodup {names : List String} (h : names.Nodup) : names.eraseDups = names := by
  induction names with
  | nil => rfl
  | cons name names ih =>
    rw [List.nodup_cons] at h
    have hothers : names.filter (fun other => !other == name) = names := by
      refine List.filter_eq_self.mpr fun other hother => ?_
      simp only [Bool.not_eq_true', beq_eq_false_iff_ne]
      rintro rfl
      exact h.1 hother
    rw [List.eraseDups_cons, hothers, ih h.2]

namespace Headers

variable {h : Headers} {name value : String} {ds : List (String × String)}

theorem mentions_iff : h.mentions name = true ↔ ∃ e ∈ h.entries, Text.sameName e.1 name = true := by
  simp [mentions, OrderedMap.keys, List.any_map]

theorem mentions_of_sameName {name' : String} (hsame : Text.sameName name name' = true) :
    h.mentions name = h.mentions name' := by
  simp only [mentions, Text.sameName_congr_right hsame]

-- ---------------------------------------------------------------------------
-- Pairs
-- ---------------------------------------------------------------------------

def appendAll (h : Headers) (ps : List (String × String)) : Headers :=
  ps.foldl (fun h p => h.append p.1 p.2) h

def valuesOf (h : Headers) (name : String) : List String :=
  (h.get? name).getD []

/-- A map is another one with pairs added. -/
structure Extends (h base : Headers) (ps : List (String × String)) : Prop where
  keys : h.keys = (base.keys ++ ps.map Prod.fst).eraseDups
  values : ∀ name, h.valuesOf name = base.valuesOf name ++ (ps.filter (·.1 == name)).map Prod.snd

theorem mentions_append (h : Headers) (name value : String) :
    (h.append name value).mentions = fun other => h.mentions other || Text.sameName name other := by
  funext other
  simp only [mentions, append, OrderedMap.keys_alter]
  split
  · next hmem =>
    cases hsame : Text.sameName name other
    · simp
    · simpa using ⟨name, hmem, hsame⟩
  · simp

theorem valuesOf_append (h : Headers) (name value other : String) :
    (h.append name value).valuesOf other =
      h.valuesOf other ++ if name = other then [value] else [] := by
  rw [valuesOf, append, OrderedMap.get?_alter]
  by_cases hname : name = other
  · subst hname
    simp only [if_true, valuesOf]
    cases h.get? name <;> rfl
  · simp [hname, Ne.symm hname, valuesOf]

theorem extends_appendAll (h : Headers) (ps : List (String × String)) :
    (h.appendAll ps).Extends h ps := by
  induction ps generalizing h with
  | nil =>
    constructor
    · rw [List.map_nil, List.append_nil]
      exact (eraseDups_of_nodup h.nodup).symm
    · intro name
      exact (List.append_nil _).symm
  | cons p ps ih =>
    obtain ⟨hkeys, hvalues⟩ := ih (h.append p.1 p.2)
    constructor
    · show ((h.append p.1 p.2).appendAll ps).keys = _
      rw [hkeys, append, OrderedMap.keys_alter, List.map_cons]
      split
      · next hmem => simp [List.eraseDups_append, List.removeAll, hmem]
      · rw [List.append_assoc, List.singleton_append]
    · intro name
      show ((h.append p.1 p.2).appendAll ps).valuesOf name = _
      rw [hvalues, valuesOf_append, List.append_assoc, List.filter_cons]
      by_cases hname : p.1 = name <;> simp [hname]

-- ---------------------------------------------------------------------------
-- Defaults
-- ---------------------------------------------------------------------------

def withDefaults (h : Headers) (ds : List (String × String)) : Headers :=
  ds.foldl (fun h d => h.appendDefault d.1 d.2) h

def named (ds : List (String × String)) (name : String) : Bool :=
  ds.any fun d => Text.sameName d.1 name

/-- Those whose name is neither mentioned nor the name of an earlier one. -/
def lacking (h : Headers) (ds : List (String × String)) : List (String × String) :=
  (ds.zipIdx.filter fun d => !h.mentions d.1.1 && !named (ds.take d.2) d.1.1).map Prod.fst

theorem withDefaults_snoc (ds : List (String × String)) (d : String × String) :
    h.withDefaults (ds ++ [d]) = (h.withDefaults ds).appendDefault d.1 d.2 :=
  List.foldl_append

theorem named_snoc (ds : List (String × String)) (d : String × String) (name : String) :
    named (ds ++ [d]) name = (named ds name || Text.sameName d.1 name) := by
  simp [named]

theorem lacking_snoc (ds : List (String × String)) (d : String × String) :
    lacking h (ds ++ [d]) =
      lacking h ds ++ if h.mentions d.1 || named ds d.1 then [] else [d] := by
  have hearlier : ∀ e ∈ ds.zipIdx, (ds ++ [d]).take e.2 = ds.take e.2 := by
    intro e he
    have hplace := List.snd_lt_of_mem_zipIdx he
    exact List.take_append_of_le_length (by omega)
  have hfilter :
      (ds.zipIdx.filter fun e => !h.mentions e.1.1 && !named ((ds ++ [d]).take e.2) e.1.1) =
        ds.zipIdx.filter fun e => !h.mentions e.1.1 && !named (ds.take e.2) e.1.1 :=
    List.filter_congr fun e he => by rw [hearlier e he]
  rw [lacking, List.zipIdx_append, List.filter_append, hfilter, List.map_append, lacking]
  congr 1
  by_cases hm : h.mentions d.1 <;> by_cases hn : named ds d.1 <;> simp [hm, hn]

theorem entries_append (hname : h.mentions name = false) :
    (h.append name value).entries = h.entries ++ [(name, [value])] := by
  refine OrderedMap.alterEntries_of_not_mem fun hmem => ?_
  obtain ⟨e, he, rfl⟩ := List.mem_map.1 hmem
  exact Bool.false_ne_true (hname.symm.trans (mentions_iff.2 ⟨e, he, Text.sameName_refl _⟩))

theorem mentions_appendDefault (d : String × String) (name : String) :
    (h.appendDefault d.1 d.2).mentions name = (h.mentions name || Text.sameName d.1 name) := by
  by_cases hd : h.mentions d.1
  · rw [appendDefault, if_pos hd]
    by_cases hname : Text.sameName d.1 name
    · rw [← mentions_of_sameName hname, hd, Bool.true_or]
    · rw [Bool.not_eq_true] at hname
      rw [hname, Bool.or_false]
  · rw [appendDefault, if_neg hd, mentions_append]

theorem mentions_withDefaults (h : Headers) (ds : List (String × String)) (name : String) :
    (h.withDefaults ds).mentions name = (h.mentions name || named ds name) := by
  induction ds using List.reverseRecOn with
  | nil => exact (Bool.or_false _).symm
  | append_singleton ds d ih =>
    rw [withDefaults_snoc, mentions_appendDefault, ih, named_snoc, Bool.or_assoc]

theorem entries_withDefaults (h : Headers) (ds : List (String × String)) :
    (h.withDefaults ds).entries = h.entries ++ (lacking h ds).map fun d => (d.1, [d.2]) := by
  -- From the back: the last one is looked up among all that the others have left.
  induction ds using List.reverseRecOn with
  | nil => exact (List.append_nil _).symm
  | append_singleton ds d ih =>
    have hmentions := mentions_withDefaults h ds d.1
    rw [withDefaults_snoc, lacking_snoc, appendDefault, List.map_append, ← List.append_assoc, ← ih,
      ← hmentions]
    split
    · exact (List.append_nil _).symm
    · next hd => exact entries_append (Bool.eq_false_iff.2 hd)

theorem values?_withDefaults (hname : h.mentions name = true) (ds : List (String × String)) :
    (h.withDefaults ds).values? name = h.values? name := by
  obtain ⟨e, he, hsame⟩ := mentions_iff.1 hname
  have hfound : (h.entries.find? fun e => Text.sameName e.1 name).isSome = true :=
    List.find?_isSome.2 ⟨e, he, hsame⟩
  rw [values?, values?, entries_withDefaults, List.find?_append, Option.or_of_isSome hfound]

end Headers

end Courier
