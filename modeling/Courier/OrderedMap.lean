/-!
# Maps that remember insertion order

The entries of a map stand in the order in which their keys first came. No key stands twice.
Two maps are equal when they hold the same entries, in whatever order.
-/

namespace Courier

structure OrderedMap (β : Type) where
  entries : List (String × β)
  nodup : (entries.map Prod.fst).Nodup

namespace OrderedMap

variable {β : Type}

def empty : OrderedMap β := ⟨[], by simp⟩

instance : EmptyCollection (OrderedMap β) := ⟨empty⟩
instance : Inhabited (OrderedMap β) := ⟨empty⟩

def keys (m : OrderedMap β) : List String :=
  m.entries.map Prod.fst

def get? (m : OrderedMap β) (key : String) : Option β :=
  m.entries.lookup key

def contains (m : OrderedMap β) (key : String) : Bool :=
  m.keys.contains key

def alterEntries (key : String) (fresh : β) (f : β → β) : List (String × β) → List (String × β)
  | [] => [(key, fresh)]
  | (k, v) :: rest =>
    if k = key then (k, f v) :: rest else (k, v) :: alterEntries key fresh f rest

theorem keys_alterEntries (key : String) (fresh : β) (f : β → β) (es : List (String × β)) :
    (alterEntries key fresh f es).map Prod.fst =
      if key ∈ es.map Prod.fst then es.map Prod.fst else es.map Prod.fst ++ [key] := by
  induction es with
  | nil => simp [alterEntries]
  | cons e rest ih =>
    obtain ⟨k, v⟩ := e
    by_cases h : k = key
    · simp [alterEntries, h]
    · have h' : ¬ key = k := fun e => h e.symm
      simp only [alterEntries, h, if_false, List.map_cons, ih, List.mem_cons, h', false_or]
      split <;> simp

def alter (m : OrderedMap β) (key : String) (fresh : β) (f : β → β) : OrderedMap β where
  entries := alterEntries key fresh f m.entries
  nodup := by
    have h := m.nodup
    rw [keys_alterEntries]
    split
    · exact h
    · next hk =>
      rw [List.nodup_append]
      refine ⟨h, by simp, ?_⟩
      intro a ha b hb
      simp only [List.mem_singleton] at hb
      subst hb
      exact fun e => hk (e ▸ ha)

/-- A key that is there keeps its place. -/
def insert (m : OrderedMap β) (key : String) (value : β) : OrderedMap β :=
  m.alter key value (fun _ => value)

def ofList (es : List (String × β)) : OrderedMap β :=
  es.foldl (fun m e => m.insert e.1 e.2) empty

def isEmpty (m : OrderedMap β) : Bool :=
  m.entries.isEmpty

/-- Equality of the entries, without regard to their order. -/
protected def beq [BEq β] (m n : OrderedMap β) : Bool :=
  m.entries.length == n.entries.length &&
    m.entries.all fun (key, value) => n.get? key == some value

instance [BEq β] : BEq (OrderedMap β) := ⟨OrderedMap.beq⟩

@[simp] theorem keys_alter (m : OrderedMap β) (key : String) (fresh : β) (f : β → β) :
    (m.alter key fresh f).keys = if key ∈ m.keys then m.keys else m.keys ++ [key] :=
  keys_alterEntries key fresh f m.entries

theorem lookup_alterEntries (key : String) (fresh : β) (f : β → β) (es : List (String × β))
    (k : String) :
    (alterEntries key fresh f es).lookup k =
      if k = key then some (((es.lookup key).map f).getD fresh) else es.lookup k := by
  induction es with
  | nil =>
    by_cases h : k = key
    · simp [alterEntries, h]
    · simp [alterEntries, List.lookup_cons, h, beq_eq_false_iff_ne.2 h]
  | cons e rest ih =>
    obtain ⟨j, v⟩ := e
    by_cases hj : j = key
    · subst hj
      by_cases hk : k = j
      · simp [alterEntries, hk]
      · simp [alterEntries, List.lookup_cons, hk, beq_eq_false_iff_ne.2 hk]
    · by_cases hk : k = j
      · subst hk
        simp [alterEntries, hj]
      · by_cases hkey : k = key
        · subst hkey
          simp [alterEntries, hj, List.lookup_cons, beq_eq_false_iff_ne.2 hk, ih]
        · simp [alterEntries, hj, List.lookup_cons, beq_eq_false_iff_ne.2 hk, ih, hkey]

theorem get?_alter (m : OrderedMap β) (key : String) (fresh : β) (f : β → β) (k : String) :
    (m.alter key fresh f).get? k =
      if k = key then some (((m.get? key).map f).getD fresh) else m.get? k :=
  lookup_alterEntries key fresh f m.entries k

theorem get?_insert (m : OrderedMap β) (key : String) (value : β) (k : String) :
    (m.insert key value).get? k = if k = key then some value else m.get? k := by
  rw [insert, get?_alter]
  cases m.get? key <;> simp

end OrderedMap

end Courier
