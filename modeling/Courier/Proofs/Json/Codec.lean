import Courier.Json.Codec
import Courier.Proofs.Json.Canonical

/-!
# What comes back from the written form

A codec returns `b` for `a` if writing `a`, making the value canonical and reading it gives `b`.
The parts of a record return each on its own; that the members arrive sorted and that some were
left out does not show.
-/

namespace Courier.Json

def Codec.Returns (c : Codec α) (a b : α) : Prop :=
  c.decode (c.encode a).canonical = .ok b

theorem mapM_map_ok {f : α → Decoded β} {g : β → α} {bs : List β}
    (h : ∀ b ∈ bs, f (g b) = .ok b) : (bs.map g).mapM f = .ok bs := by
  induction bs with
  | nil => rfl
  | cons b bs ih =>
    have first : f (g b) = .ok b := h b List.mem_cons_self
    have rest := ih fun b hb => h b (List.mem_cons_of_mem _ hb)
    rw [List.map_cons, List.mapM_cons, first, rest]
    rfl

-- ---------------------------------------------------------------------------
-- Single values
-- ---------------------------------------------------------------------------

namespace Codec.Returns

theorem text (s : String) : Codec.text.Returns s s := rfl

theorem boolean (b : Bool) : Codec.boolean.Returns b b := rfl

theorem unsigned (ofNat : Nat → α) (toUInt64 : α → UInt64) (h : (toUInt64 a).toNat < size)
    (back : ofNat (toUInt64 a).toNat = a) :
    (Codec.unsigned name size ofNat toUInt64).Returns a a := by
  simp only [Codec.Returns, Codec.unsigned, Value.ofNat, Json.Number.ofUInt64, Value.canonical,
    Int.toNat_natCast, back, Int.natCast_nonneg, h, and_self, if_true]

theorem word16 (n : UInt16) : Codec.word16.Returns n n :=
  unsigned _ _ (by simpa using n.toNat_lt) (by simp)

theorem word32 (n : UInt32) : Codec.word32.Returns n n :=
  unsigned _ _ (by simpa using n.toNat_lt) (by simp)

theorem word64 (n : UInt64) : Codec.word64.Returns n n :=
  unsigned _ _ (by simpa using n.toNat_lt) (by simp)

theorem double (h : x.isFinite = true) : Codec.double.Returns x x := by
  simp only [Codec.Returns, Codec.double, h, if_true, Value.canonical]

theorem list {c : Codec α} (h : ∀ a ∈ as, c.Returns a a) : c.list.Returns as as := by
  simp only [Codec.Returns, Codec.list, Value.canonical, Value.canonicalItems_eq_map, List.map_map]
  exact mapM_map_ok h

theorem pair {c : Codec α} {d : Codec β} (h : c.Returns a a') (h' : d.Returns b b') :
    (c.pair d).Returns (a, b) (a', b') := by
  have first : c.decode (c.encode a).canonical = .ok a' := h
  have second : d.decode (d.encode b).canonical = .ok b' := h'
  simp only [Codec.Returns, Codec.pair, Value.canonical, Value.canonicalItems_eq_map,
    List.map_cons, List.map_nil, first, second, bind, Except.bind, List.isEmpty_nil, if_true]

theorem refine {c : Codec α} {of : α → Except String β} {back : β → α}
    (h : c.Returns (back b) a) (hof : of a = .ok b') : (c.refine of back).Returns b b' := by
  have : c.decode (c.encode (back b)).canonical = .ok a := h
  simp only [Codec.Returns, Codec.refine, this, hof, bind, Except.bind]
  rfl

theorem ne_null {c : Codec α} (h : c.Returns a b) (refused : (c.decode .null).isOk = false) :
    (c.encode a).canonical ≠ .null := by
  intro written
  rw [Codec.Returns, written] at h
  rw [h] at refused
  cases refused

theorem nullable {c : Codec α} (h : c.Returns a b) (refused : (c.decode .null).isOk = false) :
    c.nullable.Returns (some a) (some b) := by
  have written := h.ne_null refused
  have hread : c.decode (c.encode a).canonical = .ok b := h
  simp only [Codec.Returns, Codec.nullable, hread]
  rfl

theorem variant (h : names.find? (·.2 == name a) = some (a, s)) :
    (Codec.variant names name d).Returns a a := by
  simp only [Codec.Returns, Codec.variant, Value.canonical, h]

end Codec.Returns

-- ---------------------------------------------------------------------------
-- Fields
-- ---------------------------------------------------------------------------

def Field.arriving (f : Field α) (a : α) : Option Value :=
  if f.omitted a then none else some (f.codec.encode a).canonical

def Field.Returns (f : Field α) (a b : α) : Prop :=
  f.read (f.arriving a) = .ok b

namespace Field.Returns

theorem required (h : c.Returns a b) : (Field.required key c).Returns a b := h

theorem defaulted (h : c.Returns a b) : (Field.defaulted key c d).Returns a b := h

theorem optional {c : Codec α} {a : Option α} (h : ∀ x ∈ a, c.Returns x x)
    (refused : (c.decode .null).isOk = false) : (Field.optional key c).Returns a a := by
  cases a with
  | none => rfl
  | some x => exact (h x rfl).nullable refused

theorem items {c : Codec (List α)} (h : c.Returns as as) : (Field.items key c).Returns as as := by
  cases as with
  | nil => rfl
  | cons a as => exact h

end Field.Returns

-- ---------------------------------------------------------------------------
-- Records
-- ---------------------------------------------------------------------------

namespace Fields

/-- The members of a record, as they arrive but for their order. -/
def arriving (fs : Fields α) (a : α) : List Member :=
  (fs.members a).map fun m => (m.1, m.2.canonical)

/-- Reading finds what it needs by name, so any list of members that leads the same names to
the same values will do. -/
structure Returns (fs : Fields α) (a b : α) : Prop where
  named : ∀ m ∈ fs.members a, m.1 ∈ fs.names
  nodup : ((fs.members a).map Prod.fst).Nodup
  checked : ∀ m ∈ fs.arriving a, fs.check m = .ok ()
  read : ∀ ms : List Member, (∀ name ∈ fs.names, ms.lookup name = (fs.arriving a).lookup name) →
    fs.ofMembers ms = .ok b

theorem map_fst_arriving (fs : Fields α) (a : α) :
    (fs.arriving a).map Prod.fst = (fs.members a).map Prod.fst := by
  simp [arriving]

namespace Returns

theorem mem_names {fs : Fields α} (h : fs.Returns a b) (hm : m ∈ fs.arriving a) :
    m.1 ∈ fs.names := by
  obtain ⟨m', hm', rfl⟩ := List.mem_map.1 hm
  exact h.named m' hm'

theorem nil : Fields.nil.Returns () () where
  named := by simp [Fields.nil]
  nodup := by simp [Fields.nil]
  checked := by simp [Fields.nil, arriving]
  read _ _ := rfl

theorem name_of_mem_member {f : Field α} (h : m ∈ f.member a) : m.1 = f.name := by
  rw [Field.member] at h
  split at h
  · cases h
  · rw [List.mem_singleton.1 h]

theorem arriving_cons (f : Field α) (fs : Fields β) (a : α) (b : β) :
    (Fields.cons f fs).arriving (a, b) =
      ((f.arriving a).map fun v => (f.name, v)).toList ++ fs.arriving b := by
  simp only [Fields.arriving, Fields.cons, Field.member, Field.arriving, List.map_append]
  cases f.omitted a <;> rfl

theorem lookup_arriving_nil (key : String) : (Fields.nil.arriving ()).lookup key = none := rfl

theorem lookup_arriving_cons (f : Field α) (fs : Fields β) (key : String) :
    ((Fields.cons f fs).arriving (a, b)).lookup key =
      (if key = f.name then f.arriving a else none).or ((fs.arriving b).lookup key) := by
  rw [arriving_cons, List.lookup_append]
  congr 1
  cases f.arriving a with
  | none => split <;> rfl
  | some v =>
    split
    · next same => simp [same]
    · next other => simpa using other

theorem cons {f : Field α} {fs : Fields β} (hf : f.Returns a a') (fresh : f.name ∉ fs.names)
    (hfs : fs.Returns b b') : (Fields.cons f fs).Returns (a, b) (a', b') where
  named := by
    intro m hm
    rw [Fields.cons, List.mem_append] at hm
    cases hm with
    | inl first => exact List.mem_cons.2 (.inl (name_of_mem_member first))
    | inr rest => exact List.mem_cons_of_mem _ (hfs.named m rest)
  nodup := by
    rw [Fields.cons, List.map_append, List.nodup_append]
    refine ⟨?_, hfs.nodup, ?_⟩
    · rw [Field.member]
      split <;> simp
    · rintro name first _ rest rfl
      obtain ⟨m, hm, rfl⟩ := List.mem_map.1 first
      obtain ⟨m', hm', hname⟩ := List.mem_map.1 rest
      exact fresh (name_of_mem_member hm ▸ hname ▸ hfs.named m' hm')
  checked := by
    intro m hm
    rw [arriving_cons, List.mem_append] at hm
    cases hm with
    | inl first =>
      obtain ⟨v, hv, rfl⟩ : ∃ v, f.arriving a = some v ∧ (f.name, v) = m := by
        simpa using first
      have : f.codec.decode v = .ok a' := by
        have hread : f.read (f.arriving a) = .ok a' := hf
        rwa [hv, Field.read] at hread
      simp only [Fields.cons, if_true, this, Except.map]
    | inr rest =>
      have hne : m.1 ≠ f.name := fun h => fresh (h ▸ hfs.mem_names rest)
      simp only [Fields.cons, if_neg hne]
      exact hfs.checked m rest
  read := by
    intro ms hms
    have absent : (fs.arriving b).lookup f.name = none :=
      List.lookup_eq_none_iff.2 fun m hm =>
        bne_iff_ne.2 fun h => fresh (h ▸ hfs.mem_names hm)
    have first : ms.lookup f.name = f.arriving a := by
      rw [hms f.name List.mem_cons_self, lookup_arriving_cons, if_pos rfl, absent, Option.or_none]
    have rest : fs.ofMembers ms = .ok b' := by
      refine hfs.read ms fun name hname => ?_
      have hne : name ≠ f.name := fun h => fresh (h ▸ hname)
      rw [hms name (List.mem_cons_of_mem _ hname), lookup_arriving_cons, if_neg hne,
        Option.none_or]
    have hread : f.read (f.arriving a) = .ok a' := hf
    simp only [Fields.cons, first, hread, rest, bind, Except.bind]
    rfl

theorem as {fs : Fields α} {of : α → β} {back : β → α} (h : fs.Returns (back b) (back b'))
    (hof : of (back b') = b') : (fs.as of back).Returns b b' where
  named := h.named
  nodup := h.nodup
  checked := h.checked
  read := by
    intro ms hms
    have : fs.ofMembers ms = .ok (back b') := h.read ms hms
    simp only [Fields.as, this, Except.map, hof]

end Returns

end Fields

theorem Fields.Returns.get?_encode {fs : Fields α} (h : fs.Returns a b) (key : String) :
    ((fs.codec name d).encode a).canonical.get? key = (fs.arriving a).lookup key := by
  have nodup : ((fs.arriving a).map Prod.fst).Nodup := by
    rw [Fields.map_fst_arriving]
    exact h.nodup
  simp only [Fields.codec, Value.canonical, Value.canonicalMembers_eq_map, Value.get?]
  exact Value.lookup_sortMembers nodup key

theorem Codec.Returns.record {fs : Fields α} (h : fs.Returns a b) :
    (fs.codec name d).Returns a b := by
  have nodup : ((fs.arriving a).map Prod.fst).Nodup := by
    rw [Fields.map_fst_arriving]
    exact h.nodup
  have checked : (Value.sortMembers (fs.arriving a)).forM fs.check = .ok () := by
    have (ms : List Member) (hms : ∀ m ∈ ms, fs.check m = .ok ()) : ms.forM fs.check = .ok () := by
      induction ms with
      | nil => rfl
      | cons m ms ih =>
        rw [List.forM_eq_forM, List.forM_cons, hms m List.mem_cons_self]
        exact ih fun m hm => hms m (List.mem_cons_of_mem _ hm)
    exact this _ fun m hm => h.checked m ((Value.sortMembers_perm nodup).mem_iff.1 hm)
  have read : fs.ofMembers (Value.sortMembers (fs.arriving a)) = .ok b :=
    h.read _ fun name _ => Value.lookup_sortMembers nodup name
  simp only [Codec.Returns, Fields.codec, Value.canonical, Value.canonicalMembers_eq_map]
  change (do (Value.sortMembers (fs.arriving a)).forM fs.check
             fs.ofMembers (Value.sortMembers (fs.arriving a))) = _
  rw [checked]
  exact read

end Courier.Json
