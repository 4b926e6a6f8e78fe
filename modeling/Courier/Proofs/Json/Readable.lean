import Courier.Json.Codec
import Courier.Proofs.Json.Parsing

/-!
# Written forms that are read back

How deep a written form is nested, and whether its numbers are read back, is settled part by part:
a list or a record is one container around what its parts are written as.
-/

namespace Courier.Json

theorem Value.readable_number (h : n.Returns) : (number n).Readable d :=
  ⟨(depth_number n).symm ▸ Nat.zero_le d, (returns_number n).2 h⟩

def Codec.Writes (c : Codec α) (d : Nat) (a : α) : Prop :=
  (c.encode a).Readable d

def Fields.Writes (fs : Fields α) (d : Nat) (a : α) : Prop :=
  ∀ m ∈ fs.members a, m.2.Readable d

namespace Codec.Writes

theorem text (s : String) : Codec.text.Writes d s :=
  ⟨Nat.zero_le d, rfl⟩

theorem boolean (b : Bool) : Codec.boolean.Writes d b :=
  ⟨Nat.zero_le d, rfl⟩

theorem unsigned (ofNat : Nat → α) (toUInt64 : α → UInt64) :
    (Codec.unsigned name size ofNat toUInt64).Writes d a :=
  Value.readable_number (Number.returns_integer _ _)

theorem double (h : x.isFinite = true → (Number.float x).Returns) : Codec.double.Writes d x := by
  simp only [Codec.Writes, Codec.double]
  split
  · next hx => exact Value.readable_number (h hx)
  · exact ⟨Nat.zero_le d, rfl⟩

theorem nullable {c : Codec α} {a : Option α} (h : ∀ x ∈ a, c.Writes d x) :
    c.nullable.Writes d a := by
  cases a with
  | none => exact ⟨Nat.zero_le d, rfl⟩
  | some x => exact h x rfl

theorem list {c : Codec α} (h : ∀ a ∈ as, c.Writes d a) : c.list.Writes (d + 1) as := by
  refine (Value.readable_array _).2 ⟨d, rfl, fun v hv => ?_⟩
  obtain ⟨a, ha, rfl⟩ := List.mem_map.1 hv
  exact h a ha

theorem pair {c : Codec α} {e : Codec β} (h : c.Writes d a) (h' : e.Writes d b) :
    (c.pair e).Writes (d + 1) (a, b) := by
  refine (Value.readable_array _).2 ⟨d, rfl, fun v hv => ?_⟩
  simp only [List.mem_cons, List.not_mem_nil, or_false] at hv
  rcases hv with rfl | rfl
  · exact h
  · exact h'

theorem refine {c : Codec α} {of : α → Except String β} {back : β → α} (h : c.Writes d (back b)) :
    (c.refine of back).Writes d b := h

theorem variant (names : List (α × String)) (name : α → String) (dialect : Dialect) (a : α) :
    (Codec.variant names name dialect).Writes d a :=
  ⟨Nat.zero_le d, rfl⟩

theorem record {fs : Fields α} (h : fs.Writes d a) : (fs.codec name dialect).Writes (d + 1) a :=
  (Value.readable_object _).2 ⟨d, rfl, h⟩

end Codec.Writes

namespace Fields.Writes

theorem nil : Fields.nil.Writes d () :=
  fun _ hm => nomatch hm

theorem cons {f : Field α} {fs : Fields β} (hf : f.codec.Writes d a) (hfs : fs.Writes d b) :
    (Fields.cons f fs).Writes d (a, b) := by
  intro m hm
  rcases List.mem_append.1 hm with hm | hm
  · rw [Field.member] at hm
    split at hm
    · cases hm
    · rw [List.mem_singleton.1 hm]
      exact hf
  · exact hfs m hm

theorem as {fs : Fields α} {of : α → β} {back : β → α} (h : fs.Writes d (back b)) :
    (fs.as of back).Writes d b := h

end Fields.Writes

end Courier.Json
