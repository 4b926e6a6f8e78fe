import Courier.Http.Body
import Courier.Proofs.Base64

/-!
# Bodies as text

No encoding holds a comma, so the text of a body in parts comes apart at its commas into the
encodings of the parts. An empty part is an empty piece wherever it stands; only a body without
parts cannot be told from one with a single empty part.
-/

namespace Courier

namespace Base64

theorem comma_ne_symbol (n : Nat) : ',' ≠ symbol n := by
  by_cases h : n < 64
  · revert n
    decide
  · have hlarge : symbol n = '/' := by
      rw [symbol, if_neg (by omega), if_neg (by omega), if_neg (by omega), if_neg (by omega)]
    rw [hlarge]
    decide

theorem comma_not_mem_encode (bs : Bytes) : ',' ∉ encode bs := by
  induction bs using encode.induct with
  | case1 => simp [encode]
  | case2 x => simp [encode, comma_ne_symbol, padding]
  | case3 x y => simp [encode, comma_ne_symbol, padding]
  | case4 x y z rest ih => simp [encode, comma_ne_symbol, ih]

end Base64

namespace Body

variable {ps : List Bytes}

theorem joinParts_eq_intercalate (ps : List Bytes) :
    joinParts ps = [','].intercalate (ps.map Base64.encode) := by
  induction ps using joinParts.induct with
  | case1 => rfl
  | case2 p => simp [joinParts]
  | case3 p rest hrest ih =>
    have hne : rest.map Base64.encode ≠ [] := by simpa using hrest
    rw [joinParts, ih, List.map_cons, List.intercalate_cons_of_ne_nil hne, List.append_assoc,
      List.singleton_append]
    exact hrest

theorem splitOn_joinParts (h : ps ≠ []) : (joinParts ps).splitOn ',' = ps.map Base64.encode := by
  rw [joinParts_eq_intercalate]
  refine List.splitOn_intercalate ',' (fun encoding hencoding => ?_) (by simpa using h)
  obtain ⟨p, -, rfl⟩ := List.mem_map.1 hencoding
  exact Base64.comma_not_mem_encode p

/-- The parts that a text tells, if every piece between its commas is an encoding. -/
def partsOf (text : String) : Except Base64.Error (List Bytes) :=
  (text.toList.splitOn ',').mapM Base64.decode

theorem partsOf_rendered (h : ps ≠ []) : partsOf (parts ps).rendered = .ok ps := by
  have hdecode : (Base64.decode ∘ Base64.encode) = fun p => pure (id p) :=
    funext Base64.decode_encode
  rw [partsOf, rendered, String.toList_ofList, splitOn_joinParts h, List.mapM_map, hdecode,
    List.mapM_pure, List.map_id]
  rfl

/-- The text of a body in parts tells the parts, as that of a body in bytes tells the bytes. -/
theorem rendered_tells_content :
    (∀ ps : List Bytes, ps ≠ [] →
      ((parts ps).rendered.toList.splitOn ',').mapM Base64.decode = .ok ps) ∧
    (∀ ps qs : List Bytes, ps ≠ [] → qs ≠ [] → (parts ps).rendered = (parts qs).rendered →
      ps = qs) ∧
    ∀ bs, Base64.decode (bytes bs).rendered.toList = .ok bs := by
  refine ⟨fun ps hps => partsOf_rendered hps, fun ps qs hps hqs heq => ?_, fun bs => ?_⟩
  · have hsame := partsOf_rendered hps
    rw [heq, partsOf_rendered hqs] at hsame
    exact (Except.ok.inj hsame).symm
  · rw [rendered, Base64.text, String.toList_ofList, Base64.decode_encode]

/-- Empty parts in front, in the middle and at the end, and parts of every padding. -/
theorem rendered_tells_empty_parts :
    let ps : List Bytes := [[], [255], [], [1, 2], [97, 98, 99], []]
    (ps ≠ [] ∧ [([] : Bytes)] ≠ []) ∧ (parts ps).rendered = ",/w==,,AQI=,YWJj," ∧
      ((parts ps).rendered.toList.splitOn ',').mapM Base64.decode = .ok ps ∧
      (parts ps).rendered ≠ (parts [[]]).rendered := by
  intro ps
  have hps : ps ≠ [] := List.cons_ne_nil _ _
  have hone : [([] : Bytes)] ≠ [] := List.cons_ne_nil _ _
  refine ⟨⟨hps, hone⟩, by decide, rendered_tells_content.1 ps hps, fun heq => ?_⟩
  have hsame : ps = [[]] := rendered_tells_content.2.1 ps [[]] hps hone heq
  exact absurd hsame (by decide)

end Body

end Courier
