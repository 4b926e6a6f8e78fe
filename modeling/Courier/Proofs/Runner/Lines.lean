import Mathlib.Data.List.InsertIdx
import Courier.Proofs.Runner.Batching

/-!
# Lines of an input

A line that is text but no record costs only itself: without it the run is the same. A line that is
no text ends the run: what the full batches in front of it did stands, the batch that was being
filled is lost, and the relay is not drained. So the run without the line differs from the run with
it, unless another line is no text either.
-/

namespace Courier.Runner

variable {σ : Type}

-- ---------------------------------------------------------------------------
-- Leaving a line out
-- ---------------------------------------------------------------------------

def dropLine : Nat → Bytes → Bytes
  | _, [] => []
  | 0, b :: rest => if b = 10 then rest else dropLine 0 rest
  | k + 1, b :: rest => if b = 10 then b :: dropLine k rest else b :: dropLine (k + 1) rest

theorem cutLines_dropLine (k : Nat) (input : Bytes) :
    cutLines (dropLine k input) = (cutLines input).eraseIdx k := by
  induction input generalizing k with
  | nil => cases k <;> rfl
  | cons b rest ih =>
    by_cases hb : b = 10
    · cases k with
      | zero => simp [dropLine, cutLines, hb]
      | succ k => simp [dropLine, cutLines, hb, ih]
    · cases k with
      | zero =>
        simp only [dropLine, cutLines, hb, if_false, ih]
        cases cutLines rest <;> rfl
      | succ k =>
        simp only [dropLine, cutLines, hb, if_false, ih]
        cases cutLines rest <;> rfl

namespace Intake

theorem ofLines_eraseIdx {t : Tray} (h : t.Open) {lines : List (Option String)} {k : Nat}
    {line : String} (hline : lines[k]? = some (some line)) (hrecord : recordOf? line = none) :
    ofLines t (lines.eraseIdx k) = ofLines t lines := by
  induction lines generalizing t k with
  | nil => simp at hline
  | cons first lines ih =>
    cases k with
    | zero =>
      obtain rfl : first = some line := by simpa using hline
      simp only [List.eraseIdx_cons_zero, ofLines, t.add_of_none h hrecord]
    | succ k =>
      have hlater : lines[k]? = some (some line) := by simpa using hline
      cases first with
      | none => rfl
      | some first =>
        rcases t.add_cases h first with ⟨t', ht', hopen, -⟩ | ⟨batch, ht', -⟩
        · simp only [List.eraseIdx_cons_succ, ofLines, ht', ih hopen hlater]
        · simp only [List.eraseIdx_cons_succ, ofLines, ht', ih t.open_empty hlater]

/-- Nothing behind a line that is no text counts. -/
theorem ofLines_append_none (t : Tray) (before after : List (Option String)) :
    ofLines t (before ++ none :: after) = { ofLines t before with ended := false } := by
  induction before generalizing t with
  | nil => rfl
  | cons line before ih =>
    cases line with
    | none => rfl
    | some line =>
      simp only [List.cons_append, ofLines]
      split <;> rw [ih]

theorem batches_of_not_ended {i : Intake} (h : i.ended = false) : i.batches = i.full := by
  simp [batches, h]

section
variable {size : Nat} {input : Bytes} {k : Nat} {line : Bytes}

theorem ofBytes_dropLine {text : String} (hline : (cutLines input)[k]? = some line)
    (htext : lineOf? line = some text) (hrecord : recordOf? text = none) :
    ofBytes size (dropLine k input) = ofBytes size input := by
  have hmap : ((cutLines input).map lineOf?)[k]? = some (some text) := by
    rw [List.getElem?_map, hline, Option.map_some, htext]
  rw [ofBytes, cutLines_dropLine, ← List.eraseIdx_map]
  exact ofLines_eraseIdx (Tray.open_empty { size }) hmap hrecord

theorem ended_ofBytes :
    (ofBytes size input).ended = true ↔ ∀ line ∈ cutLines input, lineOf? line ≠ none := by
  rw [ofBytes, ended_ofLines]
  simp [Option.ne_none_iff_isSome]

theorem ended_ofBytes_dropLine :
    (ofBytes size (dropLine k input)).ended = true ↔
      ∀ m other, m ≠ k → (cutLines input)[m]? = some other → lineOf? other ≠ none := by
  rw [ended_ofBytes, cutLines_dropLine]
  constructor
  · intro h m other hm hother
    exact h other (List.mem_eraseIdx_iff_getElem?.2 ⟨m, hm, hother⟩)
  · intro h other hmem
    obtain ⟨m, hm, hother⟩ := List.mem_eraseIdx_iff_getElem?.1 hmem
    exact h m other hm hother

theorem ended_ofBytes_iff (hline : (cutLines input)[k]? = some line) :
    (ofBytes size input).ended = true ↔
      lineOf? line ≠ none ∧ (ofBytes size (dropLine k input)).ended = true := by
  rw [ended_ofBytes_dropLine, ended_ofBytes]
  constructor
  · intro h
    exact ⟨h line (List.mem_of_getElem? hline), fun m other _ hother =>
      h other (List.mem_of_getElem? hother)⟩
  · rintro ⟨htext, hothers⟩ other hmem
    obtain ⟨m, hother⟩ := List.mem_iff_getElem?.1 hmem
    by_cases hm : m = k
    · subst hm
      rwa [← Option.some.inj (hline.symm.trans hother)]
    · exact hothers m other hm hother

theorem ofBytes_of_unreadable (hline : (cutLines input)[k]? = some line)
    (hbytes : lineOf? line = none) :
    ofBytes size input =
      { ofLines { size } (((cutLines input).take k).map lineOf?) with ended := false } := by
  obtain ⟨hk, rfl⟩ := List.getElem?_eq_some_iff.1 hline
  have hsplit : (cutLines input).map lineOf? = ((cutLines input).take k).map lineOf? ++
      none :: ((cutLines input).drop (k + 1)).map lineOf? := by
    rw [← hbytes, ← List.map_cons, List.getElem_cons_drop, ← List.map_append,
      List.take_append_drop]
  rw [ofBytes, hsplit, ofLines_append_none]

end

end Intake

-- ---------------------------------------------------------------------------
-- Runs with and without a line
-- ---------------------------------------------------------------------------

/-- What a line without a record costs, and when that is only itself: a line that is text may go,
one that is no text takes the batch along that was being filled, and the draining of the relay
unless another line does so too. -/
theorem line_costs_itself_iff [Pattern.Room] (size : Nat) (input : Bytes) (k : Nat) (line : Bytes)
    (hline : (cutLines input)[k]? = some line) (hrecord : (lineOf? line).bind recordOf? = none) :
    let i := Intake.ofBytes size input
    let j := Intake.ofBytes size (dropLine k input)
    let before := Intake.ofLines { size } (((cutLines input).take k).map lineOf?)
    (lineOf? line ≠ none → j = i ∧
      ∀ (setting : Setting) (worldOf : Settings → Wire.Client → World σ) (outside : σ),
        run setting worldOf outside (dropLine k input) = run setting worldOf outside input) ∧
    (lineOf? line = none → ∀ (setting : Setting) (worldOf : Settings → Wire.Client → World σ)
      (outside : σ) (o : Options) (s : Session σ),
      prepare setting worldOf outside = .ok (o, s) → o.batchSize.toNat = size →
      ∃ out last, s.WorksOff before.full out last ∧
        run setting worldOf outside input = ⟨.failure, out.map OutboundRecord.text⟩) ∧
    (∀ (setting : Setting) (worldOf : Settings → Wire.Client → World σ) (outside : σ)
      (o : Options) (s : Session σ),
      prepare setting worldOf outside = .ok (o, s) → o.batchSize.toNat = size →
      ∃ out last, s.WorksOff j.batches out last ∧
        run setting worldOf outside (dropLine k input) =
          if j.ended then
            ⟨.success, (out ++ (last.giveOut Relay.drain).1).map OutboundRecord.text⟩
          else ⟨.failure, out.map OutboundRecord.text⟩) ∧
    ((j.ended = true ↔ i.ended = true) ↔ lineOf? line ≠ none ∨
      ∃ m other, m ≠ k ∧ (cutLines input)[m]? = some other ∧ lineOf? other = none) := by
  intro i j before
  refine ⟨fun htext => ?_, fun hbytes => ?_, ?_, ?_⟩
  · obtain ⟨text, ht⟩ := Option.ne_none_iff_exists'.1 htext
    have hnone : recordOf? text = none := by simpa [ht] using hrecord
    have hsame : ∀ n, Intake.ofBytes n (dropLine k input) = Intake.ofBytes n input := fun n =>
      Intake.ofBytes_dropLine hline ht hnone
    exact ⟨hsame size, fun setting worldOf outside => by simp only [run, hsame]⟩
  · have hi : i = { before with ended := false } := Intake.ofBytes_of_unreadable hline hbytes
    have hended : i.ended = false := by rw [hi]
    rintro setting worldOf outside o s h rfl
    obtain ⟨out, last, hworks, hrun⟩ := run_worksOff h input
    have hbatches : i.batches = before.full := by
      rw [Intake.batches_of_not_ended hended, hi]
    exact ⟨out, last, hbatches ▸ hworks, hrun.trans (if_neg (by rw [hended]; decide))⟩
  · rintro setting worldOf outside o s h rfl
    exact run_worksOff h _
  · have hothers : ¬ j.ended = true ↔
        ∃ m other, m ≠ k ∧ (cutLines input)[m]? = some other ∧ lineOf? other = none := by
      simp [j, Intake.ended_ofBytes_dropLine]
    rw [Intake.ended_ofBytes_iff hline, ← hothers]
    by_cases htext : lineOf? line = none <;> simp [htext, j]

open scoped Pattern.Room in
/-- A record, a line that is no record and one that is no text: the second may go, the third
keeps the relay from being drained. -/
theorem lines_that_give_no_record :
    let input := Wire.utf8 "\x7b\"topic\":\"calls\"\x7d\nno record\n".toList ++ [255, 10]
    Intake.ofBytes 100 (dropLine 1 input) = Intake.ofBytes 100 input ∧
    ¬ ((Intake.ofBytes 100 (dropLine 2 input)).ended = true ↔
      (Intake.ofBytes 100 input).ended = true) := by
  intro input
  have hsecond : (cutLines input)[1]? = some (Wire.utf8 "no record".toList) := by decide +kernel
  have hthird : (cutLines input)[2]? = some [255] := by decide +kernel
  have hothers : ∀ m, m ≠ 2 → ∀ other, (cutLines input)[m]? = some other →
      lineOf? other ≠ none := by
    intro m hm other hother
    have hall : ∀ line ∈ (cutLines input).eraseIdx 2, lineOf? line ≠ none := by decide +kernel
    exact hall other (List.mem_eraseIdx_iff_getElem?.2 ⟨m, hm, hother⟩)
  obtain ⟨htext, -, -, -⟩ :=
    line_costs_itself_iff (σ := Unit) 100 input 1 _ hsecond (by decide +kernel)
  obtain ⟨-, -, -, hdrain⟩ :=
    line_costs_itself_iff (σ := Unit) 100 input 2 _ hthird (by decide +kernel)
  have hempty : lineOf? [255] = none := by decide +kernel
  refine ⟨(htext (by decide +kernel)).1, fun hiff => ?_⟩
  rcases hdrain.1 hiff with h | ⟨m, other, hm, hother, hnone⟩
  · exact h hempty
  · exact hothers m hm other hother hnone

/-- A record, then a line that is no text: the record is never handed over and nothing is drained,
though both happen without the line. -/
theorem unreadable_line_costs_more :
    ¬ ∀ (size : Nat) (input : Bytes) (k : Nat) (line : Bytes),
      (cutLines input)[k]? = some line → (lineOf? line).bind recordOf? = none →
      (Intake.ofBytes size (dropLine k input)).batches.flatten =
        (Intake.ofBytes size input).batches.flatten ∧
      ((Intake.ofBytes size (dropLine k input)).ended = true ↔
        (Intake.ofBytes size input).ended = true) := by
  intro h
  let record : Bytes := Wire.utf8 "\x7b\"topic\":\"calls\"\x7d".toList
  have hsame := (h 100 (record ++ [10, 255, 10]) 1 [255] (by decide) (by decide +kernel)).1
  have hlength := congrArg List.length hsame
  revert hlength
  decide +kernel

end Courier.Runner
