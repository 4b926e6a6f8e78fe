import Courier.Pattern.Meaning
import Courier.Proofs.Pattern.Matching
import Courier.Proofs.Pattern.Readers

/-!
# Repetitions

Every repetition that is read has its bounds in order, and so has the expression it stands for.
-/

namespace Courier.Pattern

-- ---------------------------------------------------------------------------
-- Trees
-- ---------------------------------------------------------------------------

mutual
def Tree.Ordered : Tree → Prop
  | .repetition t least most => t.Ordered ∧ ∀ n ∈ most, least ≤ n
  | .group _ _ t => t.Ordered
  | .concat ts => Tree.AllOrdered ts
  | .alternation ts => Tree.AllOrdered ts
  | _ => True

def Tree.AllOrdered : List Tree → Prop
  | [] => True
  | t :: ts => t.Ordered ∧ Tree.AllOrdered ts
end

theorem allOrdered_iff {ts : List Tree} : Tree.AllOrdered ts ↔ ∀ t ∈ ts, t.Ordered := by
  induction ts with
  | nil => simp [Tree.AllOrdered]
  | cons t ts ih => simp [Tree.AllOrdered, ih]

theorem Tree.AllOrdered.reverse {ts : List Tree} (h : Tree.AllOrdered ts) :
    Tree.AllOrdered ts.reverse := by
  simpa [allOrdered_iff] using h

theorem ordered_ofSequence {ts : List Tree} (h : Tree.AllOrdered ts) :
    (Tree.ofSequence ts).Ordered := by
  unfold Tree.ofSequence
  split
  · trivial
  · exact h.1
  · exact h

theorem ordered_ofBranches {ts : List Tree} (h : Tree.AllOrdered ts) :
    (Tree.ofBranches ts).Ordered := by
  unfold Tree.ofBranches
  split
  · trivial
  · exact h.1
  · exact h

-- ---------------------------------------------------------------------------
-- Reading
-- ---------------------------------------------------------------------------

theorem ordered_atom (a : Atom) : a.tree.Ordered := by
  cases a <;> trivial

theorem ordered_repeated {done ts : List Tree} {least : Nat} {most : Option Nat}
    (hdone : Tree.AllOrdered done) (hbounds : ∀ n ∈ most, least ≤ n)
    (h : repeated done least most = .ok ts) : Tree.AllOrdered ts := by
  unfold repeated at h
  split at h
  · cases h
  · cases h
  · cases h
  · cases h
    exact ⟨⟨hdone.1, hbounds⟩, hdone.2⟩

theorem bounds_closeCounts (h : closeCounts spaced least most cs = .ok ((l, m), rest)) :
    ∀ n ∈ m, l ≤ n := by
  unfold closeCounts at h
  split at h
  · split at h
    · next hordered =>
      cases h
      rintro n rfl
      simpa using hordered
    · cases h
  · cases h

theorem bounds_readCounts (h : readCounts spaced cs = .ok ((l, m), rest)) : ∀ n ∈ m, l ≤ n := by
  obtain ⟨⟨count, out⟩, -, h⟩ := bind_ok.1 h
  split at h
  · split at h
    · exact bounds_closeCounts h
    · obtain ⟨⟨most, out⟩, -, h⟩ := bind_ok.1 h
      split at h
      · exact bounds_closeCounts h
      · cases h
  · exact bounds_closeCounts h
  · cases h

theorem ordered_readBranches (h : readBranches n spaced branches done cs = .ok (tree, rest))
    (hbranches : Tree.AllOrdered branches) (hdone : Tree.AllOrdered done) : tree.Ordered := by
  induction n generalizing spaced branches done cs tree rest with
  | zero => cases h
  | succ n ih =>
    simp only [readBranches] at h
    have hended : Tree.AllOrdered (Tree.ofSequence done.reverse :: branches) :=
      ⟨ordered_ofSequence hdone.reverse, hbranches⟩
    split at h
    · cases h
      exact ordered_ofBranches hended.reverse
    · cases h
      exact ordered_ofBranches hended.reverse
    · exact ih h hended trivial
    · obtain ⟨⟨opening, out⟩, -, h⟩ := bind_ok.1 h
      cases opening with
      | flags change => exact ih h hbranches ⟨trivial, hdone⟩
      | group change name =>
        obtain ⟨⟨inner, out⟩, hinner, h⟩ := bind_ok.1 h
        simp only at h
        split at h
        · have hgroup : inner.Ordered := ih hinner trivial trivial
          exact ih h hbranches ⟨hgroup, hdone⟩
        · cases h
    · obtain ⟨⟨set, out⟩, -, h⟩ := bind_ok.1 h
      exact ih h hbranches ⟨trivial, hdone⟩
    iterate 3
      · obtain ⟨operand, hoperand, h⟩ := bind_ok.1 h
        exact ih h hbranches (ordered_repeated hdone (by simp) hoperand)
    · split at h
      · cases h
      · obtain ⟨⟨⟨least, most⟩, out⟩, hcounts, h⟩ := bind_ok.1 h
        obtain ⟨operand, hoperand, h⟩ := bind_ok.1 h
        exact ih h hbranches (ordered_repeated hdone (bounds_readCounts hcounts) hoperand)
    iterate 3
      · exact ih h hbranches ⟨trivial, hdone⟩
    · obtain ⟨⟨atom, out⟩, -, h⟩ := bind_ok.1 h
      exact ih h hbranches ⟨ordered_atom atom, hdone⟩
    · exact ih h hbranches ⟨trivial, hdone⟩

-- ---------------------------------------------------------------------------
-- Meaning
-- ---------------------------------------------------------------------------

theorem ordered_ofList {rs : List Regex} (h : ∀ r ∈ rs, r.Ordered) : (Regex.ofList rs).Ordered := by
  fun_induction Regex.ofList rs with
  | case1 => trivial
  | case2 r => exact h r List.mem_cons_self
  | case3 r rs _ ih =>
    exact ⟨h r List.mem_cons_self, ih fun x hx => h x (List.mem_cons_of_mem r hx)⟩

theorem ordered_anyOf {rs : List Regex} (h : ∀ r ∈ rs, r.Ordered) : (Regex.anyOf rs).Ordered := by
  fun_induction Regex.anyOf rs with
  | case1 => trivial
  | case2 r => exact h r List.mem_cons_self
  | case3 r rs _ ih =>
    exact ⟨h r List.mem_cons_self, ih fun x hx => h x (List.mem_cons_of_mem r hx)⟩

mutual
theorem ordered_meaning (t : Tree) (ht : t.Ordered) (h : t.meaning mode = .ok (r, after)) :
    r.Ordered := by
  match t, ht, h with
  | .empty, _, h => cases h; trivial
  | .flags change, _, h => cases h; trivial
  | .literal l, _, h =>
    obtain ⟨x, -, h⟩ := bind_ok.1 h
    cases h
    trivial
  | .dot, _, h =>
    simp only [Tree.meaning] at h
    split at h
    · cases h
      trivial
    · cases h
  | .assertion a, _, h => cases h; trivial
  | .named c, _, h =>
    obtain ⟨x, -, h⟩ := bind_ok.1 h
    cases h
    trivial
  | .bracketed negated s, _, h =>
    obtain ⟨x, -, h⟩ := bind_ok.1 h
    obtain ⟨x, -, h⟩ := bind_ok.1 h
    cases h
    trivial
  | .repetition t least most, ht, h =>
    obtain ⟨⟨r', after⟩, hr, h⟩ := bind_ok.1 h
    cases h
    exact ⟨ordered_meaning t ht.1 hr, ht.2⟩
  | .group change name t, ht, h =>
    obtain ⟨⟨r', after⟩, hr, h⟩ := bind_ok.1 h
    cases h
    exact ordered_meaning t ht hr
  | .concat ts, ht, h =>
    obtain ⟨⟨rs, after⟩, hrs, h⟩ := bind_ok.1 h
    cases h
    exact ordered_ofList (ordered_meanings ts ht hrs)
  | .alternation ts, ht, h =>
    obtain ⟨⟨rs, after⟩, hrs, h⟩ := bind_ok.1 h
    cases h
    exact ordered_anyOf (ordered_meanings ts ht hrs)

theorem ordered_meanings (ts : List Tree) (hts : Tree.AllOrdered ts)
    (h : Tree.meanings mode ts = .ok (rs, after)) : ∀ r ∈ rs, r.Ordered := by
  match ts, hts, h with
  | [], _, h => cases h; simp
  | t :: ts, hts, h =>
    obtain ⟨⟨r, next⟩, hr, h⟩ := bind_ok.1 h
    obtain ⟨⟨rs', after⟩, hrs, h⟩ := bind_ok.1 h
    cases h
    exact List.forall_mem_cons.2 ⟨ordered_meaning t hts.1 hr, ordered_meanings ts hts.2 hrs⟩
end

end Courier.Pattern
