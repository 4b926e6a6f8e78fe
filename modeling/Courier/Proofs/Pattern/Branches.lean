import Courier.Proofs.Pattern.Classes

/-!
# Alternations and added text

An alternation that ends with its text reads the same when something is added, and stops before
the parenthesis that was added.
-/

namespace Courier.Pattern

theorem readBranches_reads
    (h : readBranches n spaced branches done cs = .ok (tree, rest)) :
    Finds n (fun m => readBranches m spaced branches done) cs tree rest := by
  -- The part in front is read alike by its own reader, everything behind it by induction.
  induction n generalizing spaced branches done cs tree rest with
  | zero => cases h
  | succ n ih =>
    obtain ⟨_, reached, hskip⟩ := (Reached.start cs).skip spaced
    simp only [readBranches] at h
    split at h
    · next hend =>
      -- Only here does the alternation see what was added, and that ends it as well.
      cases h
      rw [hend] at reached
      refine ⟨_, reached, forall_succ_le fun m _ s hs => ?_⟩
      obtain hnil | ⟨more, hclose⟩ := (reached.closing hs).cases
      · simp only [readBranches, hskip s hs, hnil]
      · simp only [readBranches, hskip s hs, hclose]
    · next more hmore =>
      cases h
      rw [hmore] at reached
      obtain ⟨_, -, hclose⟩ := reached.cons
      refine ⟨_, reached, forall_succ_le fun m _ s hs => ?_⟩
      simp only [readBranches, hskip s hs, hclose]
    · next more hmore =>
      rw [hmore] at reached
      obtain ⟨_, reached, hbar⟩ := reached.cons
      refine reached.finds (ih h) fun m hm s hs => ?_
      simp only [readBranches, hskip s hs, hbar]
    · next more hmore =>
      rw [hmore] at reached
      obtain ⟨_, reached, hparen⟩ := reached.cons
      obtain ⟨_, reached, hblank⟩ := reached.skip spaced
      obtain ⟨⟨opening, out⟩, hopening, h⟩ := bind_ok.1 h
      obtain ⟨_, reached, hopen⟩ := reached.read (readOpening_reads (n := n) hopening)
      cases opening with
      | flags change =>
        refine reached.finds (ih h) fun m hm s hs => ?_
        simp only [readBranches, hskip s hs, hparen, hblank s hs, hopen m hm s hs, bind,
          Except.bind]
      | group change name =>
        obtain ⟨⟨inner, out⟩, hinner, h⟩ := bind_ok.1 h
        obtain ⟨_, reached, hread⟩ := reached.read (ih hinner)
        simp only at h
        split at h
        · next more =>
          obtain ⟨_, reached, hclose⟩ := reached.cons
          refine reached.finds (ih h) fun m hm s hs => ?_
          simp only [readBranches, hskip s hs, hparen, hblank s hs, hopen m hm s hs, bind,
            Except.bind, hread m hm s hs, hclose]
        · cases h
    · next more hmore =>
      rw [hmore] at reached
      obtain ⟨_, reached, hbracket⟩ := reached.cons
      have hstart := readClassOpening_reads (n := n) spaced more
      rcases hfront : readClassOpening spaced more with ⟨negated, items, start⟩
      rw [hfront] at h hstart
      obtain ⟨⟨set, out⟩, hset, h⟩ := bind_ok.1 h
      obtain ⟨_, reached, hopening⟩ := reached.read hstart
      obtain ⟨_, reached, hread⟩ :=
        reached.readFueled (readClass_reads hset) (fun x => x.length + 1) fun s => by simp
      refine reached.finds (ih h) fun m hm s hs => ?_
      simp only [readBranches, hskip s hs, hbracket, hopening m hm s hs, hread s hs, bind,
        Except.bind]
    iterate 3
      · next more hmore =>
        rw [hmore] at reached
        obtain ⟨_, reached, hmark⟩ := reached.cons
        obtain ⟨_, reached, hlazy⟩ := reached.read (dropLazy_reads (n := n) more)
        obtain ⟨operand, hoperand, h⟩ := bind_ok.1 h
        refine reached.finds (ih h) fun m hm s hs => ?_
        simp only [readBranches, hskip s hs, hmark, hoperand, hlazy m hm s hs, id_eq, bind,
          Except.bind]
    · next more hmore =>
      rw [hmore] at reached
      obtain ⟨_, reached, hbrace⟩ := reached.cons
      split at h
      · cases h
      · next hdone =>
        obtain ⟨⟨⟨least, most⟩, out⟩, hcounts, h⟩ := bind_ok.1 h
        obtain ⟨operand, hoperand, h⟩ := bind_ok.1 h
        obtain ⟨_, reached, hread⟩ := reached.read (readCounts_reads (n := n) hcounts)
        refine reached.finds (ih h) fun m hm s hs => ?_
        simp only [readBranches, hskip s hs, hbrace, hdone, hread m hm s hs, hoperand, bind,
          Except.bind]
        rfl
    iterate 3
      · next more hmore =>
        rw [hmore] at reached
        obtain ⟨_, reached, hmark⟩ := reached.cons
        refine reached.finds (ih h) fun m hm s hs => ?_
        simp only [readBranches, hskip s hs, hmark]
    · next more hmore =>
      rw [hmore] at reached
      obtain ⟨_, reached, hslash⟩ := reached.cons
      obtain ⟨⟨atom, out⟩, hatom, h⟩ := bind_ok.1 h
      obtain ⟨_, reached, hread⟩ := reached.read (readEscape_reads (n := n) hatom)
      refine reached.finds (ih h) fun m hm s hs => ?_
      simp only [readBranches, hskip s hs, hslash, hread m hm s hs, bind, Except.bind]
    · next c more hclose hbar hparen hbracket hlazy hstar hplus hbrace hdot hhat hdollar hslash
        hmore =>
      rw [hmore] at reached
      obtain ⟨_, reached, hc⟩ := reached.cons
      refine reached.finds (ih h) fun m hm s hs => ?_
      simp only [readBranches, hskip s hs, hc]

end Courier.Pattern
