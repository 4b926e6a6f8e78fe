import Mathlib.Data.List.TakeWhile
import Courier.Proofs.Pattern.Readers

/-!
# Classes and added text

The same for classes of characters. Two of their readers look ahead: for the end of a class in
brackets and colons, which cannot lie in what is added, and for the character behind a minus sign,
which is there if the class is closed at all.
-/

namespace Courier.Pattern

variable {cs rest s : List Char}

-- ---------------------------------------------------------------------------
-- Classes in brackets and colons
-- ---------------------------------------------------------------------------

theorem dropWhile_ne_colon (hs : Closing s) : s.dropWhile (· ≠ ':') = [] :=
  List.dropWhile_eq_nil_iff.2 fun _ hc => decide_eq_true fun e => hs.colon (e ▸ hc)

theorem takeWhile_append_of_dropWhile {p : Char → Bool} (h : cs.dropWhile p ≠ []) :
    (cs ++ s).takeWhile p = cs.takeWhile p := by
  rw [List.takeWhile_append, if_neg]
  intro hall
  have hlen := congrArg List.length (List.takeWhile_append_dropWhile (p := p) (l := cs))
  rw [List.length_append, hall] at hlen
  exact h (List.length_eq_zero_iff.1 (by omega))

theorem dropWhile_append_of_ne_nil {p : Char → Bool} (h : cs.dropWhile p ≠ []) :
    (cs ++ s).dropWhile p = cs.dropWhile p ++ s := by
  rw [List.dropWhile_append, if_neg]
  simpa using h

theorem readPosixName?_reads (h : readPosixName? negated cs = some (a, rest)) :
    Reads n (fun _ => readPosixName? negated) cs (fun out => some (a, out)) rest := by
  rw [readPosixName?] at h
  split at h
  · next more hmore =>
    obtain ⟨kind, hkind, h⟩ := Option.map_eq_some_iff.1 h
    obtain ⟨rfl, rfl⟩ := Prod.mk.inj h
    have hne : cs.dropWhile (· ≠ ':') ≠ [] := by rw [hmore]; exact nofun
    have hsuffix : more <:+ cs := by
      have h1 : cs.dropWhile (· ≠ ':') <:+ cs := List.dropWhile_suffix _
      rw [hmore] at h1
      exact ((List.suffix_cons ']' more).trans (List.suffix_cons ':' _)).trans h1
    refine ⟨(more ++ ·), ⟨hsuffix, .inl fun _ => rfl⟩, fun m _ s _ => ?_⟩
    simp only [readPosixName?]
    rw [dropWhile_append_of_ne_nil hne, takeWhile_append_of_dropWhile hne, hmore]
    simp only [List.cons_append, hkind, Option.map_some]
  · cases h

theorem readPosixName?_append_none (h : readPosixName? negated cs = none) (hs : Closing s) :
    readPosixName? negated (cs ++ s) = none := by
  rw [readPosixName?] at h ⊢
  cases hcs : cs.dropWhile (· ≠ ':') with
  | nil => rw [List.dropWhile_append, hcs, List.isEmpty_nil, if_pos rfl, dropWhile_ne_colon hs]
  | cons c more =>
    have hne : cs.dropWhile (· ≠ ':') ≠ [] := by rw [hcs]; exact nofun
    rw [hcs] at h
    rw [dropWhile_append_of_ne_nil hne, takeWhile_append_of_dropWhile hne, hcs, List.cons_append]
    cases more with
    | nil =>
      obtain rfl | ⟨end_, rfl⟩ := hs.cases
      · exact h
      · simp
    | cons d more =>
      by_cases hc : c = ':' ∧ d = ']'
      · obtain ⟨rfl, rfl⟩ := hc
        simp only [Option.map_eq_none_iff] at h
        simp only [List.cons_append, h, Option.map_none]
      · split
        · next heq =>
          obtain ⟨hfirst, htail⟩ := List.cons.inj heq
          exact absurd ⟨hfirst, (List.cons.inj htail).1⟩ hc
        · rfl

theorem readPosix?_reads (h : readPosix? cs = some (a, rest)) :
    Reads n (fun _ => readPosix?) cs (fun out => some (a, out)) rest := by
  rw [readPosix?.eq_def] at h
  split at h
  · next more =>
    obtain ⟨_, reached, hcolon⟩ := (Reached.start (':' :: '^' :: more)).cons
    obtain ⟨_, reached, hhat⟩ := reached.cons
    obtain ⟨_, reached, hrest⟩ := reached.read (readPosixName?_reads (n := n) h)
    refine ⟨_, reached, fun m hm s hs => ?_⟩
    simp only [hcolon, hhat, readPosix?, hrest m hm s hs]
  · next more hhat =>
    obtain ⟨_, reached, hcolon⟩ := (Reached.start (':' :: more)).cons
    obtain ⟨_, named, hrest⟩ := reached.read (readPosixName?_reads (n := n) h)
    refine ⟨_, named, fun m hm s hs => ?_⟩
    have hhat := reached.ne_cons (by decide) hs hhat
    simp only [hcolon, readPosix?, hrest m hm s hs]
  · cases h

theorem readPosix?_append_none (h : readPosix? cs = none) (hs : Closing s) :
    readPosix? (cs ++ s) = none := by
  rw [readPosix?.eq_def] at h
  split at h
  · exact readPosixName?_append_none h hs
  · next more hhat =>
    have hhat := (Reached.start more).ne_cons (by decide) hs hhat
    simp only [List.cons_append, readPosix?]
    exact readPosixName?_append_none h hs
  · next hcolon =>
    have hcolon := (Reached.start cs).ne_cons (by decide) hs hcolon
    have hhat (tail : List Char) := hcolon ('^' :: tail)
    simp only [readPosix?]

theorem Reached.readPosix?_none (h : Reached cs mid after) (hnone : readPosix? mid = none)
    (hs : Closing s) : readPosix? (after s) = none := by
  rcases h.kept_or_swallowed with kept | ⟨-, swallowed⟩
  · rw [kept]
    exact readPosix?_append_none hnone hs
  · rw [swallowed]
    exact hnone

-- ---------------------------------------------------------------------------
-- The opening of a class
-- ---------------------------------------------------------------------------

theorem readNegation_reads (spaced : Bool) (cs : List Char) :
    Reads n (fun _ => readNegation spaced) cs (fun out => ((readNegation spaced cs).1, out))
      (readNegation spaced cs).2 := by
  obtain ⟨_, reached, hskip⟩ := (Reached.start cs).skip spaced
  rw [readNegation]
  split
  · next more hmore =>
    rw [hmore] at reached
    obtain ⟨_, reached, hhat⟩ := reached.cons
    obtain ⟨_, reached, hrest⟩ := reached.skip spaced
    refine ⟨_, reached, fun m _ s hs => ?_⟩
    simp only [readNegation, hskip s hs, hhat, hrest s hs]
  · next hhat =>
    refine ⟨_, reached, fun m _ s hs => ?_⟩
    have hhat := reached.ne_cons (by decide) hs hhat
    simp only [readNegation, hskip s hs]

theorem readLeading_reads (spaced : Bool) (cs : List Char) :
    Reads n (fun _ => readLeading spaced) cs (fun out => ((readLeading spaced cs).1, out))
      (readLeading spaced cs).2 := by
  obtain ⟨_, reached, hrun⟩ :=
    (Reached.start cs).read (takeRun_reads (n := n) spaced (p := (· == '-')) rfl cs)
  rw [readLeading]
  split
  · next more hmore =>
    rw [hmore] at reached hrun
    obtain ⟨_, reached, hbracket⟩ := reached.cons
    obtain ⟨_, reached, hrest⟩ := reached.skip spaced
    refine ⟨_, reached, fun m hm s hs => ?_⟩
    simp only [readLeading, hrun m hm s hs, hbracket, hrest s hs]
  · next dashes more hne hmore =>
    rw [hmore] at reached hrun
    refine ⟨_, reached, fun m hm s hs => ?_⟩
    simp only [readLeading, hrun m hm s hs]
    split
    · next heq =>
      obtain ⟨hnone, hbracket⟩ := Prod.mk.inj heq
      exact absurd hbracket (reached.ne_cons (by decide) hs (fun tail h => hne tail hnone h) _)
    · next heq =>
      cases heq
      rfl

-- ---------------------------------------------------------------------------
-- Items
-- ---------------------------------------------------------------------------

theorem readClassAtom_reads (h : readClassAtom spaced cs = .ok (a, rest)) :
    Finds n (fun _ => readClassAtom spaced) cs a rest := by
  cases cs with
  | nil => cases h
  | cons c cs =>
    obtain ⟨_, reached, hc⟩ := (Reached.start (c :: cs)).cons
    by_cases hslash : c = '\\'
    · subst hslash
      obtain ⟨_, reached, hrest⟩ := reached.read (readEscape_reads (n := n) h)
      refine ⟨_, reached, fun m hm s hs => ?_⟩
      simp only [hc, readClassAtom, hrest m hm s hs]
    · have hplain (x : List Char) :
          readClassAtom spaced (c :: x) = .ok (.literal ⟨c, false⟩, x) := by
        rw [readClassAtom]
        exact hslash
      rw [hplain] at h
      cases h
      exact ⟨_, reached, fun m _ s _ => by rw [hc]; exact hplain _⟩

theorem head?_trimStart_append (h : (Text.trimStart cs).head? = some c) (s : List Char) :
    (Text.trimStart (cs ++ s)).head? = some c := by
  have hne : cs.dropWhile Text.isBlank ≠ [] := by
    intro hnil
    rw [Text.trimStart, hnil] at h
    cases h
  rw [Text.trimStart] at h ⊢
  rw [dropWhile_append_of_ne_nil hne, List.head?_append, h]
  rfl

theorem peekBeyond_append (h : peekBeyond spaced cs = some c) (s : List Char) :
    peekBeyond spaced (cs ++ s) = some c := by
  cases spaced with
  | false =>
    have hhead : cs.head? = some c := h
    change (cs ++ s).head? = some c
    rw [List.head?_append, hhead]
    rfl
  | true =>
    simp only [peekBeyond, if_true] at h ⊢
    cases hcs : Text.trimStart cs with
    | nil =>
      rw [hcs] at h
      cases h
    | cons d more =>
      have hne : cs.dropWhile Text.isBlank ≠ [] := by
        rw [← Text.trimStart, hcs]
        exact List.cons_ne_nil d more
      have happend : Text.trimStart (cs ++ s) = d :: (more ++ s) :=
        (dropWhile_append_of_ne_nil hne).trans (congrArg (· ++ s) hcs)
      rw [hcs] at h
      rw [happend]
      by_cases hmark : d = '#'
      · subst hmark
        exact head?_trimStart_append h s
      · rw [← h]
        split
        · next heq => exact absurd (List.cons.inj heq).1 hmark
        · split
          · next heq => exact absurd (List.cons.inj heq).1 hmark
          · rfl

theorem skipBlanks_of_blank (h : ∀ c ∈ cs, Text.isBlank c = true) (inComment : Bool) :
    skipBlanks inComment cs = [] := by
  induction cs generalizing inComment with
  | nil => cases inComment <;> rfl
  | cons c cs ih =>
    have hrest := ih fun d hd => h d (List.mem_cons_of_mem _ hd)
    cases inComment with
    | true => exact hrest _
    | false =>
      rw [skipBlanks, if_pos (h c List.mem_cons_self)]
      exact hrest false

theorem skipBlanks_trimStart (cs : List Char) :
    skipBlanks false (Text.trimStart cs) = skipBlanks false cs := by
  induction cs with
  | nil => rfl
  | cons c cs ih =>
    rw [Text.trimStart, List.dropWhile_cons]
    split
    · next blank => rw [skipBlanks, if_pos blank, ← ih, Text.trimStart]
    · rfl

theorem skip_of_peekBeyond (h : peekBeyond spaced cs = none) : skip spaced cs = [] := by
  cases spaced with
  | false => exact List.head?_eq_none_iff.1 h
  | true =>
    simp only [peekBeyond, if_true] at h
    change skipBlanks false cs = []
    rw [← skipBlanks_trimStart]
    split at h
    · next more hmore =>
      rw [hmore]
      have blank := List.dropWhile_eq_nil_iff.1 (List.head?_eq_none_iff.1 h)
      exact skipBlanks_of_blank blank true
    · rw [List.head?_eq_none_iff.1 h]
      rfl

theorem Reached.peekBeyond (h : Reached cs mid after) (hpeek : peekBeyond spaced mid = some c)
    (s : List Char) : Pattern.peekBeyond spaced (after s) = some c := by
  rcases h.kept_or_swallowed with kept | ⟨-, swallowed⟩
  · rw [kept]
    exact peekBeyond_append hpeek s
  · rw [swallowed]
    exact hpeek

theorem readClassItem_reads (h : readClassItem spaced cs = .ok (a, rest)) :
    Finds n (fun _ => readClassItem spaced) cs a rest := by
  obtain ⟨⟨first, out⟩, hfirst, h⟩ := bind_ok.1 h
  obtain ⟨_, reached, hatom⟩ := (Reached.start cs).read (readClassAtom_reads (n := n) hfirst)
  obtain ⟨_, reached, hskip⟩ := reached.skip spaced
  simp only at h
  split at h
  · cases h
  · next more hmore =>
    rw [hmore] at reached
    obtain ⟨_, behind, hdash⟩ := reached.cons
    split at h
    · next hcloses =>
      obtain ⟨item, hitem, h⟩ := bind_ok.1 h
      cases h
      refine ⟨_, reached, fun m hm s hs => ?_⟩
      have hpeek := hcloses.imp (behind.peekBeyond · s) (behind.peekBeyond · s)
      simp only [readClassItem, hatom m hm s hs, bind, Except.bind, hskip s hs, hdash,
        if_pos hpeek, hitem]
      rfl
    · next hopen =>
      obtain ⟨⟨second, out⟩, hsecond, h⟩ := bind_ok.1 h
      obtain ⟨item, hitem, h⟩ := bind_ok.1 h
      cases h
      obtain ⟨c, hpeek⟩ : ∃ c, peekBeyond spaced more = some c := by
        cases hpeek : peekBeyond spaced more with
        | some c => exact ⟨c, rfl⟩
        | none =>
          rw [skip_of_peekBeyond hpeek] at hsecond
          cases hsecond
      obtain ⟨_, skipped, hafter⟩ := behind.skip spaced
      obtain ⟨_, read, hread⟩ := skipped.read (readClassAtom_reads (n := n) hsecond)
      refine ⟨_, read, fun m hm s hs => ?_⟩
      rw [hpeek] at hopen
      simp only [readClassItem, hatom m hm s hs, bind, Except.bind, hskip s hs, hdash,
        behind.peekBeyond hpeek s, if_neg hopen, hafter s hs, hread m hm s hs, hitem]
      rfl
  · next hnil hdash =>
    obtain ⟨item, hitem, h⟩ := bind_ok.1 h
    cases h
    refine ⟨_, reached, fun m hm s hs => ?_⟩
    have hdash := reached.ne_cons (by decide) hs hdash
    have hnil := reached.ne_nil hnil s
    simp only [readClassItem, hatom m hm s hs, bind, Except.bind, hskip s hs, hitem]
    rfl

-- ---------------------------------------------------------------------------
-- A class up to its bracket
-- ---------------------------------------------------------------------------

theorem readClassOpening_reads (spaced : Bool) (cs : List Char) :
    Reads n (fun _ => readClassOpening spaced) cs
      (fun out => ((readClassOpening spaced cs).1, (readClassOpening spaced cs).2.1, out))
      (readClassOpening spaced cs).2.2 := by
  obtain ⟨_, reached, hnegation⟩ := (Reached.start cs).read (readNegation_reads (n := n) spaced cs)
  obtain ⟨_, reached, hleading⟩ := reached.read (readLeading_reads (n := n) spaced _)
  refine ⟨_, reached, fun m hm s hs => ?_⟩
  simp only [readClassOpening, hnegation m hm s hs, hleading m hm s hs]

theorem readClass_reads (h : readClass spaced n p cs = .ok (a, rest)) :
    Finds n (fun m => readClass spaced m p) cs a rest := by
  induction n generalizing p cs a rest with
  | zero => cases h
  | succ n ih =>
    obtain ⟨_, reached, hskip⟩ := (Reached.start cs).skip spaced
    rw [readClass] at h
    split at h
    · cases h
    · next more hmore =>
      rw [hmore] at reached
      obtain ⟨_, reached, hclose⟩ := reached.cons
      cases h
      refine ⟨_, reached, forall_succ_le fun m _ s hs => ?_⟩
      simp only [readClass, hskip s hs, hclose]
    · next more hmore =>
      rw [hmore] at reached
      obtain ⟨_, inside, hbracket⟩ := reached.cons
      split at h
      · next posix out hposix =>
        obtain ⟨_, reached, hread⟩ := inside.read (readPosix?_reads (n := n) hposix)
        refine reached.finds (ih h) fun m hm s hs => ?_
        have hread := hread n (Nat.le_refl n) s hs
        simp only [readClass, hskip s hs, hbracket, hread]
      · next hposix =>
        have hstart := readClassOpening_reads (n := n) spaced more
        rcases hfront : readClassOpening spaced more with ⟨negated, items, start⟩
        rw [hfront] at h hstart
        obtain ⟨⟨inner, out⟩, hinner, h⟩ := bind_ok.1 h
        obtain ⟨_, reached, hopening⟩ := inside.read hstart
        obtain ⟨_, reached, hread⟩ := reached.read (ih hinner)
        refine reached.finds (ih h) fun m hm s hs => ?_
        simp only [readClass, hskip s hs, hbracket, inside.readPosix?_none hposix hs,
          hopening m hm s hs, hread m hm s hs, bind, Except.bind]
    iterate 3
      · next more hmore =>
        rw [hmore] at reached
        obtain ⟨_, reached, hfirst⟩ := reached.cons
        obtain ⟨_, reached, hsecond⟩ := reached.cons
        refine reached.finds (ih h) fun m hm s hs => ?_
        simp only [readClass, hskip s hs, hfirst, hsecond]
    · next hnil hclose hopen hand hminus htilde =>
      obtain ⟨⟨item, out⟩, hitem, h⟩ := bind_ok.1 h
      obtain ⟨_, found, hread⟩ := reached.read (readClassItem_reads (n := n) hitem)
      obtain ⟨_, found, hrest⟩ := found.read (ih h)
      refine ⟨_, found, forall_succ_le fun m hm s hs => ?_⟩
      have hnil := reached.ne_nil hnil s
      have hclose := reached.ne_cons (by decide) hs hclose
      have hopen := reached.ne_cons (by decide) hs hopen
      have hand := reached.ne_cons_cons (by decide) (by decide) hs hand
      have hminus := reached.ne_cons_cons (by decide) (by decide) hs hminus
      have htilde := reached.ne_cons_cons (by decide) (by decide) hs htilde
      simp only [readClass, hskip s hs, hread m hm s hs, bind, Except.bind, hrest m hm s hs]

end Courier.Pattern
