import Courier.Proofs.Pattern.Closing

/-!
# Readers and added text

Every reader of a part of a pattern, from an escape to a whole alternation, gives the same part of
a longer text and leaves what was added.
-/

namespace Courier.Pattern

theorem bind_ok {x : Except Error α} {f : α → Except Error β} :
    (x >>= f) = .ok b ↔ ∃ a, x = .ok a ∧ f a = .ok b := by
  cases x with
  | error e => exact ⟨nofun, nofun⟩
  | ok a => exact ⟨fun h => ⟨a, rfl, h⟩, fun ⟨_, rfl, h⟩ => h⟩

theorem map_ok {x : Except Error α} {f : α → β} :
    x.map f = .ok b ↔ ∃ a, x = .ok a ∧ f a = b := by
  cases x with
  | error e => exact ⟨nofun, nofun⟩
  | ok a => simp [Except.map]

abbrev Finds (n : Nat) (reader : Nat → List Char → Except Error (α × List Char)) (cs : List Char)
    (a : α) (rest : List Char) : Prop :=
  Reads n reader cs (fun out => .ok (a, out)) rest

/-- To show something from `n + 1` on, it is enough to show it one step later from `n` on. -/
theorem forall_succ_le {P : Nat → Prop} (h : ∀ m, n ≤ m → P (m + 1)) (m : Nat) (hm : n + 1 ≤ m) :
    P m := by
  obtain ⟨k, rfl⟩ := Nat.exists_eq_add_of_le' hm
  exact h (k + n) (Nat.le_add_left n k)

theorem Reached.finds {reader reader' : Nat → List Char → Except Error (α × List Char)}
    (h : Reached cs mid after) (hrest : Finds n reader mid a rest)
    (hstep : ∀ m, n ≤ m → ∀ s, Closing s → reader' (m + 1) (cs ++ s) = reader m (after s)) :
    Finds (n + 1) reader' cs a rest := by
  obtain ⟨_, reached, hread⟩ := h.read hrest
  exact ⟨_, reached, forall_succ_le fun m hm s hs => (hstep m hm s hs).trans (hread m hm s hs)⟩

-- ---------------------------------------------------------------------------
-- Runs
-- ---------------------------------------------------------------------------

theorem length_skip_le (spaced : Bool) (cs : List Char) : (skip spaced cs).length ≤ cs.length :=
  (skip_suffix spaced cs).length_le

theorem takeRunWithin_eq_of_le (hn : cs.length ≤ n) (hm : cs.length ≤ m) :
    takeRunWithin spaced p n cs = takeRunWithin spaced p m cs := by
  induction n generalizing m cs with
  | zero =>
    rw [List.length_eq_zero_iff.1 (Nat.le_zero.1 hn)]
    cases m <;> rfl
  | succ n ih =>
    cases cs with
    | nil => cases m <;> rfl
    | cons c cs =>
      have hskip := length_skip_le spaced cs
      rw [List.length_cons] at hn hm
      obtain ⟨m, rfl⟩ := Nat.exists_eq_add_of_le' (Nat.le_trans (Nat.le_add_left 1 _) hm)
      rw [takeRunWithin, takeRunWithin, ih (by omega) (by omega : _ ≤ m)]

theorem takeRun_cons_of_neg (h : p c = false) : takeRun spaced p (c :: cs) = ([], c :: cs) := by
  simp only [takeRun, List.length_cons, takeRunWithin, h]
  rfl

theorem takeRun_cons_of_pos (h : p c = true) :
    takeRun spaced p (c :: cs) =
      (c :: (takeRun spaced p (skip spaced cs)).1, (takeRun spaced p (skip spaced cs)).2) := by
  simp only [takeRun, List.length_cons, takeRunWithin, h, if_true]
  rw [takeRunWithin_eq_of_le (length_skip_le spaced cs) (Nat.le_refl _)]

theorem takeRun_reads (spaced : Bool) (hclose : p ')' = false) (cs : List Char) :
    Reads n (fun _ => takeRun spaced p) cs (fun out => ((takeRun spaced p cs).1, out))
      (takeRun spaced p cs).2 := by
  induction hlen : cs.length using Nat.strongRecOn generalizing cs with
  | ind k ih =>
    cases cs with
    | nil =>
      refine ⟨_, .start [], fun m _ s hs => ?_⟩
      obtain rfl | ⟨more, rfl⟩ := hs.cases
      · rfl
      · exact takeRun_cons_of_neg hclose
    | cons c cs =>
      cases hp : p c with
      | false =>
        rw [takeRun_cons_of_neg hp]
        exact ⟨_, .start _, fun m _ s _ => takeRun_cons_of_neg hp⟩
      | true =>
        have hshort : (skip spaced cs).length < k := by
          have := length_skip_le spaced cs
          rw [List.length_cons] at hlen
          omega
        obtain ⟨_, reached, hc⟩ := (Reached.start (c :: cs)).cons
        obtain ⟨_, reached, hskip⟩ := reached.skip spaced
        obtain ⟨_, reached, hrun⟩ := reached.read (ih _ hshort _ rfl)
        rw [takeRun_cons_of_pos hp]
        refine ⟨_, reached, fun m hm s hs => ?_⟩
        simp only [hc, takeRun_cons_of_pos hp, hskip s hs, hrun m hm s hs]

-- ---------------------------------------------------------------------------
-- Code points
-- ---------------------------------------------------------------------------

theorem hexDigits_reads (h : hexDigits spaced k v cs = .ok (a, rest)) :
    Finds n (fun _ => hexDigits spaced k v) cs a rest := by
  induction k generalizing v cs with
  | zero =>
    cases h
    exact ⟨_, .start _, fun _ _ _ _ => rfl⟩
  | succ k ih =>
    cases cs with
    | nil => cases h
    | cons c cs =>
      rw [hexDigits] at h
      split at h
      · next d hd =>
        obtain ⟨_, reached, hc⟩ := (Reached.start (c :: cs)).cons
        obtain ⟨_, reached, hskip⟩ := reached.skip spaced
        obtain ⟨_, reached, hdigits⟩ := reached.read (ih h)
        refine ⟨_, reached, fun m hm s hs => ?_⟩
        simp only [hc, hexDigits, hd, hskip s hs, hdigits m hm s hs]
      · cases h

theorem hexBraced_reads (h : hexBraced spaced n v cs = .ok (a, rest)) :
    Finds n (fun m => hexBraced spaced m v) cs a rest := by
  induction n generalizing v cs with
  | zero => cases h
  | succ n ih =>
    obtain ⟨_, reached, hskip⟩ := (Reached.start cs).skip spaced
    rw [hexBraced] at h
    split at h
    · cases h
    · next more hmore =>
      rw [hmore] at reached
      obtain ⟨_, reached, hbrace⟩ := reached.cons
      obtain ⟨_, reached, hrest⟩ := reached.skip spaced
      cases v with
      | none => cases h
      | some k =>
        cases h
        refine ⟨_, reached, forall_succ_le fun m _ s hs => ?_⟩
        simp only [hexBraced, hskip s hs, hbrace, hrest s hs]
    · next c more hne hmore =>
      rw [hmore] at reached
      obtain ⟨_, reached, hc⟩ := reached.cons
      split at h
      · next d hd =>
        refine reached.finds (ih h) fun m hm s hs => ?_
        simp only [hexBraced, hskip s hs, hc, hd]
      · cases h

theorem readHex_reads (h : readHex spaced width cs = .ok (a, rest)) :
    Finds n (fun _ => readHex spaced width) cs a rest := by
  obtain ⟨_, reached, hskip⟩ := (Reached.start cs).skip spaced
  rw [readHex] at h
  split at h
  · next more hmore =>
    rw [hmore] at reached
    obtain ⟨_, reached, hbrace⟩ := reached.cons
    obtain ⟨⟨k, out⟩, hk, h⟩ := bind_ok.1 h
    obtain ⟨_, reached, hdigits⟩ :=
      reached.readFueled (hexBraced_reads hk) (fun x => x.length + 1) fun s => by simp
    simp only at h
    split at h
    · next c hc =>
      cases h
      refine ⟨_, reached, fun m hm s hs => ?_⟩
      simp only [readHex, hskip s hs, hbrace, hdigits s hs, bind, Except.bind, hc]
      rfl
    · cases h
  · next hne =>
    obtain ⟨⟨k, out⟩, hk, h⟩ := bind_ok.1 h
    obtain ⟨_, digits, hdigits⟩ := reached.read (hexDigits_reads (n := n) hk)
    simp only at h
    split at h
    · next c hc =>
      cases h
      refine ⟨_, digits, fun m hm s hs => ?_⟩
      have hplain := reached.ne_cons (by decide) hs hne
      simp only [readHex, hskip s hs, hdigits m hm s hs, bind, Except.bind, hc]
      rfl
    · cases h

-- ---------------------------------------------------------------------------
-- Properties
-- ---------------------------------------------------------------------------

theorem readBraced_reads (h : readBraced spaced n cs = .ok (a, rest)) :
    Finds n (fun m => readBraced spaced m) cs a rest := by
  induction n generalizing a cs with
  | zero => cases h
  | succ n ih =>
    obtain ⟨_, reached, hskip⟩ := (Reached.start cs).skip spaced
    rw [readBraced] at h
    split at h
    · cases h
    · next more hmore =>
      rw [hmore] at reached
      obtain ⟨_, reached, hbrace⟩ := reached.cons
      cases h
      refine ⟨_, reached, forall_succ_le fun m _ s hs => ?_⟩
      simp only [readBraced, hskip s hs, hbrace]
    · next c more hne hmore =>
      rw [hmore] at reached
      obtain ⟨_, reached, hc⟩ := reached.cons
      obtain ⟨⟨name, out⟩, hname, h⟩ := bind_ok.1 h
      cases h
      obtain ⟨_, reached, hrest⟩ := reached.read (ih hname)
      refine ⟨_, reached, forall_succ_le fun m hm s hs => ?_⟩
      simp only [readBraced, hskip s hs, hc, hrest m hm s hs, bind, Except.bind]
      rfl

theorem readProperty_reads (h : readProperty spaced negated cs = .ok (a, rest)) :
    Finds n (fun _ => readProperty spaced negated) cs a rest := by
  obtain ⟨_, reached, hskip⟩ := (Reached.start cs).skip spaced
  rw [readProperty] at h
  split at h
  · cases h
  · next more hmore =>
    rw [hmore] at reached
    obtain ⟨_, reached, hbrace⟩ := reached.cons
    obtain ⟨⟨text, out⟩, htext, h⟩ := bind_ok.1 h
    cases h
    obtain ⟨_, reached, hrest⟩ :=
      reached.readFueled (readBraced_reads htext) (fun x => x.length + 1) fun s => by simp
    refine ⟨_, reached, fun m _ s hs => ?_⟩
    simp only [readProperty, hskip s hs, hbrace, hrest s hs, bind, Except.bind]
    rfl
  · next c more hne hmore =>
    rw [hmore] at reached
    obtain ⟨_, reached, hc⟩ := reached.cons
    obtain ⟨_, reached, hrest⟩ := reached.skip spaced
    split at h
    · cases h
    · next hslash =>
      cases h
      refine ⟨_, reached, fun m _ s hs => ?_⟩
      simp only [readProperty, hskip s hs, hc, hslash, if_false, hrest s hs]
      rfl

-- ---------------------------------------------------------------------------
-- Escapes
-- ---------------------------------------------------------------------------

theorem readBoundary_reads (h : readBoundary spaced cs = .ok (a, rest)) :
    Finds n (fun _ => readBoundary spaced) cs a rest := by
  rw [readBoundary.eq_def] at h
  split at h
  · next more =>
    obtain ⟨_, reached, hbrace⟩ := (Reached.start ('\x7b' :: more)).cons
    obtain ⟨_, reached, hskip⟩ := reached.skip spaced
    split at h
    · cases h
    · next c after hmore =>
      rw [hmore] at reached
      obtain ⟨_, -, hc⟩ := reached.cons
      split at h
      · next hletter =>
        obtain ⟨_, reached, hrun⟩ :=
          reached.read (takeRun_reads (n := n) spaced (p := isBoundaryChar) rfl (c :: after))
        simp only at h
        split at h
        · next out _ hout hassertion =>
          cases h
          rw [hout] at reached
          obtain ⟨_, reached, hclose⟩ := reached.cons
          refine ⟨_, reached, fun m hm s hs => ?_⟩
          have hrun := hrun m hm s hs
          rw [hc] at hrun
          simp only [hbrace, readBoundary, hskip s hs, hc, hletter, if_true, hrun, hclose,
            hassertion]
        · cases h
      · next hletter =>
        cases h
        refine ⟨_, .start _, fun m _ s hs => ?_⟩
        rw [hbrace]
        simp only [readBoundary, hskip s hs, hc, hletter]
        rfl
  · next hne =>
    cases h
    refine ⟨_, .start _, fun m _ s hs => ?_⟩
    have hplain := (Reached.start cs).ne_cons (by decide) hs hne
    simp only [readBoundary.eq_def]

theorem readEscape_reads (h : readEscape spaced cs = .ok (a, rest)) :
    Finds n (fun _ => readEscape spaced) cs a rest := by
  cases cs with
  | nil => cases h
  | cons c cs =>
    obtain ⟨_, reached, hc⟩ := (Reached.start (c :: cs)).cons
    -- Most escapes end with their letter.
    have direct (b : Atom) (hread : ∀ x, readEscape spaced (c :: x) = .ok (b, x)) :
        Finds n (fun _ => readEscape spaced) (c :: cs) b cs :=
      ⟨_, reached, fun m _ s _ => by rw [hc]; exact hread _⟩
    have mapped {β : Type} {b : β} {reader : List Char → Except Error (β × List Char)}
        (f : β → Atom) (hread : ∀ x, readEscape spaced (c :: x) =
          (reader x).map fun p => (f p.1, p.2)) (hb : Finds n (fun _ => reader) cs b rest) :
        Finds n (fun _ => readEscape spaced) (c :: cs) (f b) rest := by
      obtain ⟨_, reached, hrest⟩ := reached.read hb
      refine ⟨_, reached, fun m hm s hs => ?_⟩
      rw [hc]
      simp only [hread, hrest m hm s hs, Except.map]
    simp only [readEscape.eq_def] at h
    split at h
    · cases h
    · next hdigit =>
      split at h
      · next hplain =>
        cases h
        refine direct _ fun x => ?_
        simp only [readEscape.eq_def, hdigit, hplain]
        rfl
      · next hplain =>
        split at h
        iterate 3
          · obtain ⟨_, hk, h⟩ := map_ok.1 h
            cases h
            exact mapped Atom.literal (fun _ => rfl) (readHex_reads hk)
        iterate 2
          · obtain ⟨_, hk, h⟩ := map_ok.1 h
            cases h
            exact mapped Atom.named (fun _ => rfl) (readProperty_reads hk)
        iterate 17
          · cases h
            exact direct _ fun x => rfl
        · obtain ⟨_, hk, h⟩ := map_ok.1 h
          cases h
          exact mapped Atom.assertion (fun _ => rfl) (readBoundary_reads hk)
        · cases h

-- ---------------------------------------------------------------------------
-- Counted repetitions
-- ---------------------------------------------------------------------------

theorem trimStart_reads (cs : List Char) :
    Reads n (fun _ => Text.trimStart) cs id (Text.trimStart cs) := by
  induction cs with
  | nil =>
    refine ⟨_, .start [], fun m _ s hs => ?_⟩
    obtain rfl | ⟨more, rfl⟩ := hs.cases <;> rfl
  | cons c cs ih =>
    obtain ⟨_, reached, hc⟩ := (Reached.start (c :: cs)).cons
    rw [Text.trimStart, List.dropWhile_cons]
    split
    · next blank =>
      obtain ⟨_, reached, hrest⟩ := reached.read ih
      refine ⟨_, reached, fun m hm s hs => ?_⟩
      simp only [hc, Text.trimStart, List.dropWhile_cons, blank, if_true]
      exact hrest m hm s hs
    · next blank =>
      refine ⟨_, .start _, fun m _ s _ => ?_⟩
      simp only [List.cons_append, Text.trimStart, List.dropWhile_cons, blank]
      rfl

theorem readCount_reads (h : readCount spaced cs = .ok (a, rest)) :
    Finds n (fun _ => readCount spaced) cs a rest := by
  obtain ⟨_, reached, htrim⟩ := (Reached.start cs).read (trimStart_reads (n := n) cs)
  obtain ⟨_, reached, hdigits⟩ :=
    reached.read (takeRun_reads (n := n) spaced (p := Decimal.isDigit) rfl _)
  obtain ⟨_, reached, hblanks⟩ :=
    reached.read (takeRun_reads (n := n) spaced (p := Text.isBlank) rfl _)
  simp only [readCount] at h
  split at h
  · next none =>
    cases h
    refine ⟨_, reached, fun m hm s hs => ?_⟩
    simp only [readCount, htrim m hm s hs, id_eq, hdigits m hm s hs, hblanks m hm s hs, none,
      if_true]
  · next some =>
    split at h
    · next small =>
      cases h
      refine ⟨_, reached, fun m hm s hs => ?_⟩
      simp only [readCount, htrim m hm s hs, id_eq, hdigits m hm s hs, hblanks m hm s hs, some,
        small, if_true]
      rfl
    · cases h

theorem dropLazy_reads (cs : List Char) : Reads n (fun _ => dropLazy) cs id (dropLazy cs) := by
  cases cs with
  | nil =>
    refine ⟨_, .start [], fun m _ s hs => ?_⟩
    obtain rfl | ⟨more, rfl⟩ := hs.cases <;> rfl
  | cons c cs =>
    obtain ⟨_, reached, hc⟩ := (Reached.start (c :: cs)).cons
    by_cases hlazy : c = '?'
    · subst hlazy
      exact ⟨_, reached, fun m _ s _ => by rw [hc]; rfl⟩
    · have hkept (x : List Char) : dropLazy (c :: x) = c :: x := by
        rw [dropLazy]
        exact fun _ h => hlazy (List.cons.inj h).1
      rw [hkept]
      exact ⟨_, .start _, fun m _ s _ => hkept _⟩

theorem closeCounts_reads (h : closeCounts spaced least most cs = .ok (a, rest)) :
    Finds n (fun _ => closeCounts spaced least most) cs a rest := by
  rw [closeCounts.eq_def] at h
  split at h
  · next more =>
    split at h
    · next ordered =>
      cases h
      obtain ⟨_, reached, hbrace⟩ := (Reached.start ('\x7d' :: more)).cons
      obtain ⟨_, reached, hskip⟩ := reached.skip spaced
      obtain ⟨_, reached, hlazy⟩ := reached.read (dropLazy_reads (n := n) _)
      refine ⟨_, reached, fun m hm s hs => ?_⟩
      simp only [hbrace, closeCounts, ordered, if_true, hskip s hs, hlazy m hm s hs, id_eq]
    · cases h
  · cases h

theorem readCounts_reads (h : readCounts spaced cs = .ok (a, rest)) :
    Finds n (fun _ => readCounts spaced) cs a rest := by
  obtain ⟨_, reached, hskip⟩ := (Reached.start cs).skip spaced
  obtain ⟨⟨least, out⟩, hleast, h⟩ := bind_ok.1 h
  obtain ⟨_, reached, hcount⟩ := reached.read (readCount_reads (n := n) hleast)
  split at h
  · next least more heq =>
    cases heq
    obtain ⟨_, reached, hcomma⟩ := reached.cons
    obtain ⟨_, reached, hmore⟩ := reached.skip spaced
    split at h
    · next after hafter =>
      rw [hafter] at reached
      obtain ⟨_, -, hbrace⟩ := reached.cons
      obtain ⟨_, reached, hclose⟩ := reached.read (closeCounts_reads (n := n) h)
      refine ⟨_, reached, fun m hm s hs => ?_⟩
      have hclose := hclose m hm s hs
      rw [hbrace] at hclose
      simp only [readCounts, hskip s hs, hcount m hm s hs, bind, Except.bind, hcomma, hmore s hs,
        hbrace, hclose]
    · next hne =>
      obtain ⟨⟨most, out⟩, hmost, h⟩ := bind_ok.1 h
      obtain ⟨_, counted, hcounted⟩ := reached.read (readCount_reads (n := n) hmost)
      cases most with
      | none => cases h
      | some most =>
        obtain ⟨_, closed, hclose⟩ := counted.read (closeCounts_reads (n := n) h)
        refine ⟨_, closed, fun m hm s hs => ?_⟩
        have hplain := reached.ne_cons (by decide) hs hne
        simp only [readCounts, hskip s hs, hcount m hm s hs, bind, Except.bind, hcomma, hmore s hs,
          hcounted m hm s hs, hclose m hm s hs]
  · next least out hne heq =>
    cases heq
    obtain ⟨_, closed, hclose⟩ := reached.read (closeCounts_reads (n := n) h)
    refine ⟨_, closed, fun m hm s hs => ?_⟩
    have hplain := reached.ne_cons (by decide) hs hne
    simp only [readCounts, hskip s hs, hcount m hm s hs, bind, Except.bind, hclose m hm s hs]
  · cases h

-- ---------------------------------------------------------------------------
-- Openings of groups
-- ---------------------------------------------------------------------------

theorem readFlags_reads (h : readFlags negated dangling seen cs = .ok (change, close, rest)) :
    Reads n (fun _ => readFlags negated dangling seen) cs (fun out => .ok (change, close, out))
      rest := by
  induction cs generalizing negated dangling seen with
  | nil => cases h
  | cons c cs ih =>
    obtain ⟨_, reached, hc⟩ := (Reached.start (c :: cs)).cons
    rw [readFlags] at h
    split at h
    · next hclose =>
      split at h
      · cases h
      · next hdangling =>
        cases h
        refine ⟨_, reached, fun m _ s _ => ?_⟩
        simp only [hc, readFlags, if_pos hclose, if_neg hdangling]
    · next hclose =>
      split at h
      · next hminus =>
        split at h
        · cases h
        · next hfirst =>
          obtain ⟨_, reached, hrest⟩ := reached.read (ih h)
          refine ⟨_, reached, fun m hm s hs => ?_⟩
          simp only [hc, readFlags, if_neg hclose, if_pos hminus, if_neg hfirst, hrest m hm s hs]
      · next hminus =>
        split at h
        · cases h
        · next flag hflag =>
          split at h
          · cases h
          · next hnew =>
            obtain ⟨_, reached, hrest⟩ := reached.read (ih h)
            refine ⟨_, reached, fun m hm s hs => ?_⟩
            simp only [hc, readFlags, if_neg hclose, if_neg hminus, hflag, if_neg hnew,
              hrest m hm s hs]

theorem readGroupName_reads (h : readGroupName first cs = .ok (name, rest)) :
    Finds n (fun _ => readGroupName first) cs name rest := by
  induction cs generalizing first name with
  | nil => cases h
  | cons c cs ih =>
    obtain ⟨_, reached, hc⟩ := (Reached.start (c :: cs)).cons
    rw [readGroupName] at h
    split at h
    · next hclose =>
      split at h
      · cases h
      · next hfirst =>
        cases h
        refine ⟨_, reached, fun m _ s _ => ?_⟩
        simp only [hc, readGroupName, if_pos hclose, if_neg hfirst]
    · next hclose =>
      split at h
      · next hchar =>
        obtain ⟨⟨more, out⟩, hmore, h⟩ := bind_ok.1 h
        cases h
        obtain ⟨_, reached, hrest⟩ := reached.read (ih hmore)
        refine ⟨_, reached, fun m hm s hs => ?_⟩
        simp only [hc, readGroupName, if_neg hclose, if_pos hchar, hrest m hm s hs, bind,
          Except.bind]
        rfl
      · cases h

theorem readOpening_reads (h : readOpening cs = .ok (opening, rest)) :
    Finds n (fun _ => readOpening) cs opening rest := by
  rw [readOpening.eq_def] at h
  split at h
  · cases h
  · cases h
  · cases h
  · cases h
  · next more =>
    obtain ⟨⟨name, out⟩, hname, h⟩ := map_ok.1 h
    cases h
    obtain ⟨_, reached, hmark⟩ := (Reached.start ('?' :: 'P' :: '<' :: more)).cons
    obtain ⟨_, reached, hletter⟩ := reached.cons
    obtain ⟨_, reached, hangle⟩ := reached.cons
    obtain ⟨_, reached, hrest⟩ := reached.read (readGroupName_reads (n := n) hname)
    refine ⟨_, reached, fun m hm s hs => ?_⟩
    simp only [hmark, hletter, hangle, readOpening, hrest m hm s hs, Except.map]
  · next more hequal hexclaim =>
    obtain ⟨⟨name, out⟩, hname, h⟩ := map_ok.1 h
    cases h
    obtain ⟨_, reached, hmark⟩ := (Reached.start ('?' :: '<' :: more)).cons
    obtain ⟨_, reached, hangle⟩ := reached.cons
    obtain ⟨_, named, hrest⟩ := reached.read (readGroupName_reads (n := n) hname)
    refine ⟨_, named, fun m hm s hs => ?_⟩
    have hequal := reached.ne_cons (by decide) hs hequal
    have hexclaim := reached.ne_cons (by decide) hs hexclaim
    simp only [hmark, hangle, readOpening, hrest m hm s hs, Except.map]
  · next more hequal hexclaim _ _ _ hangle =>
    obtain ⟨⟨change, close, out⟩, hflags, h⟩ := bind_ok.1 h
    obtain ⟨found, hfound, h⟩ := bind_ok.1 h
    cases h
    have hletter : ∀ tail, more ≠ 'P' :: tail := by
      rintro tail rfl
      cases hflags
    obtain ⟨_, reached, hmark⟩ := (Reached.start ('?' :: more)).cons
    obtain ⟨_, flagged, hrest⟩ := reached.read (readFlags_reads (n := n) hflags)
    refine ⟨_, flagged, fun m hm s hs => ?_⟩
    have hequal := reached.ne_cons (by decide) hs hequal
    have hexclaim := reached.ne_cons (by decide) hs hexclaim
    have hangle := reached.ne_cons (by decide) hs hangle
    have hletter := reached.ne_cons (by decide) hs hletter
    have hbehind (tail : List Char) := hangle ('=' :: tail)
    have hnotBehind (tail : List Char) := hangle ('!' :: tail)
    have hnamed (tail : List Char) := hletter ('<' :: tail)
    simp only [hmark, readOpening, hrest m hm s hs, bind, Except.bind, hfound]
    rfl
  · next hmark =>
    cases h
    refine ⟨_, .start _, fun m _ s hs => ?_⟩
    have hplain := (Reached.start cs).ne_cons (by decide) hs hmark
    simp only [readOpening.eq_def]
    split
    all_goals first
      | rfl
      | next heq => exact absurd heq (hplain _)

end Courier.Pattern
