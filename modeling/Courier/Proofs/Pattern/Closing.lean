import Courier.Pattern.Reader

/-!
# What stands behind a pattern

A reader that is done with a text is done with a longer one too, and leaves what was added. There
is one exception: a comment that no line end closes takes everything behind it along. Whether that
happens depends on the text alone, not on what is added.
-/

namespace Courier.Pattern

/-- What may be added: nothing, or a closing parenthesis and more that ends no comment and no name
of a class. -/
structure Closing (s : List Char) : Prop where
  head : ∀ c ∈ s.head?, c = ')'
  newline : '\n' ∉ s
  colon : ':' ∉ s

theorem Closing.nil : Closing [] where
  head := by simp
  newline := by simp
  colon := by simp

theorem Closing.cases (h : Closing s) : s = [] ∨ ∃ more, s = ')' :: more := by
  cases s with
  | nil => exact .inl rfl
  | cons c more => exact .inr ⟨more, by rw [h.head c rfl]⟩

/-- A comment mark stands on the last line. -/
def Marked (cs : List Char) : Prop :=
  ∃ before after, cs = before ++ '#' :: after ∧ '\n' ∉ after

theorem Marked.of_suffix (h : Marked rest) (hs : rest <:+ cs) : Marked cs := by
  obtain ⟨before, after, rfl, hafter⟩ := h
  obtain ⟨first, rfl⟩ := hs
  exact ⟨first ++ before, after, by rw [List.append_assoc], hafter⟩

/-- Reading `cs` gets to `rest`, and reading `cs ++ s` gets to `after s`: what is added is still
there, unless an open comment swallowed it. -/
structure Reached (cs rest : List Char) (after : List Char → List Char) : Prop where
  suffix : rest <:+ cs
  kept_or_swallowed : (∀ s, after s = rest ++ s) ∨ Marked cs ∧ ∀ s, after s = rest

/-- With any fuel from `n` on, reading `cs` gives what `result` makes of `rest`, and reading a
longer text gives the same of what is left of that. -/
def Reads (n : Nat) (reader : Nat → List Char → β) (cs : List Char) (result : List Char → β)
    (rest : List Char) : Prop :=
  ∃ after, Reached cs rest after ∧
    ∀ m, n ≤ m → ∀ s, Closing s → reader m (cs ++ s) = result (after s)

namespace Reached

theorem start (cs : List Char) : Reached cs cs (cs ++ ·) :=
  ⟨List.suffix_rfl, .inl fun _ => rfl⟩

theorem apply_nil (h : Reached cs rest after) : after [] = rest := by
  rcases h.kept_or_swallowed with kept | ⟨-, swallowed⟩
  · rw [kept, List.append_nil]
  · exact swallowed []

theorem read {reader : Nat → List Char → β} {result : List Char → β} (h : Reached cs mid after)
    (hr : Reads n reader mid result rest) :
    ∃ after', Reached cs rest after' ∧
      ∀ m, n ≤ m → ∀ s, Closing s → reader m (after s) = result (after' s) := by
  obtain ⟨further, reached, hread⟩ := hr
  have suffix := reached.suffix.trans h.suffix
  rcases h.kept_or_swallowed with kept | ⟨marked, swallowed⟩
  · refine ⟨further, ⟨suffix, ?_⟩, fun m hm s hs => by rw [kept, hread m hm s hs]⟩
    exact reached.kept_or_swallowed.imp_right fun h' => ⟨h'.1.of_suffix h.suffix, h'.2⟩
  · -- What was added is gone, so the rest is read as if nothing had been added.
    refine ⟨fun _ => rest, ⟨suffix, .inr ⟨marked, fun _ => rfl⟩⟩, fun m hm s _ => ?_⟩
    have alone := hread m hm [] .nil
    rwa [List.append_nil, reached.apply_nil, ← swallowed s] at alone

theorem readFueled {reader : Nat → List Char → β} {result : List Char → β}
    (h : Reached cs mid after) (hr : Reads n reader mid result rest) (fuel : List Char → Nat)
    (enough : ∀ s, n ≤ fuel (mid ++ s)) :
    ∃ after', Reached cs rest after' ∧
      ∀ s, Closing s → reader (fuel (after s)) (after s) = result (after' s) := by
  obtain ⟨after', reached, hread⟩ := hr
  have fueled : Reads 0 (fun _ x => reader (fuel x) x) mid result rest :=
    ⟨after', reached, fun _ _ s hs => hread _ (enough s) s hs⟩
  obtain ⟨after', reached, hread⟩ := h.read fueled
  exact ⟨after', reached, hread 0 (Nat.le_refl 0)⟩

theorem cons {c : Char} (h : Reached cs (c :: rest) after) :
    ∃ after', Reached cs rest after' ∧ ∀ s, after s = c :: after' s := by
  have suffix := (List.suffix_cons c rest).trans h.suffix
  rcases h.kept_or_swallowed with kept | ⟨marked, swallowed⟩
  · exact ⟨(rest ++ ·), ⟨suffix, .inl fun _ => rfl⟩, kept⟩
  · exact ⟨fun _ => rest, ⟨suffix, .inr ⟨marked, fun _ => rfl⟩⟩, swallowed⟩

end Reached

-- ---------------------------------------------------------------------------
-- Blanks and comments
-- ---------------------------------------------------------------------------

theorem skipBlanks_suffix (inComment : Bool) (cs : List Char) : skipBlanks inComment cs <:+ cs := by
  induction cs generalizing inComment with
  | nil => cases inComment <;> exact List.suffix_rfl
  | cons c cs ih =>
    cases inComment with
    | true => exact (ih _).trans (List.suffix_cons c cs)
    | false =>
      rw [skipBlanks]
      split
      · exact (ih _).trans (List.suffix_cons c cs)
      · split
        · exact (ih _).trans (List.suffix_cons c cs)
        · exact List.suffix_rfl

theorem skip_suffix (spaced : Bool) (cs : List Char) : skip spaced cs <:+ cs := by
  rw [skip]
  split
  · exact skipBlanks_suffix false cs
  · exact List.suffix_rfl

theorem skipBlanks_true_of_newline {s : List Char} (h : '\n' ∉ s) : skipBlanks true s = [] := by
  induction s with
  | nil => rfl
  | cons c s ih =>
    rw [List.mem_cons, not_or] at h
    have : (c != '\n') = true := bne_iff_ne.2 fun e => h.1 e.symm
    rw [skipBlanks, this]
    exact ih h.2

theorem skipBlanks_closing (h : Closing s) : skipBlanks false s = s := by
  obtain rfl | ⟨more, rfl⟩ := h.cases
  · rfl
  · rfl

theorem Marked.here (h : '\n' ∉ cs ∨ Marked cs) : Marked ('#' :: cs) := by
  cases h with
  | inl last => exact ⟨[], cs, rfl, last⟩
  | inr later => exact later.of_suffix (List.suffix_cons '#' cs)

/-- What is added is lost in a comment without a line end, be it open already or not. -/
theorem skipBlanks_append (inComment : Bool) (cs : List Char) :
    (∀ s, Closing s → skipBlanks inComment (cs ++ s) = skipBlanks inComment cs ++ s) ∨
      (Marked cs ∨ inComment = true ∧ '\n' ∉ cs) ∧
        ∀ s, Closing s → skipBlanks inComment (cs ++ s) = skipBlanks inComment cs := by
  induction cs generalizing inComment with
  | nil =>
    cases inComment with
    | true =>
      exact .inr ⟨.inr ⟨rfl, by simp⟩, fun s hs => skipBlanks_true_of_newline hs.newline⟩
    | false => exact .inl fun s hs => skipBlanks_closing hs
  | cons c cs ih =>
    have later (h : Marked cs) : Marked (c :: cs) := h.of_suffix (List.suffix_cons c cs)
    cases inComment with
    | true =>
      refine (ih (c != '\n')).imp_right fun h => ⟨?_, h.2⟩
      rcases h.1 with marked | ⟨hc, hcs⟩
      · exact .inl (later marked)
      · rw [List.mem_cons, not_or]
        exact .inr ⟨rfl, fun e => bne_iff_ne.1 hc e.symm, hcs⟩
    | false =>
      by_cases blank : Text.isBlank c = true
      · simp only [List.cons_append, skipBlanks, blank, if_true]
        exact (ih false).imp_right fun h =>
          ⟨.inl (later (h.1.elim id fun h => absurd h.1 nofun)), h.2⟩
      · by_cases mark : c = '#'
        · subst mark
          refine (ih true).imp_right fun h => ⟨.inl (.here ?_), h.2⟩
          exact h.1.elim .inr fun h => .inl h.2
        · refine .inl fun s hs => ?_
          simp only [List.cons_append, skipBlanks, blank, if_false, mark]
          rfl

theorem skip_append (spaced : Bool) (cs : List Char) :
    (∀ s, Closing s → skip spaced (cs ++ s) = skip spaced cs ++ s) ∨
      Marked cs ∧ ∀ s, Closing s → skip spaced (cs ++ s) = skip spaced cs := by
  cases spaced with
  | false => exact .inl fun _ _ => rfl
  | true =>
    exact (skipBlanks_append false cs).imp_right fun h =>
      ⟨h.1.elim id fun h => absurd h.1 nofun, h.2⟩

theorem skip_reads (spaced : Bool) (cs : List Char) :
    Reads n (fun _ => skip spaced) cs id (skip spaced cs) := by
  have suffix := skip_suffix spaced cs
  rcases skip_append spaced cs with kept | ⟨marked, swallowed⟩
  · exact ⟨(skip spaced cs ++ ·), ⟨suffix, .inl fun _ => rfl⟩, fun _ _ s hs => kept s hs⟩
  · exact ⟨fun _ => skip spaced cs, ⟨suffix, .inr ⟨marked, fun _ => rfl⟩⟩,
      fun _ _ s hs => swallowed s hs⟩

theorem Reached.skip (h : Reached cs mid after) (spaced : Bool) :
    ∃ after', Reached cs (Pattern.skip spaced mid) after' ∧
      ∀ s, Closing s → Pattern.skip spaced (after s) = after' s := by
  obtain ⟨after', reached, hread⟩ := h.read (skip_reads (n := 0) spaced mid)
  exact ⟨after', reached, hread 0 (Nat.le_refl 0)⟩

-- ---------------------------------------------------------------------------
-- What comes next
-- ---------------------------------------------------------------------------

theorem Reached.closing (h : Reached cs [] after) (hs : Closing s) : Closing (after s) := by
  rcases h.kept_or_swallowed with kept | ⟨-, swallowed⟩
  · rwa [kept, List.nil_append]
  · rw [swallowed]
    exact .nil

theorem Reached.ne_cons {c : Char} (h : Reached cs rest after) (hc : c ≠ ')') (hs : Closing s)
    (hne : ∀ more, rest ≠ c :: more) (more : List Char) : after s ≠ c :: more := by
  rcases h.kept_or_swallowed with kept | ⟨-, swallowed⟩
  · rw [kept]
    cases rest with
    | nil =>
      obtain rfl | ⟨end_, rfl⟩ := hs.cases
      · exact nofun
      · exact fun e => hc (List.cons.inj e).1.symm
    | cons d rest => exact fun e => hne rest (by rw [(List.cons.inj e).1])
  · rw [swallowed]
    exact hne more

theorem Reached.ne_cons_cons {c d : Char} (h : Reached cs rest after) (hc : c ≠ ')') (hd : d ≠ ')')
    (hs : Closing s) (hne : ∀ more, rest ≠ c :: d :: more) (more : List Char) :
    after s ≠ c :: d :: more := by
  by_cases hfirst : ∃ tail, rest = c :: tail
  · obtain ⟨tail, rfl⟩ := hfirst
    obtain ⟨_, reached, hcons⟩ := h.cons
    rw [hcons]
    intro e
    refine reached.ne_cons hd hs (fun last e => ?_) more (List.cons.inj e).2
    exact hne last (by rw [e])
  · exact h.ne_cons hc hs (fun tail e => hfirst ⟨tail, e⟩) (d :: more)

theorem Reached.ne_nil (h : Reached cs rest after) (hne : rest ≠ []) (s : List Char) :
    after s ≠ [] := by
  rcases h.kept_or_swallowed with kept | ⟨-, swallowed⟩
  · rw [kept]
    exact List.append_ne_nil_of_left_ne_nil hne s
  · rw [swallowed]
    exact hne

end Courier.Pattern
