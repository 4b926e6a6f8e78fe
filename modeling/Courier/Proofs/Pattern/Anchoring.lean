import Courier.Pattern.Meaning
import Courier.Proofs.Pattern.Branches

/-!
# Patterns between anchors

A text that is a pattern is read and compiled once more with anchors around it. That can go wrong
in three ways only: a comment at its end swallows the closing anchor, it is nested too deeply by
what the anchors add, or there is no room left for them.
-/

namespace Courier.Pattern

/-- A parenthesis behind the text changes nothing: it belongs to a comment. -/
def OpenComment (text : String) : Prop :=
  read (text ++ ")") = read text

/-- What a pattern needs to be one between anchors too. -/
structure Anchorable [Room] (text : String) : Prop where
  closed : ¬ OpenComment text
  depth : ∀ t, read text = .ok t → t.depth + 2 ≤ depthLimit
  room : ∀ t, read (anchored text) = .ok t → Room.fits t = true

def Tree.anchored (t : Tree) : Tree :=
  .concat [.assertion .lineStart, .group [] none t, .assertion .lineEnd]

variable {text : String} {t : Tree} {r : Regex}

-- ---------------------------------------------------------------------------
-- Whole texts
-- ---------------------------------------------------------------------------

theorem read_ok :
    read text = .ok t ↔
      readBranches (text.toList.length + 1) false [] [] text.toList = .ok (t, []) ∧
        t.names.Nodup ∧ t.depth ≤ depthLimit := by
  simp only [read, bind_ok]
  constructor
  · rintro ⟨⟨tree, rest⟩, hread, h⟩
    simp only at h
    split at h
    · cases h
    · next hrest =>
      split at h
      · cases h
      · next hnames =>
        split at h
        · cases h
        · next hdepth =>
          cases h
          simp only [Bool.not_eq_true, Bool.not_eq_false', List.isEmpty_iff] at hrest
          simp only [Bool.not_eq_true, Bool.not_eq_false', decide_eq_true_eq] at hnames
          rw [hrest] at hread
          exact ⟨hread, hnames, Nat.le_of_not_lt hdepth⟩
  · rintro ⟨hread, hnames, hdepth⟩
    refine ⟨_, hread, ?_⟩
    simp only [List.isEmpty_nil, hnames, Nat.not_lt.2 hdepth]
    rfl

theorem compile_ok [Room] :
    compile text = .ok r ↔
      ∃ t after, read text = .ok t ∧ t.meaning {} = .ok (r, after) ∧ Room.fits t = true := by
  simp only [compile, bind_ok]
  constructor
  · rintro ⟨t, hread, ⟨r', after⟩, hmeaning, h⟩
    cases hroom : Room.fits t with
    | true =>
      rw [hroom] at h
      cases h
      exact ⟨t, after, hread, hmeaning, hroom⟩
    | false =>
      rw [hroom] at h
      cases h
  · rintro ⟨t, after, hread, hmeaning, hroom⟩
    refine ⟨t, hread, (r, after), hmeaning, ?_⟩
    rw [hroom]
    rfl

-- ---------------------------------------------------------------------------
-- Closed and open texts
-- ---------------------------------------------------------------------------

/-- What is added to a pattern is left over, or it is swallowed by a comment on the last line. -/
theorem readBranches_append (h : read text = .ok t) :
    (¬ OpenComment text ∧ ∀ m, text.toList.length + 1 ≤ m → ∀ s, Closing s →
      readBranches m false [] [] (text.toList ++ s) = .ok (t, s)) ∨
    (OpenComment text ∧ Marked text.toList ∧ ∀ m, text.toList.length + 1 ≤ m → ∀ s, Closing s →
      readBranches m false [] [] (text.toList ++ s) = .ok (t, [])) := by
  obtain ⟨hread, hnames, hdepth⟩ := read_ok.1 h
  obtain ⟨after, reached, happend⟩ := readBranches_reads hread
  simp only at happend
  have hlist : (text ++ ")").toList = text.toList ++ [')'] := String.toList_append
  have hfuel : text.toList.length + 1 ≤ (text ++ ")").toList.length + 1 := by
    rw [hlist, List.length_append]
    omega
  have hclosing : Closing [')'] := ⟨by simp, by decide, by decide⟩
  have hparen := happend _ hfuel [')'] hclosing
  rcases reached.kept_or_swallowed with kept | ⟨marked, swallowed⟩
  · left
    refine ⟨fun hopen => ?_, fun m hm s hs => by rw [happend m hm s hs, kept]; rfl⟩
    obtain ⟨hmore, -⟩ := read_ok.1 (hopen.trans h)
    rw [hlist] at hmore hparen
    rw [hmore, kept] at hparen
    cases hparen
  · right
    refine ⟨?_, marked, fun m hm s hs => by rw [happend m hm s hs, swallowed]⟩
    rw [swallowed, ← hlist] at hparen
    exact (read_ok.2 ⟨hparen, hnames, hdepth⟩).trans h.symm

/-- Only a comment mark on the last line can leave a comment open. -/
theorem OpenComment.marked (hopen : OpenComment text) (h : read text = .ok t) :
    Marked text.toList := by
  rcases readBranches_append h with ⟨hclosed, -⟩ | ⟨-, marked, -⟩
  · exact absurd hopen hclosed
  · exact marked

-- ---------------------------------------------------------------------------
-- Anchors
-- ---------------------------------------------------------------------------

theorem toList_anchored (text : String) :
    (anchored text).toList = '^' :: '(' :: '?' :: ':' :: (text.toList ++ [')', '$']) := by
  simp [anchored, String.toList_append]

theorem closing_anchor : Closing [')', '$'] :=
  ⟨by simp, by decide, by decide⟩

theorem readBranches_anchors (m : Nat) (cs : List Char) :
    readBranches (m + 2) false [] [] ('^' :: '(' :: '?' :: ':' :: cs) = (do
      let (inner, rest) ← readBranches m false [] [] cs
      match rest with
      | ')' :: rest =>
        readBranches m false [] [.group [] none inner, .assertion .lineStart] rest
      | _ => .error .groupUnclosed) := rfl

theorem depth_anchored (t : Tree) : t.anchored.depth = t.depth + 2 := by
  simp [Tree.anchored, Tree.depth, Tree.depths]

theorem names_anchored (t : Tree) : t.anchored.names = t.names := by
  simp [Tree.anchored, Tree.names, Tree.allNames]

theorem read_anchored_of_closed (h : read text = .ok t) (hclosed : ¬ OpenComment text) :
    read (anchored text) = .ok a ↔ a = t.anchored ∧ t.depth + 2 ≤ depthLimit := by
  have hinside : readBranches ((anchored text).toList.length + 1) false [] []
      (anchored text).toList = .ok (t.anchored, []) := by
    rcases readBranches_append h with ⟨-, hkept⟩ | ⟨hopen, -⟩
    · have hfuel : (anchored text).toList.length + 1 = text.toList.length + 5 + 2 := by
        rw [toList_anchored]
        simp
      rw [hfuel, toList_anchored, readBranches_anchors, hkept _ (by omega) _ closing_anchor]
      rfl
    · exact absurd hopen hclosed
  have hnames := (read_ok.1 h).2.1
  rw [read_ok, hinside]
  constructor
  · rintro ⟨ha, -, hdepth⟩
    cases ha
    exact ⟨rfl, by rwa [depth_anchored] at hdepth⟩
  · rintro ⟨rfl, hdepth⟩
    rw [names_anchored, depth_anchored]
    exact ⟨rfl, hnames, hdepth⟩

theorem read_anchored_of_open (h : read text = .ok t) (hopen : OpenComment text) :
    read (anchored text) = .error .groupUnclosed := by
  rcases readBranches_append h with ⟨hclosed, -⟩ | ⟨-, -, hswallowed⟩
  · exact absurd hopen hclosed
  · have hfuel : (anchored text).toList.length + 1 = text.toList.length + 5 + 2 := by
      rw [toList_anchored]
      simp
    simp only [read, bind, Except.bind]
    rw [hfuel, toList_anchored, readBranches_anchors, hswallowed _ (by omega) _ closing_anchor]
    rfl

theorem meaning_anchored (h : t.meaning {} = .ok (r, after)) :
    t.anchored.meaning {} = .ok (.concat (.look (Assertion.lineStart.holds {}))
      (.concat r (.look (Assertion.lineEnd.holds {}))), {}) := by
  simp only [Tree.anchored, Tree.meaning, Tree.meanings, Mode.change, List.foldl_nil, h, bind,
    Except.bind]
  rfl

/-- The three conditions are all that compiling with anchors asks for. -/
theorem compile_anchored_iff [Room] (hread : read text = .ok t)
    (hmeaning : t.meaning {} = .ok (r, after)) :
    (∃ a, compile (anchored text) = .ok a) ↔ Anchorable text := by
  constructor
  · rintro ⟨a, ha⟩
    obtain ⟨t', after', hread', -, hroom⟩ := compile_ok.1 ha
    have hclosed : ¬ OpenComment text := fun hopen => by
      rw [read_anchored_of_open hread hopen] at hread'
      cases hread'
    obtain ⟨rfl, hdepth⟩ := (read_anchored_of_closed hread hclosed).1 hread'
    refine ⟨hclosed, fun t' ht' => ?_, fun t' ht' => ?_⟩
    · rw [hread] at ht'
      cases ht'
      exact hdepth
    · rw [hread'] at ht'
      cases ht'
      exact hroom
  · intro hanchorable
    have hdepth := hanchorable.depth t hread
    have hread' : read (anchored text) = .ok t.anchored :=
      (read_anchored_of_closed hread hanchorable.closed).2 ⟨rfl, hdepth⟩
    have hroom := hanchorable.room t.anchored hread'
    exact ⟨_, compile_ok.2 ⟨t.anchored, _, hread', meaning_anchored hmeaning, hroom⟩⟩

end Courier.Pattern
