import Mathlib.Data.List.Nodup
import Courier.Queue.Mailbox

/-!
# Turns at a mailbox

Offers, polls, drains, receivers that run and receivers that give up may follow one another in any
order. What was handed out and what is still there is always what was offered, in the same order.
And nobody sleeps over an item: while somebody sleeps, every item has a woken receiver of its own
that has yet to look for it.
-/

namespace Courier.Mailbox

variable {α : Type} {m : Mailbox α} {r : Nat}

-- ---------------------------------------------------------------------------
-- Receivers that run
-- ---------------------------------------------------------------------------

/-- The loop of a receiver that runs: it looks for an item and waits if there is none. A permit
ends the wait at once, and the receiver looks again. -/
def look (m : Mailbox α) (r : Nat) : Option α × Mailbox α :=
  match m.items with
  | a :: rest => (some a, { m with items := rest })
  | [] =>
    if _h : m.permit = true then look { m with permit := false } r
    else (none, { m with sleeping := m.sleeping ++ [r] })
termination_by m.permit.toNat
decreasing_by simp [_h]

/-- Two looks at most: the loop takes an item, or uses up the permit and sleeps. -/
theorem attend_eq_look (m : Mailbox α) (r : Nat) :
    m.attend r = ({ m with woken := m.woken.erase r } : Mailbox α).look r := by
  cases hi : m.items with
  | cons a rest =>
    rw [look]
    simp only [attend, hi]
  | nil =>
    rw [look]
    simp only [attend, hi]
    cases hp : m.permit with
    | false => simp
    | true =>
      rw [look]
      simp

-- ---------------------------------------------------------------------------
-- Turns
-- ---------------------------------------------------------------------------

inductive Turn (α : Type) where
  | offer (a : α)
  | poll
  | drain (most : Nat)
  /-- A receiver runs until it has an item or sleeps. It may be new, woken, or still asleep. -/
  | run (r : Nat)
  | leave (r : Nat)

/-- One turn, and the items that it hands out. A receiver that runs without having been woken
sleeps on in its place. -/
def turn (m : Mailbox α) : Turn α → List α × Mailbox α
  | .offer a => ([], m.offer a)
  | .poll => (m.poll.1.toList, m.poll.2)
  | .drain most => m.drain most
  | .run r => if r ∈ m.sleeping then ([], m) else ((m.attend r).1.toList, (m.attend r).2)
  | .leave r => ([], m.leave r)

def turns (m : Mailbox α) : List (Turn α) → List α × Mailbox α
  | [] => ([], m)
  | t :: ts =>
    let (handed, m) := m.turn t
    let (later, m) := m.turns ts
    (handed ++ later, m)

def offered : List (Turn α) → List α
  | [] => []
  | .offer a :: ts => a :: offered ts
  | _ :: ts => offered ts

-- ---------------------------------------------------------------------------
-- Items
-- ---------------------------------------------------------------------------

@[simp] theorem items_notify (m : Mailbox α) : m.notify.items = m.items := by
  unfold notify
  split <;> rfl

theorem items_offer (m : Mailbox α) (a : α) : (m.offer a).items = m.items ++ [a] :=
  items_notify _

theorem poll_fst (m : Mailbox α) : m.poll.1.toList = m.items.take 1 := by
  cases hi : m.items with
  | nil => simp [poll, hi]
  | cons a rest => simp [poll, hi]

theorem items_poll (m : Mailbox α) : m.poll.1.toList ++ m.poll.2.items = m.items := by
  cases hi : m.items with
  | nil => simp [poll, hi]
  | cons a rest => simp [poll, hi]

theorem items_attend (m : Mailbox α) (r : Nat) :
    (m.attend r).1.toList ++ (m.attend r).2.items = m.items := by
  unfold attend
  cases hi : m.items with
  | nil => simp
  | cons a rest => simp

theorem items_leave (m : Mailbox α) (r : Nat) : (m.leave r).items = m.items := by
  unfold leave
  split
  · exact items_notify _
  · rfl

theorem items_turn (m : Mailbox α) (t : Turn α) :
    (m.turn t).1 ++ (m.turn t).2.items = m.items ++ offered [t] := by
  cases t with
  | offer a => simp [turn, items_offer, offered]
  | poll => simp [turn, items_poll, offered]
  | drain most => simp [turn, drain, offered]
  | run r =>
    simp only [turn, offered, List.append_nil]
    split
    · rfl
    · exact m.items_attend r
  | leave r =>
    simp only [turn, offered, List.append_nil, List.nil_append]
    exact m.items_leave r

theorem offered_cons (t : Turn α) (ts : List (Turn α)) :
    offered (t :: ts) = offered [t] ++ offered ts := by
  cases t <;> rfl

theorem items_turns (m : Mailbox α) (ts : List (Turn α)) :
    (m.turns ts).1 ++ (m.turns ts).2.items = m.items ++ offered ts := by
  induction ts generalizing m with
  | nil => simp [turns, offered]
  | cons t ts ih =>
    calc (m.turns (t :: ts)).1 ++ (m.turns (t :: ts)).2.items
        = (m.turn t).1 ++ (((m.turn t).2.turns ts).1 ++ ((m.turn t).2.turns ts).2.items) := by
          simp [turns]
      _ = (m.turn t).1 ++ (m.turn t).2.items ++ offered ts := by rw [ih, List.append_assoc]
      _ = m.items ++ offered (t :: ts) := by
          rw [items_turn, offered_cons t ts, List.append_assoc]

-- ---------------------------------------------------------------------------
-- Receivers
-- ---------------------------------------------------------------------------

/-- Every receiver waits once, a permit is only left when nobody sleeps, and nobody sleeps over an
item that no woken receiver has yet to look for. -/
structure Attended (m : Mailbox α) : Prop where
  distinct : (m.sleeping ++ m.woken).Nodup
  idle : m.permit = true → m.sleeping = []
  covered : m.sleeping ≠ [] → m.items.length ≤ m.woken.length

namespace Attended

/-- A wake-up makes up for one item too many. -/
theorem notify (distinct : (m.sleeping ++ m.woken).Nodup)
    (idle : m.permit = true → m.sleeping = [])
    (covered : m.sleeping ≠ [] → m.items.length ≤ m.woken.length + 1) : m.notify.Attended := by
  unfold Mailbox.notify
  split
  · next hs => exact ⟨by simpa [hs] using distinct, fun _ => hs, fun h => absurd hs h⟩
  · next r rest hs =>
    rw [hs] at distinct idle covered
    refine ⟨?_, fun hp => absurd (idle hp) (List.cons_ne_nil r rest), fun _ => ?_⟩
    · have hperm : (rest ++ (m.woken ++ [r])).Perm (r :: rest ++ m.woken) := by
        rw [← List.append_assoc]
        exact List.perm_append_singleton r (rest ++ m.woken)
      exact hperm.nodup_iff.2 distinct
    · simpa using covered (List.cons_ne_nil r rest)

theorem take_items (h : m.Attended) {items : List α} (fewer : items.length ≤ m.items.length) :
    ({ m with items } : Mailbox α).Attended :=
  ⟨h.distinct, h.idle, fun hs => Nat.le_trans fewer (h.covered hs)⟩

theorem attend (h : m.Attended) {r : Nat} (awake : r ∉ m.sleeping) : (m.attend r).2.Attended := by
  have hkept : (m.sleeping ++ m.woken.erase r).Nodup :=
    h.distinct.sublist (List.erase_sublist.append_left m.sleeping)
  unfold Mailbox.attend
  cases hi : m.items with
  | cons a rest =>
    refine ⟨hkept, h.idle, fun hs => ?_⟩
    have hcovered := h.covered hs
    rw [hi, List.length_cons] at hcovered
    have herase : m.woken.length - 1 ≤ (m.woken.erase r).length := List.le_length_erase
    exact Nat.le_trans (Nat.le_sub_one_of_lt hcovered) herase
  | nil =>
    refine ⟨?_, nofun, fun _ => Nat.zero_le _⟩
    have hperm : (m.sleeping ++ [r] ++ m.woken.erase r).Perm
        (r :: (m.sleeping ++ m.woken.erase r)) := by
      rw [List.append_assoc]
      exact List.perm_middle
    rw [hperm.nodup_iff, List.nodup_cons, List.mem_append, not_or]
    have hwoken : m.woken.Nodup := (List.nodup_append.1 h.distinct).2.1
    exact ⟨⟨awake, hwoken.not_mem_erase⟩, hkept⟩

theorem leave (h : m.Attended) (r : Nat) : (m.leave r).Attended := by
  unfold Mailbox.leave
  split
  · next hr =>
    refine notify ?_ h.idle fun hs => ?_
    · exact h.distinct.sublist (List.erase_sublist.append_left m.sleeping)
    · have hlength := List.length_erase_of_mem hr
      have hpos := List.length_pos_of_mem hr
      have hcovered := h.covered hs
      simp only [hlength]
      omega
  · refine ⟨?_, fun hp => ?_, fun hs => h.covered fun e => hs ?_⟩
    · exact h.distinct.sublist (List.erase_sublist.append_right m.woken)
    · simp [h.idle hp]
    · simp [e]

theorem turn (h : m.Attended) (t : Turn α) : (m.turn t).2.Attended := by
  cases t with
  | offer a =>
    refine notify h.distinct h.idle fun hs => ?_
    simpa using h.covered hs
  | poll =>
    cases hi : m.items with
    | nil => simpa [Mailbox.turn, poll, hi] using h
    | cons a rest =>
      have hfewer : rest.length ≤ m.items.length := by simp [hi]
      simpa [Mailbox.turn, poll, hi] using h.take_items hfewer
  | drain most =>
    exact h.take_items (by simp)
  | run r =>
    simp only [Mailbox.turn]
    split
    · exact h
    · next awake => exact h.attend awake
  | leave r => exact h.leave r

theorem turns (h : m.Attended) (ts : List (Turn α)) : (m.turns ts).2.Attended := by
  induction ts generalizing m with
  | nil => exact h
  | cons t ts ih => exact ih (h.turn t)

theorem empty (name : String) : ({ name } : Mailbox α).Attended :=
  ⟨by simp, fun _ => rfl, fun h => absurd rfl h⟩

end Attended

-- ---------------------------------------------------------------------------
-- Waiting
-- ---------------------------------------------------------------------------

def Waits (m : Mailbox α) (r : Nat) : Prop :=
  r ∈ m.sleeping ∨ r ∈ m.woken

theorem waits_notify (m : Mailbox α) (r : Nat) : m.notify.Waits r ↔ m.Waits r := by
  unfold notify
  split
  · rfl
  · next first rest hs =>
    simp only [Waits, hs, List.mem_append, List.mem_cons, List.not_mem_nil, or_false]
    tauto

namespace Waits

theorem leave (h : m.Waits r) {other : Nat} (hother : r ≠ other) :
    (m.leave other).Waits r := by
  unfold Mailbox.leave
  split
  · refine (waits_notify _ r).2 (h.imp_right ?_)
    exact (List.mem_erase_of_ne hother).2
  · exact h.imp_left (List.mem_erase_of_ne hother).2

theorem attend (h : m.Waits r) {other : Nat} (hother : r ≠ other) :
    (m.attend other).2.Waits r := by
  have hkept : r ∈ m.sleeping ∨ r ∈ m.woken.erase other :=
    h.imp_right (List.mem_erase_of_ne hother).2
  unfold Mailbox.attend
  cases m.items with
  | cons a rest => exact hkept
  | nil => exact hkept.imp_left (List.mem_append_left _)

theorem turn (h : m.Waits r) {t : Turn α} (hrun : t ≠ .run r) (hleave : t ≠ .leave r) :
    (m.turn t).2.Waits r := by
  cases t with
  | offer a => exact (waits_notify _ r).2 h
  | poll =>
    cases hi : m.items with
    | nil => simpa [Mailbox.turn, poll, hi] using h
    | cons a rest => simpa [Mailbox.turn, poll, hi, Waits] using h
  | drain most => exact h
  | run other =>
    have hother : r ≠ other := fun e => hrun (e ▸ rfl)
    simp only [Mailbox.turn]
    split
    · exact h
    · exact h.attend hother
  | leave other =>
    have hother : r ≠ other := fun e => hleave (e ▸ rfl)
    exact h.leave hother

theorem turns (h : m.Waits r) {ts : List (Turn α)} (hrun : .run r ∉ ts)
    (hleave : .leave r ∉ ts) : (m.turns ts).2.Waits r := by
  induction ts generalizing m with
  | nil => exact h
  | cons t ts ih =>
    rw [List.mem_cons, not_or] at hrun hleave
    exact ih (h.turn (Ne.symm hrun.1) (Ne.symm hleave.1)) hrun.2 hleave.2

end Waits

theorem waits_run (h : (m.turn (.run r)).1 = []) : (m.turn (.run r)).2.Waits r := by
  by_cases hr : r ∈ m.sleeping
  · simp only [turn, hr, if_true]
    exact .inl hr
  · simp only [turn, hr, if_false] at h ⊢
    cases hi : m.items with
    | cons a rest => simp [attend, hi] at h
    | nil =>
      simp only [attend, hi]
      exact .inl (List.mem_append_right _ (List.mem_singleton_self r))

theorem turns_append (m : Mailbox α) (ts later : List (Turn α)) :
    (m.turns (ts ++ later)).2 = ((m.turns ts).2.turns later).2 := by
  induction ts generalizing m with
  | nil => rfl
  | cons t ts ih => exact ih (m.turn t).2

/-- A new mailbox after any turns: nothing was lost, doubled or reordered, every receiver waits at
most once, and while somebody sleeps there are no more items than woken receivers that have yet to
run. Who has run in vain and not given up sleeps unless woken, and who runs goes through the loop of
a receiver. -/
theorem turns_lose_nothing (name : String) (ts : List (Turn α)) :
    let handed := (({ name } : Mailbox α).turns ts).1
    let m := (({ name } : Mailbox α).turns ts).2
    handed ++ m.items = offered ts ∧
      (m.sleeping ++ m.woken).Nodup ∧
      (m.sleeping ≠ [] → m.items.length ≤ m.woken.length) ∧
      (∀ before r after, ts = before ++ .run r :: after →
        ((({ name } : Mailbox α).turns before).2.turn (.run r)).1 = [] →
        .run r ∉ after → .leave r ∉ after → r ∉ m.woken → r ∈ m.sleeping) ∧
      ∀ r, r ∉ m.sleeping →
        let looked := ({ m with woken := m.woken.erase r } : Mailbox α).look r
        m.turn (.run r) = (looked.1.toList, looked.2) := by
  intro handed m
  have hattended : m.Attended := (Attended.empty name).turns ts
  refine ⟨items_turns _ ts, hattended.distinct, hattended.covered, ?_, fun r hr => ?_⟩
  · intro before r after hts hvain hrun hleave hwoken
    have hm : m = (((({ name } : Mailbox α).turns before).2.turn (.run r)).2.turns after).2 := by
      simp only [m, hts, turns_append, turns]
    have hwaits : m.Waits r := hm ▸ (waits_run hvain).turns hrun hleave
    exact hwaits.resolve_right hwoken
  · simp only [turn, hr, if_false, attend_eq_look]

end Courier.Mailbox
