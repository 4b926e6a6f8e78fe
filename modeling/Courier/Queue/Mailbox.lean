import Courier.Text.Quoted
import Courier.Decimal.Shortest

/-!
# Mailboxes

A queue without bound. Receivers that find it empty fall asleep; every item put in wakes the one
that has slept longest, or is remembered as a single permit when nobody sleeps. A woken receiver
looks for an item when it runs again, and falls asleep anew if somebody else was faster.
-/

namespace Courier

structure Mailbox (α : Type) where
  name : String
  items : List α := []
  /-- A wake-up that found no sleeper. -/
  permit : Bool := false
  sleeping : List Nat := []
  /-- Receivers woken but not yet run again, in the order of their wake-ups. -/
  woken : List Nat := []

namespace Mailbox

variable {α : Type}

def described (m : Mailbox α) : String :=
  "MessageQueue \x7b name: " ++ Text.quoted m.name ++ ", len: " ++
    String.ofList (Decimal.digits m.items.length) ++ " \x7d"

def notify (m : Mailbox α) : Mailbox α :=
  match m.sleeping with
  | [] => { m with permit := true }
  | r :: rest => { m with sleeping := rest, woken := m.woken ++ [r] }

def offer (m : Mailbox α) (a : α) : Mailbox α :=
  { m with items := m.items ++ [a] }.notify

def poll (m : Mailbox α) : Option α × Mailbox α :=
  match m.items with
  | [] => (none, m)
  | a :: rest => (some a, { m with items := rest })

def drain (m : Mailbox α) (most : Nat) : List α × Mailbox α :=
  (m.items.take most, { m with items := m.items.drop most })

/-- Runs a receiver that is new or was woken: it takes an item, or uses up the permit in vain and
falls asleep. -/
def attend (m : Mailbox α) (r : Nat) : Option α × Mailbox α :=
  let m := { m with woken := m.woken.erase r }
  match m.items with
  | a :: rest => (some a, { m with items := rest })
  | [] => (none, { m with permit := false, sleeping := m.sleeping ++ [r] })

/-- A receiver gives up. If it was woken already, its wake-up goes to the next one. -/
def leave (m : Mailbox α) (r : Nat) : Mailbox α :=
  if r ∈ m.woken then { m with woken := m.woken.erase r }.notify
  else { m with sleeping := m.sleeping.erase r }

end Mailbox

end Courier
