import Courier.Queue.Mailbox

/-!
# Receivers in time

A mailbox with the receivers that wait at it, some of them only until a deadline. Time is counted
in milliseconds and passes only when asked to; whoever can run runs before it does.
-/

namespace Courier

structure Receiver where
  ticket : Nat
  id : Nat
  deadline : Option Nat

structure Receivers (α : Type) where
  mailbox : Mailbox α
  waiting : List Receiver := []
  now : Nat := 0
  nextTicket : Nat := 0

abbrev Received (α : Type) := Nat × Option α

namespace Receivers

variable {α : Type}

def settleWith : Nat → Receivers α → List (Received α) × Receivers α
  | 0, s => ([], s)
  | fuel + 1, s =>
    match s.mailbox.woken with
    | [] => ([], s)
    | ticket :: _ =>
      let (item, mailbox) := s.mailbox.attend ticket
      match item, s.waiting.find? (·.ticket == ticket) with
      | some a, some r =>
        let (later, s) := settleWith fuel
          { s with mailbox, waiting := s.waiting.filter (·.ticket != ticket) }
        ((r.id, some a) :: later, s)
      | _, _ => settleWith fuel { s with mailbox }

def settle (s : Receivers α) : List (Received α) × Receivers α :=
  settleWith s.mailbox.woken.length s

def arrive (s : Receivers α) (id : Nat) (patience : Option Nat) :
    List (Received α) × Receivers α :=
  let ticket := s.nextTicket
  let (item, mailbox) := s.mailbox.attend ticket
  let s := { s with mailbox, nextTicket := ticket + 1 }
  match item, patience with
  | some a, _ => ([(id, some a)], s)
  | none, some 0 => ([(id, none)], { s with mailbox := s.mailbox.leave ticket })
  | none, patience =>
    ([], { s with waiting := s.waiting ++ [⟨ticket, id, patience.map (s.now + ·)⟩] })

def depart (s : Receivers α) (id : Nat) : Receivers α :=
  let leaving := s.waiting.filter (·.id == id)
  { s with
    mailbox := leaving.foldl (fun m r => m.leave r.ticket) s.mailbox
    waiting := s.waiting.filter (·.id != id) }

/-- Receivers in the order in which they run out of patience by the given time. -/
def overdue (s : Receivers α) (time : Nat) : List Receiver :=
  let late := s.waiting.filter fun r => r.deadline.any (· ≤ time)
  late.mergeSort fun a b => a.deadline.getD 0 ≤ b.deadline.getD 0

def elapse (s : Receivers α) (ms : Nat) : List (Received α) × Receivers α :=
  let time := s.now + ms
  let late := s.overdue time
  let tickets := late.map (·.ticket)
  (late.map fun r => (r.id, none),
    { s with
      now := time
      mailbox := late.foldl (fun m r => m.leave r.ticket) s.mailbox
      waiting := s.waiting.filter fun r => !tickets.contains r.ticket })

end Receivers

end Courier
