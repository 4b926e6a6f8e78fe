import Courier.OrderedMap
import Courier.Queue.Mailbox

/-!
# The broker

Mailboxes by name, created when first asked for, and the names that somebody consumes. Items are
published only to names with a consumer, so nothing piles up where nobody listens.
-/

namespace Courier

structure Broker (α : Type) where
  mailboxes : OrderedMap (Mailbox α) := .empty
  consumers : List String := []

inductive QueueError where
  | invalidName (name : String)
deriving Repr, DecidableEq

def QueueError.message : QueueError → String
  | .invalidName name =>
    "Cannot register a consumer for an invalid queue name: '" ++ name ++ "'"

namespace Broker

variable {α : Type}

def mailbox (b : Broker α) (name : String) : Mailbox α :=
  (b.mailboxes.get? name).getD { name }

def update (b : Broker α) (name : String) (f : Mailbox α → Mailbox α) : Broker α :=
  { b with mailboxes := b.mailboxes.alter name (f { name }) f }

def ensure (b : Broker α) (name : String) : Broker α :=
  b.update name id

def offer (b : Broker α) (name : String) (a : α) : Broker α :=
  b.update name (·.offer a)

def poll (b : Broker α) (name : String) : Option α × Broker α :=
  ((b.mailbox name).poll.1, b.update name (·.poll.2))

def drain (b : Broker α) (name : String) (most : Nat) : List α × Broker α :=
  (((b.mailbox name).drain most).1, b.update name fun m => (m.drain most).2)

def hasConsumer (b : Broker α) (name : String) : Bool :=
  b.consumers.contains name

def register (b : Broker α) (name : String) : Except QueueError (Broker α) :=
  if name.isEmpty then .error (.invalidName name)
  else if b.hasConsumer name then .ok b
  else .ok { b with consumers := b.consumers ++ [name] }

/-- Offers an item to a name with a consumer; `none` if there is no consumer. -/
def publish? (b : Broker α) (name : String) (a : α) : Option (Broker α) :=
  if b.hasConsumer name then some (b.offer name a) else none

def isEmpty (b : Broker α) : Bool :=
  b.mailboxes.isEmpty

def names (b : Broker α) : List String :=
  b.mailboxes.keys

end Broker

end Courier
