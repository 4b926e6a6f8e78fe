import Courier.Text.Blank

/-!
# Request methods
-/

namespace Courier

inductive Method where
  | get
  | post
  | put
  | patch
  | delete
  | head
  | options
  | trace
  | connect
deriving Repr, DecidableEq, Inhabited

namespace Method

def name : Method → String
  | get => "GET"
  | post => "POST"
  | put => "PUT"
  | patch => "PATCH"
  | delete => "DELETE"
  | head => "HEAD"
  | options => "OPTIONS"
  | trace => "TRACE"
  | connect => "CONNECT"

def all : List Method :=
  [get, post, put, patch, delete, head, options, trace, connect]

def named : List (Method × String) :=
  all.map fun m => (m, m.name)

def ofText? (s : String) : Option Method :=
  all.find? fun m => m.name == Text.upper (Text.trim s)

theorem ofText?_eq_some_iff {s : String} {m : Method} :
    ofText? s = some m ↔ Text.upper (Text.trim s) = m.name := by
  constructor
  · intro h
    have := List.find?_some h
    exact (beq_iff_eq.1 this).symm
  · intro h
    unfold ofText?
    rw [h]
    cases m <;> decide

end Method

end Courier
