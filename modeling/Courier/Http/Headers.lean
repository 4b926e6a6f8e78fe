import Courier.OrderedMap
import Courier.Text.Blank

/-!
# Headers

A map from header names to their values in order. Names keep the case in which they were given
and are told apart by it; only look-ups ignore it.
-/

namespace Courier

abbrev Headers := OrderedMap (List String)

namespace Headers

def append (h : Headers) (name value : String) : Headers :=
  h.alter name [value] (· ++ [value])

def mentions (h : Headers) (name : String) : Bool :=
  h.keys.any (Text.sameName · name)

/-- The values of the first name that is equal up to letter case. -/
def values? (h : Headers) (name : String) : Option (List String) :=
  (h.entries.find? fun e => Text.sameName e.1 name).map Prod.snd

def appendDefault (h : Headers) (name value : String) : Headers :=
  if h.mentions name then h else h.append name value

def flatten (h : Headers) : List (String × String) :=
  h.entries.flatMap fun (name, values) => values.map (name, ·)

end Headers

end Courier
