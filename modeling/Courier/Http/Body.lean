import Courier.Base64

/-!
# Request bodies
-/

namespace Courier

inductive BodyKind where
  | text
  | bytes
  | parts
deriving Repr, DecidableEq, Inhabited

def BodyKind.name : BodyKind → String
  | .text => "STRING"
  | .bytes => "BYTE_ARRAY"
  | .parts => "MULTIPART"

def BodyKind.named : List (BodyKind × String) :=
  [BodyKind.text, .bytes, .parts].map fun k => (k, k.name)

inductive Body where
  | text (s : String)
  | bytes (b : Bytes)
  | parts (ps : List Bytes)
deriving DecidableEq, Repr

namespace Body

instance : Inhabited Body := ⟨.text ""⟩

def kind : Body → BodyKind
  | .text _ => .text
  | .bytes _ => .bytes
  | .parts _ => .parts

def isEmpty : Body → Bool
  | .text s => s.isEmpty
  | .bytes b => b.isEmpty
  | .parts ps => ps.isEmpty

def joinParts : List Bytes → List Char
  | [] => []
  | [p] => Base64.encode p
  | p :: rest => Base64.encode p ++ ',' :: joinParts rest

/-- The body as text; bytes and every part in base 64. -/
def rendered : Body → String
  | .text s => s
  | .bytes b => Base64.text b
  | .parts ps => String.ofList (joinParts ps)

end Body

end Courier
