import Courier.Json.Document
import Courier.Proofs.Json.Canonical
import Courier.Proofs.Json.Scanning

/-!
# Reading back values

The text of a value is read as the tree of the value. From its tree a container is read back if
and only if all that is in it is, and a number if its numeral means that number. A reader that
keeps canonical values up to some depth then keeps a canonical value that is not deeper.
-/

namespace Courier.Json

def Number.document (n : Number) : Document :=
  n.numeral?.elim .null .number

namespace Value

mutual
def document : Value → Document
  | .null => .null
  | .bool b => .bool b
  | .number n => n.document
  | .string s => .string (some s)
  | .array items => .array (itemsDocument items)
  | .object members => .object (membersDocument members)

def itemsDocument : List Value → List Document
  | [] => []
  | v :: rest => v.document :: itemsDocument rest

def membersDocument : List (String × Value) → List (Option String × Document)
  | [] => []
  | (name, v) :: rest => (some name, v.document) :: membersDocument rest
end

-- ---------------------------------------------------------------------------
-- Documents
-- ---------------------------------------------------------------------------

open Document (Frame Progress)

theorem run_cons (p : Progress) (t : Token) (ts : List Token) :
    Progress.run p (t :: ts) = (p.step t).bind (Progress.run · ts) := rfl

/-- Where a value has to stand, its tokens are read as its tree. -/
def Parsable (v : Value) : Prop :=
  ∀ stack ts, Progress.run (.awaiting stack) (v.tokens ++ ts) =
    Progress.run (.complete stack v.document) ts

theorem run_arrayOpened (v : Value) (stack : List Frame) (ts : List Token) :
    Progress.run (.arrayOpened stack) (v.tokens ++ ts) =
      Progress.run (.awaiting (.array [] :: stack)) (v.tokens ++ ts) := by
  cases v with
  | number n =>
    rw [tokens, Number.token]
    cases n.numeral? <;> rfl
  | _ => rfl

theorem run_arrayOpened_items (v : Value) (items : List Value) (stack : List Frame)
    (ts : List Token) :
    Progress.run (.arrayOpened stack) (itemsTokens (v :: items) ++ ts) =
      Progress.run (.awaiting (.array [] :: stack)) (itemsTokens (v :: items) ++ ts) := by
  cases items with
  | nil => exact run_arrayOpened v stack ts
  | cons w items => simp only [itemsTokens, List.append_assoc, run_arrayOpened]

theorem run_items {items : List Value} (hv : v.Parsable) (hitems : ∀ w ∈ items, w.Parsable)
    (done : List Document) (stack : List Frame) (ts : List Token) :
    Progress.run (.awaiting (.array done :: stack))
        (itemsTokens (v :: items) ++ .closeArray :: ts) =
      Progress.run (.complete stack (.array (done.reverse ++ itemsDocument (v :: items)))) ts := by
  induction items generalizing v done with
  | nil =>
    rw [itemsTokens, hv, run_cons]
    simp [Progress.step, itemsDocument]
  | cons w items ih =>
    have hrest := ih (hitems w List.mem_cons_self)
      (fun u hu => hitems u (List.mem_cons_of_mem _ hu)) (v.document :: done)
    simp only [itemsTokens, List.append_assoc, List.cons_append]
    rw [hv, run_cons]
    simp only [Progress.step, Option.bind_some, hrest]
    simp [itemsDocument]

theorem run_objectOpened (m : Member) (members : List Member) (stack : List Frame)
    (ts : List Token) :
    Progress.run (.objectOpened stack) (membersTokens (m :: members) ++ ts) =
      Progress.run (.nameWanted stack []) (membersTokens (m :: members) ++ ts) := by
  cases members <;> rfl

theorem run_members {m : Member} {members : List Member} (hm : m.2.Parsable)
    (hmembers : ∀ n ∈ members, n.2.Parsable) (done : List (Option String × Document))
    (stack : List Frame) (ts : List Token) :
    Progress.run (.nameWanted stack done) (membersTokens (m :: members) ++ .closeObject :: ts) =
      Progress.run (.complete stack (.object (done.reverse ++ membersDocument (m :: members))))
        ts := by
  induction members generalizing m done with
  | nil =>
    simp only [membersTokens, List.cons_append, run_cons, Progress.step, Option.bind_some]
    rw [hm, run_cons]
    simp [Progress.step, membersDocument]
  | cons n members ih =>
    have hrest := ih (hmembers n List.mem_cons_self)
      (fun n hn => hmembers n (List.mem_cons_of_mem _ hn)) ((some m.1, m.2.document) :: done)
    simp only [membersTokens, List.cons_append, List.append_assoc, run_cons, Progress.step,
      Option.bind_some]
    rw [hm, run_cons]
    simp only [Progress.step, Option.bind_some, hrest]
    simp [membersDocument]

theorem parsable (v : Value) : v.Parsable := by
  induction v using induct with
  | null => exact fun stack ts => rfl
  | bool b => exact fun stack ts => rfl
  | number n =>
    intro stack ts
    rw [tokens, document, Number.token, Number.document]
    cases n.numeral? <;> rfl
  | string s => exact fun stack ts => rfl
  | array items ih =>
    intro stack ts
    cases items with
    | nil => rfl
    | cons v items =>
      have hitems := run_items (ih v List.mem_cons_self)
        (fun w hw => ih w (List.mem_cons_of_mem _ hw)) [] stack ts
      simp only [tokens, List.cons_append, List.append_assoc, List.nil_append, run_cons,
        Progress.step, Document.startValue, Option.bind_some, run_arrayOpened_items, hitems]
      rfl
  | object members ih =>
    intro stack ts
    cases members with
    | nil => rfl
    | cons m members =>
      have hmembers := run_members (ih m List.mem_cons_self)
        (fun n hn => ih n (List.mem_cons_of_mem _ hn)) [] stack ts
      simp only [tokens, List.cons_append, List.append_assoc, List.nil_append, run_cons,
        Progress.step, Document.startValue, Option.bind_some, run_objectOpened, hmembers]
      rfl

theorem document_of_text (v : Value) : Document.ofText? v.text = some v.document := by
  have hrun : Progress.run (.awaiting []) v.tokens = some (.complete [] v.document) := by
    have h := v.parsable [] []
    rwa [List.append_nil] at h
  rw [Document.ofText?, v.tokens_of_text, Option.bind_some, Document.ofTokens?, hrun]

end Value

-- ---------------------------------------------------------------------------
-- Values
-- ---------------------------------------------------------------------------

def Number.Returns (n : Number) : Prop :=
  n.numeral?.bind Numeral.toNumber? = some n

theorem Number.returns_integer (i : Int) (h : InRange i) : (integer i h).Returns := by
  rw [Returns, numeral?_integer, Option.bind_some, Numeral.toNumber?_ofInt]

namespace Value

def Returns (v : Value) : Prop :=
  v.document.toValue? = some v

theorem returns_number (n : Number) : (number n).Returns ↔ n.Returns := by
  rw [Returns, document, Number.document, Number.Returns]
  cases n.numeral? with
  | none => simp [Document.toValue?]
  | some m => simp [Document.toValue?]

theorem itemsValue?_eq_iff (items : List Value) :
    Document.itemsValue? (itemsDocument items) = some items ↔ ∀ v ∈ items, v.Returns := by
  induction items with
  | nil => simp [itemsDocument, Document.itemsValue?]
  | cons v items ih =>
    rw [List.forall_mem_cons, ← ih, Returns]
    simp [itemsDocument, Document.itemsValue?, Option.bind_eq_some_iff]

theorem membersValue?_eq_iff (members : List Member) :
    Document.membersValue? (membersDocument members) = some members ↔
      ∀ m ∈ members, m.2.Returns := by
  induction members with
  | nil => simp [membersDocument, Document.membersValue?]
  | cons m members ih =>
    rw [List.forall_mem_cons, ← ih, Returns]
    simp [membersDocument, Document.membersValue?, Option.bind_eq_some_iff, Prod.ext_iff]

theorem returns_array (items : List Value) : (array items).Returns ↔ ∀ v ∈ items, v.Returns := by
  rw [Returns, document, Document.toValue?, ← itemsValue?_eq_iff]
  simp

theorem returns_object (members : List Member) :
    (object members).Returns ↔ ∀ m ∈ members, m.2.Returns := by
  rw [Returns, document, Document.toValue?, ← membersValue?_eq_iff]
  simp

theorem Returns.get? {v w : Value} (h : v.Returns) (hw : v.get? name = some w) : w.Returns := by
  cases v with
  | object members =>
    obtain ⟨before, after, rfl, -⟩ := List.lookup_eq_some_iff.1 hw
    exact (returns_object _).1 h (name, w) (by simp)
  | _ => cases hw

-- ---------------------------------------------------------------------------
-- Kept values
-- ---------------------------------------------------------------------------

variable {v w : Value}

theorem mem_itemsValue? {items ws : List Value} (hw : w ∈ ws)
    (h : Document.itemsValue? (itemsDocument items) = some ws) :
    ∃ v ∈ items, v.document.toValue? = some w := by
  induction items generalizing ws with
  | nil =>
    cases h
    cases hw
  | cons v items ih =>
    simp only [itemsDocument, Document.itemsValue?, Option.bind_eq_bind, Option.bind_eq_some_iff,
      Option.pure_def, Option.some.injEq] at h
    obtain ⟨first, hfirst, rest, hrest, rfl⟩ := h
    rcases List.mem_cons.1 hw with rfl | hw
    · exact ⟨v, List.mem_cons_self, hfirst⟩
    · obtain ⟨u, hu, hread⟩ := ih hw hrest
      exact ⟨u, List.mem_cons_of_mem _ hu, hread⟩

theorem names_membersValue? {members ns : List Member}
    (h : Document.membersValue? (membersDocument members) = some ns) :
    ns.map Prod.fst = members.map Prod.fst ∧
      ∀ n ∈ ns, ∃ m ∈ members, m.2.document.toValue? = some n.2 := by
  induction members generalizing ns with
  | nil =>
    cases h
    exact ⟨rfl, fun n hn => nomatch hn⟩
  | cons m members ih =>
    simp only [membersDocument, Document.membersValue?, Option.bind_eq_bind,
      Option.bind_eq_some_iff, Option.pure_def, Option.some.injEq] at h
    obtain ⟨name, rfl, first, hfirst, rest, hrest, rfl⟩ := h
    obtain ⟨hnames, hothers⟩ := ih hrest
    refine ⟨by rw [List.map_cons, List.map_cons, hnames], fun n hn => ?_⟩
    rcases List.mem_cons.1 hn with rfl | hn
    · exact ⟨m, List.mem_cons_self, hfirst⟩
    · obtain ⟨u, hu, hread⟩ := hothers n hn
      exact ⟨u, List.mem_cons_of_mem _ hu, hread⟩

/-- What is read where a canonical value is written is canonical. -/
theorem canonical_of_toValue? (hv : v.canonical = v) (h : v.document.toValue? = some w) :
    w.canonical = w := by
  induction v using induct generalizing w with
  | null => cases h; rfl
  | bool b => cases h; rfl
  | number n =>
    rw [document, Number.document] at h
    cases hn : n.numeral? with
    | none =>
      rw [hn] at h
      cases h
      rfl
    | some m =>
      rw [hn] at h
      obtain ⟨k, -, rfl⟩ := Option.map_eq_some_iff.1 h
      rfl
  | string s => cases h; rfl
  | array items ih =>
    obtain ⟨ws, hws, rfl⟩ := Option.map_eq_some_iff.1 h
    refine (canonical_array_eq_iff ws).2 fun u hu => ?_
    obtain ⟨v, hv', hread⟩ := mem_itemsValue? hu hws
    exact ih v hv' ((canonical_array_eq_iff items).1 hv v hv') hread
  | object members ih =>
    obtain ⟨ns, hns, rfl⟩ := Option.map_eq_some_iff.1 h
    obtain ⟨hnames, hothers⟩ := names_membersValue? hns
    obtain ⟨hascending, hmembers⟩ := (canonical_object_eq_iff members).1 hv
    refine (canonical_object_eq_iff ns).2 ⟨?_, fun n hn => ?_⟩
    · have : (members.map Prod.fst).Pairwise (· < ·) := List.pairwise_map.2 hascending
      rw [← hnames] at this
      exact List.pairwise_map.1 this
    · obtain ⟨m, hm, hread⟩ := hothers n hn
      exact ih m hm (hmembers m hm) hread

def depth (v : Value) : Nat :=
  v.document.depth

/-- Not nested too deeply for a reader that allows this much, and read back. -/
def Readable (d : Nat) (v : Value) : Prop :=
  v.depth ≤ d ∧ v.Returns

theorem keep?_eq_some_iff (hv : v.canonical = v) (houter : outer ≤ Document.depthLimit) :
    v.document.keep? outer = some v ↔ v.Readable (Document.depthLimit - outer) := by
  rw [Readable, Nat.le_sub_iff_add_le houter, depth, Document.keep?, Option.ite_none_right_eq_some,
    Option.map_eq_some_iff]
  refine and_congr_right fun _ => ⟨?_, fun h => ⟨v, h, hv⟩⟩
  rintro ⟨w, hw, hcanonical⟩
  rw [canonical_of_toValue? hv hw] at hcanonical
  rwa [hcanonical] at hw

theorem depth_number (n : Number) : (number n).depth = 0 := by
  rw [depth, document, Number.document]
  cases n.numeral? <;> rfl

theorem parse?_number_iff (n : Number) :
    parse? (number n).text = some (number n) ↔ n.Returns := by
  rw [parse?, document_of_text, Option.bind_some, keep?_eq_some_iff rfl (Nat.zero_le _), Readable,
    returns_number, depth_number]
  exact and_iff_right (Nat.zero_le _)

theorem itemsDepth_le_iff (items : List Value) :
    Document.itemsDepth (itemsDocument items) ≤ d ↔ ∀ v ∈ items, v.depth ≤ d := by
  induction items with
  | nil => simp [itemsDocument, Document.itemsDepth]
  | cons v items ih =>
    rw [List.forall_mem_cons, ← ih, itemsDocument, Document.itemsDepth, Nat.max_le, depth]

theorem membersDepth_le_iff (members : List Member) :
    Document.membersDepth (membersDocument members) ≤ d ↔ ∀ m ∈ members, m.2.depth ≤ d := by
  induction members with
  | nil => simp [membersDocument, Document.membersDepth]
  | cons m members ih =>
    rw [List.forall_mem_cons, ← ih, membersDocument, Document.membersDepth, Nat.max_le, depth]

theorem readable_array (items : List Value) :
    (array items).Readable d ↔ ∃ e, d = e + 1 ∧ ∀ v ∈ items, v.Readable e := by
  cases d with
  | zero => simp [Readable, depth, document, Document.depth]
  | succ e =>
    have hdepth : (array items).depth ≤ e + 1 ↔ ∀ v ∈ items, v.depth ≤ e :=
      Nat.succ_le_succ_iff.trans (itemsDepth_le_iff items)
    simp only [Readable, hdepth, returns_array, Nat.add_right_cancel_iff, exists_eq_left',
      forall_and]

theorem readable_object (members : List Member) :
    (object members).Readable d ↔ ∃ e, d = e + 1 ∧ ∀ m ∈ members, m.2.Readable e := by
  cases d with
  | zero => simp [Readable, depth, document, Document.depth]
  | succ e =>
    have hdepth : (object members).depth ≤ e + 1 ↔ ∀ m ∈ members, m.2.depth ≤ e :=
      Nat.succ_le_succ_iff.trans (membersDepth_le_iff members)
    simp only [Readable, hdepth, returns_object, Nat.add_right_cancel_iff, exists_eq_left',
      forall_and]

theorem Readable.canonical (h : v.Readable d) : v.canonical.Readable d := by
  induction v using induct generalizing d with
  | null => exact h
  | bool b => exact h
  | number n => exact h
  | string s => exact h
  | array items ih =>
    obtain ⟨e, rfl, hitems⟩ := (readable_array items).1 h
    refine (readable_array _).2 ⟨e, rfl, fun v hv => ?_⟩
    rw [canonicalItems_eq_map] at hv
    obtain ⟨w, hw, rfl⟩ := List.mem_map.1 hv
    exact ih w hw (hitems w hw)
  | object members ih =>
    obtain ⟨e, rfl, hmembers⟩ := (readable_object members).1 h
    refine (readable_object _).2 ⟨e, rfl, fun m hm => ?_⟩
    have hm := mem_of_mem_sortMembers hm
    rw [canonicalMembers_eq_map] at hm
    obtain ⟨n, hn, rfl⟩ := List.mem_map.1 hm
    exact ih n hn (hmembers n hn)

end Value

end Courier.Json
