import Courier.Proofs.OrderedMap
import Courier.Queue.Broker

/-!
# Mailboxes of a broker

An operation on one name changes the mailbox of that name and no other, and operations on one name
add up to one.
-/

namespace Courier.Broker

variable {α : Type}

@[simp] theorem mailbox_update (b : Broker α) (name : String) (f : Mailbox α → Mailbox α) :
    (b.update name f).mailbox name = f (b.mailbox name) := by
  simp only [mailbox, update, OrderedMap.get?_alter, if_true]
  cases b.mailboxes.get? name <;> rfl

theorem get?_update_of_ne (b : Broker α) {name other : String} (f : Mailbox α → Mailbox α)
    (h : other ≠ name) : (b.update name f).mailboxes.get? other = b.mailboxes.get? other := by
  simp only [update, OrderedMap.get?_alter, h, if_false]

theorem mailbox_update_of_ne (b : Broker α) {name other : String} (f : Mailbox α → Mailbox α)
    (h : other ≠ name) : (b.update name f).mailbox other = b.mailbox other := by
  rw [mailbox, get?_update_of_ne b f h, mailbox]

theorem mailbox_ensure (b : Broker α) (name other : String) :
    (b.ensure name).mailbox other = b.mailbox other := by
  by_cases hother : other = name
  · subst hother
    exact b.mailbox_update other id
  · exact b.mailbox_update_of_ne id hother

theorem update_congr {b : Broker α} {name : String} {f g : Mailbox α → Mailbox α}
    (h : f (b.mailbox name) = g (b.mailbox name)) : b.update name f = b.update name g := by
  have hfound : ((b.mailboxes.get? name).map f).getD (f { name }) =
      ((b.mailboxes.get? name).map g).getD (g { name }) := by
    rw [mailbox] at h
    cases hm : b.mailboxes.get? name with
    | none => simpa [hm] using h
    | some m => simpa [hm] using h
  rw [update, update, OrderedMap.alter_congr hfound]

theorem update_update (b : Broker α) (name : String) (f g : Mailbox α → Mailbox α) :
    (b.update name f).update name g = b.update name (g ∘ f) := by
  simp only [update, OrderedMap.alter_alter, Function.comp_apply]

theorem update_id {b : Broker α} {name : String} (h : name ∈ b.names) : b.update name id = b := by
  rw [update, OrderedMap.alter_id h]

theorem mem_names_of_items {b : Broker α} {name : String} (h : (b.mailbox name).items ≠ []) :
    name ∈ b.names := by
  by_contra hnot
  have hnone : b.mailboxes.get? name = none := by
    refine List.lookup_eq_none_iff.2 fun e he => bne_iff_ne.2 ?_
    rintro rfl
    exact hnot (List.mem_map_of_mem he)
  exact h (by rw [mailbox, hnone]; rfl)

@[simp] theorem items_offer (b : Broker α) (name : String) (a : α) :
    ((b.offer name a).mailbox name).items = (b.mailbox name).items ++ [a] := by
  simp only [offer, mailbox_update, Mailbox.offer, Mailbox.notify]
  split <;> rfl

@[simp] theorem drain_fst (b : Broker α) (name : String) (most : Nat) :
    (b.drain name most).1 = (b.mailbox name).items.take most := rfl

@[simp] theorem items_drain (b : Broker α) (name : String) (most : Nat) :
    ((b.drain name most).2.mailbox name).items = (b.mailbox name).items.drop most := by
  simp only [drain, mailbox_update, Mailbox.drain]

-- ---------------------------------------------------------------------------
-- Names
-- ---------------------------------------------------------------------------

theorem names_update (b : Broker α) (name : String) (f : Mailbox α → Mailbox α) :
    (b.update name f).names = if name ∈ b.names then b.names else b.names ++ [name] :=
  OrderedMap.keys_alter b.mailboxes name (f { name }) f

theorem mem_names_update (b : Broker α) {name other : String} (f : Mailbox α → Mailbox α) :
    other ∈ (b.update name f).names ↔ other ∈ b.names ∨ other = name := by
  rw [names_update]
  split
  · next h =>
    constructor
    · exact .inl
    · rintro (hother | rfl)
      · exact hother
      · exact h
  · simp

/-- New names come behind the old ones. -/
theorem getElem?_names_update {b : Broker α} {handle : Nat} {other : String} (name : String)
    (f : Mailbox α → Mailbox α) (h : b.names[handle]? = some other) :
    (b.update name f).names[handle]? = some other := by
  rw [names_update]
  split
  · exact h
  · rw [List.getElem?_append_left (List.getElem?_eq_some_iff.1 h).1]
    exact h

theorem mem_names_update_of_handle {b : Broker α} {name other : String} {handle : Nat}
    (f : Mailbox α → Mailbox α) (h : b.names[handle]? = some other) :
    name ∈ (b.update other f).names ↔ name ∈ b.names := by
  rw [mem_names_update, or_iff_left_of_imp]
  rintro rfl
  exact List.mem_of_getElem? h

theorem isEmpty_iff (b : Broker α) : b.isEmpty = true ↔ ∀ name, name ∉ b.names := by
  have hempty : b.isEmpty = true ↔ b.names = [] := by
    simp [isEmpty, OrderedMap.isEmpty, names, OrderedMap.keys]
  rw [hempty, List.eq_nil_iff_forall_not_mem]

-- ---------------------------------------------------------------------------
-- Consumers
-- ---------------------------------------------------------------------------

theorem register_of_empty (b : Broker α) : b.register "" = .error (.invalidName "") := rfl

theorem register_of_ne (b : Broker α) {name : String} (h : name ≠ "") :
    ∃ b', b.register name = .ok b' ∧ b'.mailboxes = b.mailboxes ∧
      ∀ other, b'.hasConsumer other = true ↔ b.hasConsumer other = true ∨ other = name := by
  have hname : name.isEmpty = false := by simpa using h
  cases hc : b.hasConsumer name with
  | true =>
    refine ⟨b, by simp [register, hname, hc], rfl, fun other => ⟨.inl, ?_⟩⟩
    rintro (hother | rfl)
    · exact hother
    · exact hc
  | false =>
    refine ⟨{ b with consumers := b.consumers ++ [name] }, by simp [register, hname, hc], rfl, ?_⟩
    simp [hasConsumer]

end Courier.Broker
