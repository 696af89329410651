import PacketPlane.Ring.Lemmas

/-! Bulk transfers: several objects that are put into a ring or taken out of it at once leave the
same ring as one after another, down to its cursors. -/

namespace PacketPlane.Ring

variable {α : Type}

/-- The ring with both consumers' cursors at a position. -/
def consumedTo (r : Ring α) (position : UInt64) : Ring α :=
  { r with consHead := position, consTail := position }

/-- The ring with both producers' cursors at a position. -/
def producedTo (r : Ring α) (position : UInt64) : Ring α :=
  { r with prodHead := position, prodTail := position }

/-- Where the consumers' cursors stand makes no difference to what is moved out of places. -/
theorem takeAll_cursors (r : Ring α) (position : UInt64) (count : Nat)
    (consHead consTail : UInt64) :
    ({ r with consHead, consTail } : Ring α).takeAll position count =
      ((r.takeAll position count).1, { (r.takeAll position count).2 with consHead, consTail }) := by
  induction count generalizing r position with
  | zero => rfl
  | succ count ih =>
    -- Emptying a place does not look at the cursors either.
    have rest := ih (r.take position).2 (position + 1)
    simp only [takeAll]
    rw [show ({ r with consHead, consTail } : Ring α).take position = ((r.take position).1,
      { (r.take position).2 with consHead, consTail }) from rfl, rest]

/-- Where the producers' cursors stand makes no difference to what is put into places. -/
theorem writeAll_cursors (r : Ring α) (position : UInt64) (items : List α)
    (prodHead prodTail : UInt64) :
    ({ r with prodHead, prodTail } : Ring α).writeAll position items =
      { r.writeAll position items with prodHead, prodTail } := by
  -- By induction on the objects, each of which changes a slot and no cursor.
  induction items generalizing r position with
  | nil => rfl
  | cons item rest ih => exact ih (r.write position item) (position + 1)

/-- Objects behind others are put into the places behind theirs. -/
theorem writeAll_append (r : Ring α) (position : UInt64) (items more : List α) :
    r.writeAll position (items ++ more) =
      (r.writeAll position items).writeAll (position + UInt64.ofNat items.length) more := by
  -- By induction on the objects in front, by which the position of those behind moves on.
  induction items generalizing r position with
  | nil => simp [writeAll]
  | cons item rest ih =>
    rw [List.cons_append, writeAll, ih, writeAll, List.length_cons]
    congr 1
    rw [UInt64.add_assoc, UInt64.add_comm 1, ← UInt64.ofNat_one, ← UInt64.ofNat_add]

namespace Holds

variable {r : Ring α} {items : List α}

/-- All objects that are asked for come out at once when there are enough. -/
theorem dequeueWhole_eq (held : r.Holds items) {count : Nat} (enough : count + 1 ≤ items.length) :
    r.dequeueWhole (count + 1) = .ok ((r.takeAll r.consHead (count + 1)).1,
      (r.takeAll r.consHead (count + 1)).2.consumedTo
        (r.consHead + UInt64.ofNat (count + 1))) := by
  -- There are enough, so the whole demand is granted.
  have granted : Demand.whole.grant (count + 1) items.length = count + 1 := if_pos enough
  rw [dequeueWhole, if_neg (Nat.succ_ne_zero count), held.reserveCons_eq, granted,
    if_neg (Nat.succ_ne_zero count)]
  dsimp only
  rw [takeAll_cursors r r.consHead (count + 1) (r.consHead + UInt64.ofNat (count + 1)) r.consTail]
  rfl

/-- The oldest object lies where the consumers' cursor stands. -/
theorem take_oldest {item : α} {rest : List α} (held : r.Holds (item :: rest)) :
    (r.take r.consHead).1 = some item := by
  -- The oldest object is stored at no distance behind the cursor.
  have oldest := held.stored 0 (Nat.zero_lt_succ _)
  rwa [show UInt64.ofNat 0 = 0 from rfl, UInt64.add_zero, ← held.consumed] at oldest

/-- The oldest object comes out alone when there is one. -/
theorem dequeue_eq {item : α} {rest : List α} (held : r.Holds (item :: rest)) :
    r.dequeue = some (item,
      (r.take r.consHead).2.consumedTo (r.consHead + UInt64.ofNat 1)) := by
  -- There is one, so a demand of one is granted.
  have granted : Demand.whole.grant 1 (item :: rest).length = 1 := by simp [Demand.grant]
  have moved : ({ r with consHead := r.consHead + UInt64.ofNat 1 } : Ring α).take r.consHead =
      (some item, { (r.take r.consHead).2 with consHead := r.consHead + UInt64.ofNat 1 }) :=
    Prod.ext held.take_oldest rfl
  rw [dequeue, held.reserveCons_eq, granted, if_neg Nat.one_ne_zero]
  simp only [moved]
  rfl

/-- Taking several objects out at once is taking the oldest one out and then the others. -/
theorem dequeueWhole_succ (held : r.Holds items) {count : Nat} (enough : count < items.length) :
    ∃ item first rest after, r.dequeue = some (item, first) ∧
      first.dequeueWhole count = .ok (rest, after) ∧
      r.dequeueWhole (count + 1) = .ok (item :: rest, after) := by
  cases items with
  | nil => simp at enough
  | cons item others =>
    -- Taking one out names the ring that it leaves, which the others are then taken out of.
    have next : r.consHead + UInt64.ofNat 1 = r.consHead + 1 := rfl
    obtain ⟨first, one, left⟩ := held.dequeue_cons
    have same := held.dequeue_eq
    rw [one, Option.some.injEq, Prod.mk.injEq] at same
    obtain ⟨-, rfl⟩ := same
    have whole := held.dequeueWhole_eq (show count + 1 ≤ _ from enough)
    simp only [takeAll, held.take_oldest, ← next] at whole
    cases count with
    | zero => exact ⟨item, _, [], _, one, rfl, whole⟩
    | succ count =>
      -- What is left lies one place further, and so do both cursors.
      have rest := left.dequeueWhole_eq (Nat.le_of_lt_succ enough)
      have shift : r.consHead + UInt64.ofNat (count + 1 + 1) =
          r.consHead + UInt64.ofNat 1 + UInt64.ofNat (count + 1) := by
        rw [add_ofNat_add, Nat.add_comm 1]
      refine ⟨item, _, _, _, one, rest, ?_⟩
      rw [whole, shift]
      have cursors := takeAll_cursors (r.take r.consHead).2 (r.consHead + UInt64.ofNat 1)
        (count + 1) (r.consHead + UInt64.ofNat 1) (r.consHead + UInt64.ofNat 1)
      rw [show ((r.take r.consHead).2.consumedTo (r.consHead + UInt64.ofNat 1)).takeAll
        ((r.take r.consHead).2.consumedTo (r.consHead + UInt64.ofNat 1)).consHead (count + 1) = _
        from cursors]
      rfl

/-- All objects go behind the others at once when there is room for them. -/
theorem enqueueWhole_eq (held : r.Holds items) (first : α) (more : List α)
    (room : items.length + (more.length + 1) ≤ r.capacity) :
    r.enqueueWhole (first :: more) = .ok ((r.writeAll r.prodHead (first :: more)).producedTo
      (r.prodHead + UInt64.ofNat (more.length + 1))) := by
  -- There is room, so the whole demand is granted.
  have granted : Demand.whole.grant (first :: more).length (r.capacity - items.length) =
      more.length + 1 := if_pos (Nat.le_sub_of_add_le' room)
  rw [enqueueWhole, held.reserveProd_eq, granted, if_neg (Nat.succ_ne_zero more.length)]
  dsimp only
  rw [writeAll_cursors r r.prodHead (first :: more)
    (r.prodHead + UInt64.ofNat (more.length + 1)) r.prodTail]
  rfl

/-- One object goes behind the others when there is room for it. -/
theorem enqueue_eq (held : r.Holds items) (item : α) (room : items.length < r.capacity) :
    r.enqueue item = .ok ((r.write r.prodHead item).producedTo
      (r.prodHead + UInt64.ofNat 1)) := by
  -- There is room, so a demand of one is granted.
  have granted : Demand.whole.grant 1 (r.capacity - items.length) = 1 := if_pos (by omega)
  rw [enqueue, held.reserveProd_eq, granted, if_neg Nat.one_ne_zero]
  rfl

/-- Appending several objects at once is appending the others and then the last one. -/
theorem enqueueWhole_append (held : r.Holds items) (more : List α) (item : α)
    (room : items.length + more.length < r.capacity) :
    ∃ first after, r.enqueueWhole more = .ok first ∧ first.enqueue item = .ok after ∧
      r.enqueueWhole (more ++ [item]) = .ok after := by
  obtain ⟨first, several, full⟩ := held.enqueueWhole_ok more (Nat.le_of_lt room)
  have left : (items ++ more).length < first.capacity := by
    rw [List.length_append, capacity_enqueueWhole several]
    exact room
  have one := full.enqueue_eq item left
  refine ⟨first, _, several, one, ?_⟩
  cases more with
  | nil =>
    cases several
    exact held.enqueueWhole_eq item [] room
  | cons oldest more =>
    -- Both ways write the same places, and leave the cursors behind the last of them.
    have same := held.enqueueWhole_eq oldest more (Nat.le_of_lt room)
    rw [several, Except.ok.injEq] at same
    subst same
    have whole : items.length + ((more ++ [item]).length + 1) ≤ r.capacity := by
      rw [List.length_append]
      exact room
    have all := held.enqueueWhole_eq oldest (more ++ [item]) whole
    rw [List.length_append, ← List.cons_append, writeAll_append] at all
    have shift : r.prodHead + UInt64.ofNat (more.length + [item].length + 1) =
        r.prodHead + UInt64.ofNat (more.length + 1) + UInt64.ofNat 1 := by
      rw [add_ofNat_add]
      congr 2
    rw [all, shift]
    rfl

end Holds

end PacketPlane.Ring
