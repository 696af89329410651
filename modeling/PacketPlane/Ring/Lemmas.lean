import PacketPlane.Ring.Basic

/-! Laws of rings: what each operation does to the objects that a ring holds. -/

namespace PacketPlane.Ring

variable {α : Type}

/-- A ring that no caller is at work on, with the objects it holds, oldest first. -/
structure Holds (r : Ring α) (items : List α) : Prop where
  produced : r.prodHead = r.prodTail
  consumed : r.consHead = r.consTail
  span : r.prodTail = r.consTail + UInt64.ofNat items.length
  fits : items.length ≤ r.capacity
  stored : ∀ (i : Nat) (inside : i < items.length),
    r.slots[r.place (r.consTail + UInt64.ofNat i)]? = some items[i]

/-- A capacity is a 64-bit number. -/
theorem capacity_lt (r : Ring α) : r.capacity < UInt64.size := by
  -- The largest capacity is far below the range of a cursor.
  exact Nat.lt_of_le_of_lt r.capacity_valid.2 (by decide)

/-- The capacity divides the range of a cursor. -/
theorem capacity_dvd (r : Ring α) : r.capacity ∣ UInt64.size := by
  -- Both are powers of two, and the capacity is the smaller one.
  obtain ⟨power, same⟩ := r.capacity_valid.1
  have small := r.capacity_lt
  have range : UInt64.size = 2 ^ 64 := rfl
  rw [same, range] at small ⊢
  exact Nat.pow_dvd_pow 2 (Nat.le_of_lt ((Nat.pow_lt_pow_iff_right (by decide)).mp small))

/-- The slot that lies some places behind a cursor position. -/
theorem place_add (r : Ring α) (position : UInt64) (i : Nat) :
    r.place (position + UInt64.ofNat i) = (position.toNat + i) % r.capacity := by
  -- The range of a cursor is a multiple of the capacity, so wrapping does not show.
  have cut := r.capacity_dvd
  rw [place, UInt64.toNat_add, UInt64.toNat_ofNat', Nat.mod_mod_of_dvd _ cut, Nat.add_mod,
    Nat.mod_mod_of_dvd _ cut, ← Nat.add_mod]

/-- Places within one capacity of each other are different slots. -/
theorem place_inj (r : Ring α) (position : UInt64) {i j : Nat} (first : i < r.capacity)
    (second : j < r.capacity)
    (same : r.place (position + UInt64.ofNat i) = r.place (position + UInt64.ofNat j)) : i = j := by
  -- Their distance is a multiple of the capacity and smaller than it.
  rw [place_add, place_add] at same
  have forwards := Nat.sub_mod_eq_zero_of_mod_eq same
  have backwards := Nat.sub_mod_eq_zero_of_mod_eq same.symm
  rw [Nat.mod_eq_of_lt (by omega)] at forwards backwards
  omega

/-- A cursor is as many places ahead as were added to it. -/
theorem distance_add (r : Ring α) (position : UInt64) {count : Nat} (small : count ≤ r.capacity) :
    (position + UInt64.ofNat count - position).toNat = count := by
  -- The count fits a cursor, so it is not changed by wrapping.
  have fits : count < UInt64.size := Nat.lt_of_le_of_lt small r.capacity_lt
  rw [UInt64.add_comm, UInt64.add_sub_cancel, UInt64.toNat_ofNat_of_lt' fits]

/-- Putting an object into a place leaves everything but the slots alone. -/
@[simp] theorem capacity_write (r : Ring α) (position : UInt64) (item : α) :
    (r.write position item).capacity = r.capacity := rfl

/-- Where a place lies depends on the capacity alone. -/
@[simp] theorem place_write (r : Ring α) (position other : UInt64) (item : α) :
    (r.write position item).place other = r.place other := rfl

/-- Where a place lies does not depend on what has been taken. -/
@[simp] theorem place_take (r : Ring α) (position other : UInt64) :
    (r.take position).2.place other = r.place other := rfl

/-- Taking an object out of one slot does not disturb another. -/
theorem slots_take_of_ne (r : Ring α) {position : UInt64} {slot : Nat}
    (apart : r.place position ≠ slot) : (r.take position).2.slots[slot]? = r.slots[slot]? := by
  -- The slot that was emptied is a different one.
  simp [take, Std.HashMap.getElem?_erase, apart]

/-- Putting objects into places leaves everything but the slots alone. -/
theorem writeAll_eq (r : Ring α) (position : UInt64) (items : List α) :
    r.writeAll position items = { r with slots := (r.writeAll position items).slots } := by
  -- Each object only changes the slots.
  induction items generalizing r position with
  | nil => rfl
  | cons item rest ih =>
    rw [writeAll, ih]
    rfl

/-- A slot that no object was put into holds what it held before. -/
theorem slots_writeAll_of_ne (r : Ring α) (position : UInt64) (items : List α) (slot : Nat)
    (apart : ∀ i < items.length, r.place (position + UInt64.ofNat i) ≠ slot) :
    (r.writeAll position items).slots[slot]? = r.slots[slot]? := by
  -- No object goes to the slot, neither the first nor a later one.
  induction items generalizing r position with
  | nil => rfl
  | cons item rest ih =>
    rw [writeAll, ih]
    · have first : r.place position ≠ slot := by simpa using apart 0 (by simp)
      simp [write, Std.HashMap.getElem?_insert, first]
    · intro i inside
      have later := apart (i + 1) (by simpa using inside)
      rw [place_write]
      rwa [UInt64.add_assoc, UInt64.add_comm 1, ← UInt64.ofNat_one, ← UInt64.ofNat_add]

/-- Objects put into consecutive places lie there in their order. -/
theorem slots_writeAll (r : Ring α) (position : UInt64) (items : List α)
    (fits : items.length ≤ r.capacity) (i : Nat) (inside : i < items.length) :
    (r.writeAll position items).slots[r.place (position + UInt64.ofNat i)]? = some items[i] := by
  -- Later objects do not overwrite earlier ones, since there are at most as many as slots.
  induction items generalizing r position i with
  | nil => simp at inside
  | cons item rest ih =>
    have shift : ∀ k, position + 1 + UInt64.ofNat k = position + UInt64.ofNat (k + 1) := by
      intro k
      rw [UInt64.add_assoc, UInt64.add_comm 1, ← UInt64.ofNat_one, ← UInt64.ofNat_add]
    simp only [List.length_cons] at fits inside
    rw [writeAll]
    cases i with
    | zero =>
      rw [slots_writeAll_of_ne]
      · simp [write]
      · intro k below same
        rw [place_write, shift] at same
        have := r.place_inj position (by omega) (by omega) same
        omega
    | succ i =>
      have later := ih (r.write position item) (position + 1) (by simpa using by omega) i (by omega)
      rw [place_write, shift] at later
      simpa using later

/-- Taking objects out of places leaves everything but the slots alone. -/
theorem takeAll_eq (r : Ring α) (position : UInt64) (count : Nat) :
    (r.takeAll position count).2 = { r with slots := (r.takeAll position count).2.slots } := by
  -- Each object only changes the slots.
  induction count generalizing r position with
  | zero => rfl
  | succ count ih =>
    simp only [takeAll]
    rw [ih]
    rfl

/-- A slot that no object was taken out of holds what it held before. -/
theorem slots_takeAll_of_ne (r : Ring α) (position : UInt64) (count slot : Nat)
    (apart : ∀ i < count, r.place (position + UInt64.ofNat i) ≠ slot) :
    (r.takeAll position count).2.slots[slot]? = r.slots[slot]? := by
  -- No object comes from the slot, neither the first nor a later one.
  induction count generalizing r position with
  | zero => rfl
  | succ count ih =>
    simp only [takeAll]
    rw [ih]
    · have first : r.place position ≠ slot := by simpa using apart 0 (by simp)
      simp [take, Std.HashMap.getElem?_erase, first]
    · intro i inside
      have later := apart (i + 1) (by simpa using inside)
      rwa [UInt64.add_assoc, UInt64.add_comm 1, ← UInt64.ofNat_one, ← UInt64.ofNat_add]

/-- Objects taken out of consecutive places come in their order. -/
theorem takeAll_fst (r : Ring α) (position : UInt64) (items : List α)
    (fits : items.length ≤ r.capacity)
    (stored : ∀ (i : Nat) (inside : i < items.length),
      r.slots[r.place (position + UInt64.ofNat i)]? = some items[i]) :
    (r.takeAll position items.length).1 = items := by
  -- Taking the first object does not disturb the later ones.
  induction items generalizing r position with
  | nil => rfl
  | cons item rest ih =>
    have shift : ∀ k, position + 1 + UInt64.ofNat k = position + UInt64.ofNat (k + 1) := by
      intro k
      rw [UInt64.add_assoc, UInt64.add_comm 1, ← UInt64.ofNat_one, ← UInt64.ofNat_add]
    simp only [List.length_cons] at fits
    have first : r.slots[r.place position]? = some item := by
      have oldest := stored 0 (Nat.zero_lt_succ _)
      rwa [show UInt64.ofNat 0 = 0 from rfl, UInt64.add_zero] at oldest
    have later : ∀ (i : Nat) (inside : i < rest.length),
        (r.take position).2.slots[(r.take position).2.place (position + 1 + UInt64.ofNat i)]?
          = some rest[i] := by
      intro i inside
      have apart : r.place position ≠ r.place (position + UInt64.ofNat (i + 1)) := by
        intro same
        have := @place_inj _ r position 0 (i + 1) (by omega) (by omega) (by simpa using same)
        omega
      rw [place_take, shift, slots_take_of_ne _ apart]
      exact stored (i + 1) (Nat.succ_lt_succ inside)
    have after := ih (r.take position).2 (position + 1) (Nat.le_of_succ_le fits) later
    simp only [List.length_cons, takeAll]
    rw [after]
    simp [take, first]

/-- Adding in two steps is adding once. -/
theorem add_ofNat_add (position : UInt64) (i j : Nat) :
    position + UInt64.ofNat i + UInt64.ofNat j = position + UInt64.ofNat (i + j) := by
  -- Cursors add as machine words do.
  rw [UInt64.add_assoc, ← UInt64.ofNat_add]

/-- Numbers that fit a cursor are the same when they are the same cursor. -/
theorem ofNat_inj {i j : Nat} (first : i < UInt64.size) (second : j < UInt64.size)
    (same : UInt64.ofNat i = UInt64.ofNat j) : i = j := by
  -- Neither number is changed by wrapping.
  have := congrArg UInt64.toNat same
  rwa [UInt64.toNat_ofNat_of_lt' first, UInt64.toNat_ofNat_of_lt' second] at this

/-- Reserving places for new objects does not change how many fit. -/
theorem capacity_reserveProd {r after : Ring α} {demand : Demand} {asked : Nat}
    {reserved : Reservation} (found : r.reserveProd demand asked = some (reserved, after)) :
    after.capacity = r.capacity := by
  -- Only the reserving cursor moves.
  simp only [reserveProd] at found
  split at found
  · cases found
  · cases found
    rfl

/-- Claiming objects does not change how many fit. -/
theorem capacity_reserveCons {r after : Ring α} {demand : Demand} {asked : Nat}
    {reserved : Reservation} (found : r.reserveCons demand asked = some (reserved, after)) :
    after.capacity = r.capacity := by
  -- Only the reserving cursor moves.
  simp only [reserveCons] at found
  split at found
  · cases found
  · cases found
    rfl

/-- Filling places does not change how many there are. -/
@[simp] theorem capacity_writeAll (r : Ring α) (position : UInt64) (items : List α) :
    (r.writeAll position items).capacity = r.capacity := by
  -- Only the slots change.
  rw [writeAll_eq]

/-- Emptying places does not change how many there are. -/
@[simp] theorem capacity_takeAll (r : Ring α) (position : UInt64) (count : Nat) :
    (r.takeAll position count).2.capacity = r.capacity := by
  -- Only the slots change.
  rw [takeAll_eq]

/-- Publishing new objects does not change how many fit. -/
@[simp] theorem capacity_publishProd (r : Ring α) (reserved : Reservation) :
    (r.publishProd reserved).capacity = r.capacity := rfl

/-- Giving places back does not change how many there are. -/
@[simp] theorem capacity_publishCons (r : Ring α) (reserved : Reservation) :
    (r.publishCons reserved).capacity = r.capacity := rfl

/-- Putting an object in, if it fits, does not change how many fit. -/
theorem capacity_enqueue {r after : Ring α} {item : α} (put : r.enqueue item = .ok after) :
    after.capacity = r.capacity := by
  -- Only reserving a place could have changed it.
  rw [enqueue] at put
  split at put
  · cases put
  · rename_i found
    cases put
    simpa using capacity_reserveProd found

/-- Putting a list in does not change how many fit. -/
@[simp] theorem capacity_enqueueBulk (r : Ring α) (items : List α) :
    (r.enqueueBulk items).ring.capacity = r.capacity := by
  -- Only reserving places could have changed it.
  rw [enqueueBulk]
  split
  · rfl
  · rename_i found
    simpa using capacity_reserveProd found

/-- Putting a whole list in, if it fits, does not change how many fit. -/
theorem capacity_enqueueWhole {r after : Ring α} {items : List α}
    (put : r.enqueueWhole items = .ok after) : after.capacity = r.capacity := by
  -- An empty list leaves the ring as it is, and otherwise only reserving could have changed it.
  rw [enqueueWhole] at put
  split at put
  · cases put
    rfl
  · split at put
    · cases put
    · rename_i found
      cases put
      simpa using capacity_reserveProd found

/-- Taking an object out does not change how many fit. -/
theorem capacity_dequeue {r after : Ring α} {item : α} (taken : r.dequeue = some (item, after)) :
    after.capacity = r.capacity := by
  -- Only reserving could have changed it, and a place without object is no answer.
  rw [dequeue] at taken
  split at taken
  · cases taken
  · rename_i found
    rw [take] at taken
    split at taken
    · rename_i emptied
      rw [Prod.mk.injEq] at emptied
      obtain ⟨-, rfl⟩ := emptied
      cases taken
      have kept := capacity_reserveCons found
      exact kept
    · cases taken

/-- Taking objects out does not change how many fit. -/
@[simp] theorem capacity_dequeueBulk (r : Ring α) (limit : Nat) :
    (r.dequeueBulk limit).ring.capacity = r.capacity := by
  -- A limit of zero leaves the ring as it is, and otherwise only reserving could have changed it.
  rw [dequeueBulk]
  split
  · rfl
  · split
    · rfl
    · rename_i found
      simpa using capacity_reserveCons found

/-- Taking a number of objects out, if they are there, does not change how many fit. -/
theorem capacity_dequeueWhole {r after : Ring α} {count : Nat} {items : List α}
    (taken : r.dequeueWhole count = .ok (items, after)) : after.capacity = r.capacity := by
  -- A count of zero leaves the ring as it is, and otherwise only reserving could have changed it.
  rw [dequeueWhole] at taken
  split at taken
  · cases taken
    rfl
  · split at taken
    · cases taken
    · rename_i found
      cases taken
      simpa using capacity_reserveCons found

/-- What a ring hands back is what it was given. -/
theorem enqueue_error {r : Ring α} {item : α} {refused : Rejected α}
    (put : r.enqueue item = .error refused) : refused = ⟨item⟩ := by
  -- A ring refuses only when there is no place, and then hands back the object.
  rw [enqueue] at put
  split at put
  · cases put
    rfl
  · cases put

namespace Holds

variable {r : Ring α} {items : List α}

/-- What a ring holds is what lies between its published cursors. -/
theorem count_eq (held : r.Holds items) : r.count = items.length := by
  -- The cursors are that far apart, and no further than the capacity.
  rw [count, held.span, distance_add _ _ held.fits, Nat.min_eq_left held.fits]

/-- From any place between the cursors on, a ring lists what lies behind that place. -/
theorem listFrom_eq (held : r.Holds items) {i : Nat} (within : i ≤ items.length) :
    r.listFrom (r.consTail + UInt64.ofNat i) = items.drop i := by
  -- The induction is on how much lies behind the place, since the list is walked to its end.
  have small := r.capacity_lt
  have fits := held.fits
  generalize behind : items.length - i = rest
  induction rest generalizing i with
  | zero =>
    have last : i = items.length := by omega
    rw [listFrom, if_pos (by rw [last, held.span]), last, List.drop_length]
  | succ rest ih =>
    have inside : i < items.length := by omega
    have apart : r.consTail + UInt64.ofNat i ≠ r.prodTail := by
      intro same
      rw [held.span, UInt64.add_right_inj] at same
      have := ofNat_inj (by omega) (by omega) same
      omega
    have next : r.consTail + UInt64.ofNat i + 1 = r.consTail + UInt64.ofNat (i + 1) :=
      add_ofNat_add _ i 1
    rw [listFrom, if_neg apart, held.stored i inside, next, ih inside (by omega),
      ← List.getElem_cons_drop inside]
    rfl

/-- A ring that is at rest lists exactly what it holds. -/
theorem toList_eq (held : r.Holds items) : r.toList = items := by
  -- The list begins at the oldest object.
  have whole := held.listFrom_eq (Nat.zero_le items.length)
  rwa [show UInt64.ofNat 0 = 0 from rfl, UInt64.add_zero] at whole

/-- Objects that fit are appended to those a ring holds. -/
theorem append (held : r.Holds items) (more : List α) (left : Nat)
    (room : items.length + more.length ≤ r.capacity) :
    (({ r with prodHead := r.prodHead + UInt64.ofNat more.length } : Ring α).writeAll r.prodHead
      more |>.publishProd ⟨r.prodHead, more.length, left⟩).Holds (items ++ more) := by
  -- The new objects lie behind the old ones and in different slots.
  have start : r.prodHead = r.consTail + UInt64.ofNat items.length := by
    rw [held.produced, held.span]
  rw [writeAll_eq]
  refine ⟨rfl, held.consumed, ?_, ?_, ?_⟩
  · simp only [publishProd]
    rw [start, add_ofNat_add, List.length_append]
  · simpa only [publishProd, List.length_append] using room
  · intro i inside
    rw [List.length_append] at inside
    simp only [publishProd]
    by_cases old : i < items.length
    · have kept := held.stored i old
      rw [List.getElem_append_left old, ← kept]
      apply slots_writeAll_of_ne
      intro k below same
      have same : r.place (r.prodHead + UInt64.ofNat k) = r.place (r.consTail + UInt64.ofNat i) :=
        same
      rw [start, add_ofNat_add] at same
      have := r.place_inj r.consTail (by omega) (by omega) same
      omega
    · have fresh := slots_writeAll { r with prodHead := r.prodHead + UInt64.ofNat more.length }
        r.prodHead more (Nat.le_of_add_left_le room) (i - items.length) (by omega)
      rw [List.getElem_append_right (by omega), ← fresh]
      have same : r.consTail + UInt64.ofNat i = r.prodHead + UInt64.ofNat (i - items.length) := by
        rw [start, add_ofNat_add, Nat.add_sub_of_le (by omega)]
      rw [same]
      rfl

/-- The oldest objects a ring holds can be taken out, and the others stay. -/
theorem remove (held : r.Holds items) (count left : Nat) (enough : count ≤ items.length) :
    let taken := ({ r with consHead := r.consHead + UInt64.ofNat count } : Ring α).takeAll
      r.consHead count
    taken.1 = items.take count ∧
      (taken.2.publishCons ⟨r.consHead, count, left⟩).Holds (items.drop count) := by
  -- The places of the objects that stay are different from those that are emptied.
  have fits := held.fits
  have length : (items.take count).length = count := by
    rw [List.length_take, Nat.min_eq_left enough]
  have taken := takeAll_fst { r with consHead := r.consHead + UInt64.ofNat count } r.consHead
    (items.take count) (by rw [length]; exact Nat.le_trans enough fits) (by
      intro i inside
      rw [length] at inside
      rw [List.getElem_take, held.consumed]
      exact held.stored i (Nat.lt_of_lt_of_le inside enough))
  rw [length] at taken
  refine ⟨taken, ?_⟩
  rw [takeAll_eq]
  refine ⟨held.produced, rfl, ?_, ?_, ?_⟩
  · simp only [publishCons]
    rw [held.span, held.consumed, add_ofNat_add, List.length_drop, Nat.add_sub_of_le enough]
  · rw [List.length_drop]
    exact Nat.le_trans (Nat.sub_le _ _) fits
  · intro i inside
    rw [List.length_drop] at inside
    have kept := held.stored (count + i) (by omega)
    rw [List.getElem_drop, ← kept]
    simp only [publishCons]
    rw [held.consumed, add_ofNat_add]
    apply slots_takeAll_of_ne
    intro k below same
    have := r.place_inj r.consTail (by omega) (by omega) same
    omega

/-- Producers see as many slots in use as there are objects. -/
theorem reserveProd_eq (held : r.Holds items) (demand : Demand) (asked : Nat) :
    r.reserveProd demand asked =
      if demand.grant asked (r.capacity - items.length) = 0 then none
      else some (⟨r.prodHead, demand.grant asked (r.capacity - items.length),
          r.capacity - items.length - demand.grant asked (r.capacity - items.length)⟩,
        { r with prodHead := r.prodHead
            + UInt64.ofNat (demand.grant asked (r.capacity - items.length)) }) := by
  -- The cursors are never further apart than the capacity.
  have used : (r.prodHead - r.consTail).toNat = items.length := by
    rw [held.produced, held.span, distance_add _ _ held.fits]
  simp [reserveProd, used, Nat.not_lt.mpr held.fits]

/-- Consumers see as many objects as there are. -/
theorem reserveCons_eq (held : r.Holds items) (demand : Demand) (asked : Nat) :
    r.reserveCons demand asked =
      if demand.grant asked items.length = 0 then none
      else some (⟨r.consHead, demand.grant asked items.length,
          items.length - demand.grant asked items.length⟩,
        { r with consHead := r.consHead + UInt64.ofNat (demand.grant asked items.length) }) := by
  -- The cursors are never further apart than the capacity.
  have entries : (r.prodTail - r.consHead).toNat = items.length := by
    rw [held.consumed, held.span, distance_add _ _ held.fits]
  simp [reserveCons, entries, Nat.not_lt.mpr held.fits]

/-- One more object goes behind the others while there is room. -/
theorem enqueue_ok (held : r.Holds items) (item : α) (room : items.length < r.capacity) :
    ∃ after, r.enqueue item = .ok after ∧ after.Holds (items ++ [item]) := by
  -- One place is granted.
  have granted : Demand.whole.grant 1 (r.capacity - items.length) = 1 := if_pos (by omega)
  refine ⟨_, ?_, held.append [item] (r.capacity - items.length - 1) room⟩
  rw [enqueue, held.reserveProd_eq, granted]
  rfl

/-- A full ring hands an object back. -/
theorem enqueue_full (held : r.Holds items) (item : α) (full : r.capacity ≤ items.length) :
    r.enqueue item = .error ⟨item⟩ := by
  -- No place is granted.
  have granted : Demand.whole.grant 1 (r.capacity - items.length) = 0 := if_neg (by omega)
  rw [enqueue, held.reserveProd_eq, granted]
  rfl

/-- An object that was accepted went behind the others. -/
theorem enqueue_holds (held : r.Holds items) {item : α} {after : Ring α}
    (put : r.enqueue item = .ok after) : after.Holds (items ++ [item]) := by
  -- There was room, or it would have been handed back.
  have room : items.length < r.capacity := by
    apply Nat.lt_of_not_le
    intro full
    rw [held.enqueue_full item full] at put
    cases put
  obtain ⟨other, put', holds⟩ := held.enqueue_ok item room
  rw [put, Except.ok.injEq] at put'
  exact put' ▸ holds

/-- As many objects go behind the others as there is room for, and the rest comes back. -/
theorem enqueueBulk_holds (held : r.Holds items) (more : List α) :
    let room := r.capacity - items.length
    (r.enqueueBulk more).accepted = min more.length room ∧
      (r.enqueueBulk more).rest = more.drop room ∧
      (r.enqueueBulk more).ring.Holds (items ++ more.take room) := by
  -- What is granted is the smaller of the two numbers.
  intro room
  have fits := held.fits
  have granted : Demand.upTo.grant more.length room = min more.length room := rfl
  have short : more.take (min more.length room) = more.take room := by
    rw [List.take_eq_take_iff]
    omega
  have rest : more.drop (min more.length room) = more.drop room := by
    by_cases small : more.length ≤ room
    · rw [Nat.min_eq_left small, List.drop_of_length_le (Nat.le_refl _),
        List.drop_of_length_le small]
    · rw [Nat.min_eq_right (by omega)]
  rw [enqueueBulk, held.reserveProd_eq, granted]
  by_cases nothing : min more.length room = 0
  · rw [if_pos nothing]
    rw [nothing] at short rest
    refine ⟨nothing.symm, rest, ?_⟩
    rw [← short, List.take_zero, List.append_nil]
    exact held
  · rw [if_neg nothing]
    refine ⟨rfl, rest, ?_⟩
    have length : (more.take room).length = min more.length room := by
      rw [List.length_take, Nat.min_comm]
    have after := held.append (more.take room) (room - min more.length room) (by omega)
    rw [length] at after
    simpa only [short] using after

/-- A list that fits goes behind the others as a whole. -/
theorem enqueueWhole_ok (held : r.Holds items) (more : List α)
    (room : items.length + more.length ≤ r.capacity) :
    ∃ after, r.enqueueWhole more = .ok after ∧ after.Holds (items ++ more) := by
  -- All places are granted, unless none are asked for.
  cases more with
  | nil => exact ⟨r, rfl, by rwa [List.append_nil]⟩
  | cons first others =>
    have granted : Demand.whole.grant (first :: others).length (r.capacity - items.length)
        = (first :: others).length := if_pos (by omega)
    refine ⟨_, ?_, held.append (first :: others)
      (r.capacity - items.length - (first :: others).length) room⟩
    rw [enqueueWhole, held.reserveProd_eq, granted]
    rfl

/-- A list that does not fit is refused as a whole. -/
theorem enqueueWhole_full (held : r.Holds items) (more : List α)
    (narrow : r.capacity < items.length + more.length) :
    r.enqueueWhole more = .error .full := by
  -- No place is granted, and something is asked for.
  have fits := held.fits
  cases more with
  | nil => exact absurd fits (by simpa using narrow)
  | cons first others =>
    have granted : Demand.whole.grant (first :: others).length (r.capacity - items.length) = 0 :=
      if_neg (by omega)
    rw [enqueueWhole, held.reserveProd_eq, granted]
    rfl

/-- The oldest object comes out first. -/
theorem dequeue_cons {item : α} {rest : List α} (held : r.Holds (item :: rest)) :
    ∃ after, r.dequeue = some (item, after) ∧ after.Holds rest := by
  -- One object is granted, and its slot is not empty.
  have granted : Demand.whole.grant 1 (item :: rest).length = 1 := by simp [Demand.grant]
  have oldest := held.stored 0 (Nat.zero_lt_succ _)
  rw [show UInt64.ofNat 0 = 0 from rfl, UInt64.add_zero, ← held.consumed] at oldest
  have after := (held.remove 1 ((item :: rest).length - 1) (by simp)).2
  refine ⟨_, ?_, after⟩
  have present : r.slots[r.place r.consHead]? = some item := oldest
  rw [dequeue, held.reserveCons_eq, granted]
  simp only [Nat.one_ne_zero, if_false, take, takeAll]
  have moved : r.slots[Ring.place { r with consHead := r.consHead + UInt64.ofNat 1 } r.consHead]?
      = some item := present
  rw [moved]

/-- Nothing comes out of a ring that holds nothing. -/
theorem dequeue_nil (held : r.Holds []) : r.dequeue = none := by
  -- No object is granted.
  rw [dequeue, held.reserveCons_eq]
  rfl

/-- The oldest objects come out in order, and the number of those that stay is told. -/
theorem dequeueBulk_holds (held : r.Holds items) (limit : Nat) :
    (r.dequeueBulk limit).items = items.take limit ∧
      (r.dequeueBulk limit).remaining = (items.drop limit).length ∧
      (r.dequeueBulk limit).ring.Holds (items.drop limit) := by
  -- What is granted is the smaller of the two numbers.
  rw [dequeueBulk]
  by_cases idle : limit = 0
  · rw [if_pos idle, idle]
    exact ⟨rfl, held.count_eq, held⟩
  · have granted : Demand.upTo.grant limit items.length = min limit items.length := rfl
    rw [if_neg idle, held.reserveCons_eq, granted]
    by_cases nothing : min limit items.length = 0
    · have : items = [] := List.length_eq_zero_iff.mp (by omega)
      subst this
      rw [if_pos nothing, List.take_nil, List.drop_nil]
      exact ⟨rfl, rfl, held⟩
    · rw [if_neg nothing]
      have ⟨taken, after⟩ := held.remove (min limit items.length)
        (items.length - min limit items.length) (Nat.min_le_right _ _)
      have front : items.take (min limit items.length) = items.take limit := by
        rw [List.take_eq_take_iff]
        omega
      have back : items.drop (min limit items.length) = items.drop limit := by
        by_cases small : limit ≤ items.length
        · rw [Nat.min_eq_left small]
        · rw [Nat.min_eq_right (by omega), List.drop_length, List.drop_of_length_le (by omega)]
      rw [front] at taken
      rw [back] at after
      refine ⟨taken, ?_, after⟩
      rw [List.length_drop]
      show items.length - min limit items.length = _
      omega

/-- As many objects as are asked for come out when there are enough. -/
theorem dequeueWhole_ok (held : r.Holds items) (count : Nat) (enough : count ≤ items.length) :
    ∃ after, r.dequeueWhole count = .ok (items.take count, after) ∧
      after.Holds (items.drop count) := by
  -- All objects are granted, unless none are asked for.
  rw [dequeueWhole]
  by_cases idle : count = 0
  · rw [if_pos idle, idle]
    exact ⟨r, rfl, held⟩
  · have granted : Demand.whole.grant count items.length = count := if_pos enough
    rw [if_neg idle, held.reserveCons_eq, granted, if_neg idle]
    have ⟨taken, after⟩ := held.remove count (items.length - count) enough
    refine ⟨_, ?_, after⟩
    rw [← taken]

/-- Nothing comes out when more is asked for than there is. -/
theorem dequeueWhole_empty (held : r.Holds items) (count : Nat) (short : items.length < count) :
    r.dequeueWhole count = .error .empty := by
  -- No object is granted, and something is asked for.
  have granted : Demand.whole.grant count items.length = 0 := if_neg (by omega)
  rw [dequeueWhole, if_neg (by omega), held.reserveCons_eq, granted]
  rfl

end Holds

/-- A new ring holds nothing. -/
theorem holds_make {name : String} {capacity : Nat} {r : Ring α}
    (made : make name capacity = .ok r) : r.Holds [] := by
  -- All cursors start at zero.
  rw [make] at made
  split at made
  · split at made
    · cases made
      exact ⟨rfl, rfl, rfl, Nat.zero_le _, fun i inside => absurd inside (Nat.not_lt_zero i)⟩
    · cases made
  · cases made

/-- A new ring has the capacity that was asked for. -/
theorem capacity_make {name : String} {capacity : Nat} {r : Ring α}
    (made : make name capacity = .ok r) : r.capacity = capacity := by
  -- A ring that was made has passed both checks.
  rw [make] at made
  split at made
  · split at made
    · cases made
      rfl
    · cases made
  · cases made

/-- A ring can be made exactly of a power of two that is not too large. -/
theorem make_ok_iff {name : String} {capacity : Nat} :
    (∃ r, (make name capacity : Except Fault (Ring α)) = .ok r) ↔
      capacity.isPowerOfTwo ∧ capacity ≤ maxRingCapacity := by
  -- Each check stands for one half.
  rw [make]
  constructor
  · rintro ⟨r, made⟩
    split at made
    · split at made
      · exact ⟨‹_›, ‹_›⟩
      · cases made
    · cases made
  · rintro ⟨power, small⟩
    exact ⟨_, by rw [dif_pos power, dif_pos small]⟩

/-- A ring may have a single place. -/
theorem capacity_one : Nat.isPowerOfTwo 1 ∧ 1 ≤ maxRingCapacity := by
  decide

/-- A ring may have two places. -/
theorem capacity_two : Nat.isPowerOfTwo 2 ∧ 2 ≤ maxRingCapacity := by
  decide

/-- A ring may have eight places. -/
theorem capacity_eight : Nat.isPowerOfTwo 8 ∧ 8 ≤ maxRingCapacity := by
  decide

end PacketPlane.Ring
