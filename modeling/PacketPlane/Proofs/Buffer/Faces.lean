import PacketPlane.Capture.Tap
import PacketPlane.Proofs.Buffer.Ledger

/-! Faces: what can be seen of a buffer through its handles, and which operations can change it. -/

namespace PacketPlane

namespace Region

/-- Storing bytes changes no byte outside of the places they go to. -/
theorem byte_write_of_outside (r : Region) (start : Nat) (bytes : List UInt8) {place : Nat}
    (outside : place < start ∨ start + bytes.length ≤ place) :
    (r.write start bytes).byte place = r.byte place := by
  -- Each byte goes one place further than the one before.
  induction bytes generalizing r start with
  | nil => rfl
  | cons byte rest ih =>
    rw [List.length_cons] at outside
    rw [write, ih _ _ (by omega)]
    have apart : start ≠ place := by omega
    simp [Region.byte, Std.HashMap.getD_insert, apart]

/-- Stored bytes lie side by side in their order. -/
theorem byte_write (r : Region) (start : Nat) (bytes : List UInt8) {i : Nat}
    (inside : i < bytes.length) : (r.write start bytes).byte (start + i) = bytes[i] := by
  -- The first byte is not overwritten by the later ones.
  induction bytes generalizing r start i with
  | nil => simp at inside
  | cons byte rest ih =>
    rw [write]
    cases i with
    | zero =>
      rw [byte_write_of_outside _ _ _ (by omega)]
      simp [Region.byte]
    | succ i =>
      have later := ih ({ r with bytes := r.bytes.insert start byte } : Region) (start + 1)
        (i := i) (by simpa using inside)
      rw [show start + 1 + i = start + (i + 1) by omega] at later
      simpa using later

/-- As many bytes are read as are asked for. -/
@[simp] theorem length_read (r : Region) (place count : Nat) :
    (r.read place count).length = count := by
  -- One byte is read for each place that is asked for.
  simp [read]

/-- A byte that is read is the byte at its place. -/
@[simp] theorem getElem_read (r : Region) (place count : Nat) {i : Nat}
    (inside : i < (r.read place count).length) :
    (r.read place count)[i] = r.byte (place + i) := by
  -- Places are read in their order.
  simp [read]

/-- Bytes read in the middle of a stretch are the middle of the bytes of the stretch. -/
theorem read_middle (r : Region) (place start count whole : Nat) (inside : start + count ≤ whole) :
    r.read (place + start) count = ((r.read place whole).drop start).take count := by
  -- Both sides read the same places, counted from two ends.
  apply List.ext_getElem
  · simp
    omega
  · intro i here there
    simp [Nat.add_assoc]

/-- Storing bytes outside of a stretch does not change what is read there. -/
theorem read_write_of_outside (r : Region) (start : Nat) (bytes : List UInt8) {place count : Nat}
    (outside : place + count ≤ start ∨ start + bytes.length ≤ place) :
    (r.write start bytes).read place count = r.read place count := by
  -- Every place that is read lies before or behind those that were stored to.
  apply List.ext_getElem
  · simp
  · intro i here there
    rw [length_read] at here
    rw [getElem_read, getElem_read, byte_write_of_outside _ _ _ (by omega)]

/-- Storing bytes inside of a stretch replaces the bytes there and leaves those around them. -/
theorem read_write_inside (r : Region) (place start : Nat) (bytes : List UInt8) {count : Nat}
    (inside : start + bytes.length ≤ count) :
    (r.write (place + start) bytes).read place count =
      (r.read place count).take start ++ bytes ++
        (r.read place count).drop (start + bytes.length) := by
  -- A place is before, among or behind those that were stored to.
  apply List.ext_getElem
  · simp
    omega
  · intro i here there
    rw [length_read] at here
    have short : min start count = start := Nat.min_eq_left (by omega)
    simp only [getElem_read, List.append_assoc, List.getElem_append, List.length_take,
      length_read, short]
    split
    · rw [List.getElem_take, getElem_read, byte_write_of_outside _ _ _ (by omega)]
    · split
      · rename_i middle
        have stored := r.byte_write (place + start) bytes middle
        rwa [show place + start + (i - start) = place + i by omega] at stored
      · rw [List.getElem_drop, getElem_read, byte_write_of_outside _ _ _ (by omega)]
        congr 1
        omega

end Region

/-- What can be seen of a buffer: its window, its origin, and all the bytes of its stride. -/
structure Face where
  dataOff : UInt16
  dataLen : UInt16
  port : UInt16
  timestamp : UInt64
  room : List UInt8
deriving DecidableEq, Repr

/-- The bytes of the packet. -/
def Face.data (f : Face) : List UInt8 :=
  -- They are the window of the room.
  (f.room.drop f.dataOff.toNat).take f.dataLen.toNat

/-- The packet as it would be recorded. -/
def Face.captured (f : Face) : Captured :=
  ⟨f.port, f.timestamp, f.data⟩

namespace Pool

/-- What can be seen of a slot. How often it is held or was released does not show. -/
def face? (p : Pool) (index : Nat) : Option Face :=
  p.slots[index]?.map fun s =>
    ⟨s.dataOff, s.dataLen, s.port, s.timestamp, p.bytes index 0 p.stride⟩

/-- A pool whose packets all lie inside their own data rooms, and these inside their strides. -/
structure Fits (p : Pool) : Prop where
  room : p.dataRoom ≤ p.stride
  small : p.dataRoom < UInt16.size
  headroom : p.headroom.toNat ≤ p.dataRoom
  windows : ∀ (i : Nat) (s : Slot), p.slots[i]? = some s → s.headroom + s.len ≤ p.dataRoom

/-- A later state of a pool, in which at most the faces of some slots have changed. -/
structure Touches (p q : Pool) (touched : List Nat) : Prop where
  capacity : q.capacity = p.capacity
  stride : q.stride = p.stride
  dataRoom : q.dataRoom = p.dataRoom
  headroom : q.headroom = p.headroom
  fits : p.Fits → q.Fits
  faces : p.Fits → ∀ i, i ∉ touched → q.face? i = p.face? i

variable {p q r : Pool} {touched more : List Nat} {index : Nat}

/-- A pool that stays as it is. -/
theorem Touches.refl (p : Pool) : p.Touches p [] :=
  -- Nothing is compared but a pool with itself.
  ⟨rfl, rfl, rfl, rfl, id, fun _ _ _ => rfl⟩

/-- One change of a pool after another. -/
theorem Touches.trans (first : p.Touches q touched) (second : q.Touches r more) :
    p.Touches r (touched ++ more) where
  -- A slot that neither change touches shows the same after both.
  capacity := second.capacity.trans first.capacity
  stride := second.stride.trans first.stride
  dataRoom := second.dataRoom.trans first.dataRoom
  headroom := second.headroom.trans first.headroom
  fits fits := second.fits (first.fits fits)
  faces := by
    intro fits i apart
    rw [List.mem_append, not_or] at apart
    rw [second.faces (first.fits fits) i apart.2, first.faces fits i apart.1]

/-- A change that touches some slots touches at most those and others. -/
theorem Touches.mono (touches : p.Touches q touched) (fewer : ∀ i ∈ touched, i ∈ more) :
    p.Touches q more where
  -- A slot outside the larger list is outside the smaller one.
  capacity := touches.capacity
  stride := touches.stride
  dataRoom := touches.dataRoom
  headroom := touches.headroom
  fits := touches.fits
  faces := fun fits i apart => touches.faces fits i fun member => apart (fewer i member)

/-- A pool with the same slots over the same region shows the same. -/
theorem Touches.of_slots (slots : q.slots = p.slots) (region : q.region = p.region)
    (stride : q.stride = p.stride) (dataRoom : q.dataRoom = p.dataRoom)
    (headroom : q.headroom = p.headroom) : p.Touches q [] where
  -- What a slot shows is read off the slots and the region alone.
  capacity := congrArg Array.size slots
  stride := stride
  dataRoom := dataRoom
  headroom := headroom
  fits fits := by
    refine ⟨?_, ?_, ?_, ?_⟩
    · rw [dataRoom, stride]
      exact fits.room
    · rw [dataRoom]
      exact fits.small
    · rw [dataRoom, headroom]
      exact fits.headroom
    · rw [slots, dataRoom]
      exact fits.windows
  faces := by
    intro _ i _
    rw [face?, face?, slots, bytes, bytes, base, base, region, stride]

/-- One slot replaced by one whose window is inside the data room. -/
theorem Touches.of_slot (change : Slot → Slot)
    (slots : ∀ i, q.slots[i]? = if index = i then (p.slots[i]?).map change else p.slots[i]?)
    (inside : p.Fits → ∀ s, p.slots[index]? = some s →
      (change s).headroom + (change s).len ≤ p.dataRoom)
    (capacity : q.capacity = p.capacity) (region : q.region = p.region)
    (stride : q.stride = p.stride) (dataRoom : q.dataRoom = p.dataRoom)
    (headroom : q.headroom = p.headroom) : p.Touches q [index] where
  -- Other slots are as they were, and so are all bytes.
  capacity := capacity
  stride := stride
  dataRoom := dataRoom
  headroom := headroom
  fits fits := by
    refine ⟨?_, ?_, ?_, ?_⟩
    · rw [dataRoom, stride]
      exact fits.room
    · rw [dataRoom]
      exact fits.small
    · rw [dataRoom, headroom]
      exact fits.headroom
    · intro i s found
      rw [slots] at found
      rw [dataRoom]
      split at found
      · rename_i same
        subst same
        obtain ⟨t, there, rfl⟩ := Option.map_eq_some_iff.mp found
        exact inside fits t there
      · exact fits.windows i s found
  faces := by
    intro _ i apart
    have other : index ≠ i := fun same => apart (by simp [same])
    rw [face?, face?, slots, if_neg other, bytes, bytes, base, base, region, stride]

/-- A change of a slot that shows nowhere touches nothing. -/
theorem modifySlot_touches (p : Pool) (index : Nat) (change : Slot → Slot)
    (window : ∀ s, (change s).dataOff = s.dataOff ∧ (change s).dataLen = s.dataLen)
    (origin : ∀ s, (change s).port = s.port ∧ (change s).timestamp = s.timestamp) :
    p.Touches (p.modifySlot index change) [] := by
  -- The slot keeps its window and its origin, so it shows the same as well.
  have whole : p.Touches (p.modifySlot index change) [index] := by
    apply Touches.of_slot change
    · intro i
      simp only [modifySlot, Array.getElem?_modify]
    · intro fits s found
      rw [Slot.headroom, Slot.len, (window s).1, (window s).2]
      exact fits.windows index s found
    · exact p.capacity_modifySlot index change
    · rfl
    · rfl
    · rfl
    · rfl
  refine ⟨whole.capacity, rfl, rfl, rfl, whole.fits, ?_⟩
  intro _ i _
  simp only [face?, modifySlot, Array.getElem?_modify]
  split
  · cases found : p.slots[i]? with
    | none => rfl
    | some s =>
      simp only [Option.map_some, Option.some.injEq, Face.mk.injEq]
      exact ⟨(window s).1, (window s).2, (origin s).1, (origin s).2, rfl⟩
  · rfl

/-- Sharing a slot does not show. -/
theorem addRef_touches (p : Pool) (index : Nat) : p.Touches (p.addRef index) [] :=
  -- A count is no part of what a slot shows.
  p.modifySlot_touches index _ (fun _ => ⟨rfl, rfl⟩) fun _ => ⟨rfl, rfl⟩

/-- Giving a reference back does not show. -/
theorem unref_touches (p : Pool) (index : Nat) : p.Touches (p.unref index).2 [] :=
  -- A count is no part of what a slot shows.
  p.modifySlot_touches index _ (fun _ => ⟨rfl, rfl⟩) fun _ => ⟨rfl, rfl⟩

/-- Retiring a slot does not show. -/
theorem retire_touches (p : Pool) (index : Nat) : p.Touches (p.retire index) [] := by
  -- Neither a generation nor the number of held slots is part of what a slot shows.
  have changed := p.modifySlot_touches index
    (fun s => { s with generation := s.generation + 1 })
    (fun _ => ⟨rfl, rfl⟩) fun _ => ⟨rfl, rfl⟩
  exact changed.trans (Touches.of_slots rfl rfl rfl rfl rfl)

/-- Putting a slot on the free ring does not show. -/
theorem recycle_touches (p : Pool) (index : Nat) : p.Touches (p.recycle index) [] := by
  -- The free ring is no part of what a slot shows.
  rw [recycle]
  split
  · exact Touches.of_slots rfl rfl rfl rfl rfl
  · exact Touches.refl p

/-- Releasing a slot does not show, even when nothing holds it any more. -/
theorem release_touches (p : Pool) (index : Nat) : p.Touches (p.release index) [] := by
  -- Each of the steps leaves what slots show.
  have counted := p.unref_touches index
  rw [release]
  split
  · rename_i q told
    rw [told] at counted
    exact (counted.trans (q.retire_touches index)).trans (recycle_touches _ index)
  · rename_i q told
    rwa [told] at counted

/-- Handing a slot out shows there and nowhere else. -/
theorem claim_touches (p : Pool) (index : Nat) : p.Touches (p.claim index) [index] := by
  -- The slot that is handed out is cleared, and its window starts behind the headroom.
  apply Touches.of_slot fun s => { s.cleared p.headroom with refcount := 1 }
  · intro i
    simp only [claim, modifySlot, Array.getElem?_modify]
  · intro fits s _
    exact fits.headroom
  · exact p.capacity_modifySlot index _
  · rfl
  · rfl
  · rfl
  · rfl

/-- Handing slots out shows in them and nowhere else. -/
theorem claimAll_touches (p : Pool) (indices : List Nat) :
    p.Touches (p.claimAll indices) indices := by
  -- They are handed out one after another.
  induction indices generalizing p with
  | nil => exact Touches.refl p
  | cons index rest ih => exact (p.claim_touches index).trans (ih (p.claim index))

/-- Allocating shows in the slot that is handed out. -/
theorem alloc_touches {p q : Pool} {index : Nat} (handed : p.alloc = .ok (index, q)) :
    p.Touches q [index] := by
  -- Taking a slot off the free ring shows nowhere.
  rw [alloc] at handed
  split at handed
  · cases handed
  · rename_i free _
    cases handed
    have moved : p.Touches { p with free := free } [] := Touches.of_slots rfl rfl rfl rfl rfl
    exact moved.trans (claim_touches _ index)

/-- Allocating in bulk shows in the slots that are handed out. -/
theorem allocBulk_touches {p q : Pool} {count : Nat} {indices : List Nat}
    (handed : p.allocBulk count = .ok (indices, q)) : p.Touches q indices := by
  -- Taking slots off the free ring shows nowhere.
  rw [allocBulk] at handed
  split at handed
  · cases handed
  · split at handed
    · cases handed
    · rename_i free _
      cases handed
      have moved : p.Touches { p with free := free } [] := Touches.of_slots rfl rfl rfl rfl rfl
      exact moved.trans (claimAll_touches _ indices)

/-- Strides of different slots do not overlap. -/
theorem base_apart (p : Pool) {i j : Nat} (apart : i ≠ j) :
    p.base i + p.stride ≤ p.base j ∨ p.base j + p.stride ≤ p.base i := by
  -- One slot is before the other, and strides follow one another.
  have step : ∀ {a b : Nat}, a < b → p.base a + p.stride ≤ p.base b := by
    intro a b before
    rw [base, base, ← Nat.succ_mul]
    exact Nat.mul_le_mul_right _ before
  obtain before | before := Nat.lt_or_gt_of_ne apart
  · exact Or.inl (step before)
  · exact Or.inr (step before)

/-- Storing bytes inside a slot's stride shows there and nowhere else. -/
theorem writeBytes_touches (p : Pool) (index start : Nat) (bytes : List UInt8)
    (inside : p.Fits → bytes ≠ [] → start + bytes.length ≤ p.stride) :
    p.Touches (p.writeBytes index start bytes) [index] := by
  -- Other slots have other strides, where the bytes stay as they were.
  refine ⟨rfl, rfl, rfl, rfl, fun fits => ⟨fits.room, fits.small, fits.headroom, fits.windows⟩, ?_⟩
  intro fits i other
  have apart : i ≠ index := by simpa using other
  have kept : (p.writeBytes index start bytes).bytes i 0 p.stride = p.bytes i 0 p.stride := by
    by_cases none : bytes = []
    · rw [none]
      rfl
    have within := inside fits none
    apply Region.read_write_of_outside
    obtain before | after := p.base_apart apart
    · show p.base i + 0 + p.stride ≤ p.base index + start ∨ _
      omega
    · show _ ∨ p.base index + start + bytes.length ≤ p.base i + 0
      omega
  show (p.slots[i]?).map _ = (p.slots[i]?).map _
  rw [show (p.writeBytes index start bytes).stride = p.stride from rfl, kept]

end Pool

/-- A change of a slot that keeps its window inside a data room. -/
def Slot.Confines {α : Type} (room : Nat) (change : Slot → Option (α × Slot)) : Prop :=
  -- A room is counted in 16 bits.
  ∀ s result after, room < UInt16.size → s.headroom + s.len ≤ room →
    change s = some (result, after) → after.headroom + after.len ≤ room

/-- A change of a slot that is refused while the slot is shared. -/
def Slot.Guarded {α : Type} (change : Slot → Option (α × Slot)) : Prop :=
  ∀ s, s.refcount ≠ 1 → change s = none

namespace Slot

/-- A slot that is not held exactly once is not held exclusively. -/
theorem exclusive?_none {s : Slot} (shared : s.refcount ≠ 1) : s.exclusive? = none :=
  -- The guard asks for a count of one.
  if_neg shared

/-- Growing a packet at its front keeps it inside its room. -/
theorem confines_prepend? (room count : Nat) : Confines room (·.prepend? count) := by
  -- The window grows by what it takes off the headroom, so its end stays where it was.
  intro s result after small inside changed
  simp only [prepend?] at changed
  cases held : s.exclusive? with
  | none => simp [held] at changed
  | some t =>
    obtain rfl := exclusive?_eq_some held
    simp only [held] at changed
    split at changed
    · cases changed
    · rename_i narrow
      split at changed
      · cases changed
      · rename_i enough
        cases changed
        have size : UInt16.size = 65536 := rfl
        rw [UInt16.lt_iff_toNat_lt, UInt16.toNat_ofNat_of_lt' (by omega)] at enough
        simp only [headroom, len] at inside ⊢
        rw [UInt16.toNat_sub_of_le _ _ (by
            rw [UInt16.le_iff_toNat_le, UInt16.toNat_ofNat_of_lt' (by omega)]
            omega),
          UInt16.toNat_add, UInt16.toNat_ofNat_of_lt' (by omega), Nat.mod_eq_of_lt (by omega)]
        omega

/-- Growing a packet at its back keeps it inside its room. -/
theorem confines_append? (room count : Nat) : Confines room (·.append? room count) := by
  -- The window grows by no more than its tailroom.
  intro s result after small inside changed
  simp only [append?] at changed
  split at changed
  · cases changed
  · rename_i enough
    cases held : s.exclusive? with
    | none => simp [held] at changed
    | some t =>
      obtain rfl := exclusive?_eq_some held
      simp only [held] at changed
      cases changed
      have size : UInt16.size = 65536 := rfl
      simp only [tailroom, headroom, len] at enough inside ⊢
      rw [UInt16.toNat_add, UInt16.toNat_ofNat_of_lt' (by omega), Nat.mod_eq_of_lt (by omega)]
      omega

/-- Shrinking a packet at its front keeps it inside its room. -/
theorem confines_pull? (room count : Nat) : Confines room (·.pull? count) := by
  -- The window shrinks by what the headroom gains, so its end stays where it was.
  intro s result after small inside changed
  simp only [pull?] at changed
  cases held : s.exclusive? with
  | none => simp [held] at changed
  | some t =>
    obtain rfl := exclusive?_eq_some held
    simp only [held] at changed
    split at changed
    · cases changed
    · rename_i narrow
      split at changed
      · cases changed
      · rename_i enough
        cases changed
        have size : UInt16.size = 65536 := rfl
        rw [UInt16.lt_iff_toNat_lt, UInt16.toNat_ofNat_of_lt' (by omega)] at enough
        simp only [headroom, len] at inside ⊢
        rw [UInt16.toNat_sub_of_le _ _ (by
            rw [UInt16.le_iff_toNat_le, UInt16.toNat_ofNat_of_lt' (by omega)]
            omega),
          UInt16.toNat_add, UInt16.toNat_ofNat_of_lt' (by omega), Nat.mod_eq_of_lt (by omega)]
        omega

/-- Shrinking a packet at its back keeps it inside its room. -/
theorem confines_trim? (room count : Nat) :
    Confines room fun s => (s.trim? count).map ((), ·) := by
  -- A window that shrinks at its back ends earlier.
  intro s result after small inside changed
  simp only [trim?, Option.map_eq_some_iff] at changed
  obtain ⟨t, trimmed, same⟩ := changed
  cases held : s.exclusive? with
  | none => simp [held] at trimmed
  | some u =>
    obtain rfl := exclusive?_eq_some held
    simp only [held] at trimmed
    split at trimmed
    · rename_i enough
      cases trimmed
      cases same
      simp only [headroom, len] at enough inside ⊢
      rw [UInt16.toNat_sub_of_le _ _ (by
          rw [UInt16.le_iff_toNat_le, UInt16.toNat_ofNat_of_lt' (by omega)]
          omega),
        UInt16.toNat_ofNat_of_lt' (by omega)]
      omega
    · cases trimmed

/-- A change of an exclusively held packet keeps it inside its room when the new window is. -/
theorem confines_map {room : Nat} {change : Slot → Slot}
    (window : ∀ s : Slot, s.headroom + s.len ≤ room →
      (change s).headroom + (change s).len ≤ room) :
    Confines room fun s => (s.exclusive?.map change).map ((), ·) := by
  -- The guard leaves the slot as it is, so that the new window is that of the change.
  intro s result after _ inside changed
  simp only [Option.map_map, Option.map_eq_some_iff] at changed
  obtain ⟨t, held, same⟩ := changed
  obtain rfl := exclusive?_eq_some held
  cases same
  exact window t inside

/-- A change of an exclusively held packet is refused while it is shared. -/
theorem guarded_map (change : Slot → Slot) :
    Guarded fun s => (s.exclusive?.map change).map ((), ·) := by
  -- The guard comes before the change.
  intro s shared
  simp [exclusive?_none shared]

/-- Shrinking a packet at its back is refused while it is shared. -/
theorem guarded_trim? (count : Nat) : Guarded fun s => (s.trim? count).map ((), ·) := by
  -- The guard comes before the length is looked at.
  intro s shared
  simp [trim?, exclusive?_none shared]

/-- Growing a packet at its back is refused while it is shared. -/
theorem guarded_append? (room count : Nat) : Guarded (·.append? room count) := by
  -- A shared slot is refused whether or not the bytes would fit.
  intro s shared
  simp [append?, exclusive?_none shared]

/-- Growing a packet at its front is refused while it is shared. -/
theorem guarded_prepend? (count : Nat) : Guarded (·.prepend? count) := by
  -- The guard comes before the headroom is looked at.
  intro s shared
  simp [prepend?, exclusive?_none shared]

/-- Shrinking a packet at its front is refused while it is shared. -/
theorem guarded_pull? (count : Nat) : Guarded (·.pull? count) := by
  -- The guard comes before the length is looked at.
  intro s shared
  simp [pull?, exclusive?_none shared]

end Slot

namespace Pool

variable {p q : Pool} {index : Nat}

/-- A change that keeps a window inside its room shows in its slot and nowhere else. -/
theorem edit_touches {α : Type} {change : Slot → Option (α × Slot)}
    (confines : Slot.Confines p.dataRoom change) {result : α}
    (changed : p.edit index change = some (result, q)) : p.Touches q [index] := by
  -- The new window is inside the room, and no other slot is changed.
  rw [edit] at changed
  split at changed
  · cases changed
  · rename_i s found
    have inside := (Array.getElem?_eq_some_iff.mp found).1
    split at changed
    · cases changed
    · rename_i t done
      cases changed
      apply Touches.of_slot fun _ => t
      · intro i
        rw [Array.getElem?_setIfInBounds]
        by_cases same : index = i
        · subst same
          simp [inside]
        · simp [same]
      · intro fits u there
        rw [found, Option.some.injEq] at there
        exact confines s result t fits.small (fits.windows index s found) done
      · simp [capacity]
      · rfl
      · rfl
      · rfl
      · rfl

/-- A change without a result that keeps a window inside its room shows in its slot alone. -/
theorem editUnit_touches {change : Slot → Option Slot}
    (confines : Slot.Confines p.dataRoom fun s => (change s).map ((), ·)) :
    p.Touches (p.editUnit index change).2 [index] := by
  -- A change that is refused touches nothing.
  rw [editUnit]
  split
  · exact (Touches.refl p).mono (by simp)
  · rename_i changed
    exact edit_touches confines changed

/-- An emptied packet lies behind the headroom of its pool. -/
theorem confines_reset (fits : p.Fits) :
    Slot.Confines p.dataRoom fun s => (s.reset? p.headroom).map ((), ·) :=
  -- A pool that fits has room for its headroom.
  Slot.confines_map fun _ _ => fits.headroom

/-- A window that was grown at its back ends where the new bytes end. -/
theorem append_inside {room count start : Nat} {s t : Slot}
    (grown : s.append? room count = some (start, t)) (inside : s.headroom + s.len ≤ room) :
    start = s.headroom + s.len ∧ start + count ≤ room := by
  -- The tailroom is what the room leaves behind the window.
  simp only [Slot.append?] at grown
  split at grown
  · cases grown
  · rename_i enough
    cases held : s.exclusive? with
    | none => simp [held] at grown
    | some u =>
      obtain rfl := Slot.exclusive?_eq_some held
      simp only [held, Option.some.injEq, Prod.mk.injEq] at grown
      obtain ⟨rfl, -⟩ := grown
      rw [Slot.tailroom] at enough
      exact ⟨rfl, by omega⟩

/-- The bytes of a packet that is replaced go into its own room. -/
theorem copy_touches (p : Pool) (index : Nat) (bytes : List UInt8) (fits : p.Fits) :
    p.Touches (p.copy index bytes).2 [index] := by
  -- The packet is emptied, grown, and written over.
  have emptied : p.Touches (p.editUnit index (Slot.reset? p.headroom)).2 [index] :=
    editUnit_touches (confines_reset fits)
  rw [copy]
  split
  · rename_i q refused
    rwa [refused] at emptied
  · rename_i q accepted
    rw [accepted] at emptied
    have after := emptied.fits fits
    split
    · exact emptied
    · rename_i start r grown
      have grew : q.Touches r [index] := edit_touches (Slot.confines_append? _ _) grown
      have wrote : r.Touches (r.writeBytes index start bytes) [index] := by
        apply writeBytes_touches
        intro wide _
        rw [edit] at grown
        split at grown
        · cases grown
        · rename_i s found
          split at grown
          · cases grown
          · rename_i done
            cases grown
            have room := (append_inside done (after.windows index s found)).2
            exact Nat.le_trans room after.room
      exact ((emptied.trans grew).trans wrote).mono (by simp)

end Pool

end PacketPlane
