import PacketPlane.Proofs.Buffer.Frames

/-! Windows: a data room with a packet in it, what edits do to it, and the slots that show one. -/

namespace PacketPlane

/-- What a caller is answered when it edits a packet: nothing when the edit is refused, and
otherwise the bytes that it is lent. -/
def Buffers.reply (b : Buffers) (packet : Packet) : Edit → Option (List UInt8)
  -- An edit that only tells whether it was accepted lends no bytes.
  | .prepend count =>
    (b.prepend? packet count).map fun (start, after) => after.bytes packet start count
  | .append count =>
    (b.append? packet count).map fun (start, after) => after.bytes packet start count
  | .pull count => (b.pull? packet count).map fun (start, after) => after.bytes packet start count
  | .trim count => if (b.trim packet count).1 then some [] else none
  | .reset => if (b.reset packet).1 then some [] else none
  | .copy bytes => if (b.copy packet bytes).1 then some [] else none
  | .setPort port => if (b.setPort packet port).1 then some [] else none
  | .setTimestamp timestamp => if (b.setTimestamp packet timestamp).1 then some [] else none
  | .write _ _ => (b.writable? packet).map fun (start, len) => b.bytes packet start len

namespace Slot

variable {s : Slot} {room count : Nat}

/-- The slot with its packet elsewhere in the room. -/
def moved (s : Slot) (headroom len : Nat) : Slot :=
  { s with dataOff := UInt16.ofNat headroom, dataLen := UInt16.ofNat len }

/-- A slot that one reference holds may be changed. -/
theorem exclusive?_some (alone : s.refcount = 1) : s.exclusive? = some s := if_pos alone

/-- A packet moved to where it is stays as it is. -/
theorem moved_self (s : Slot) : s.moved s.headroom s.len = s := by
  simp [moved, headroom, len]

/-- Where a packet was moved before does not show. -/
@[simp] theorem moved_moved (s : Slot) (headroom len headroom' len' : Nat) :
    (s.moved headroom len).moved headroom' len' = s.moved headroom' len' := rfl

/-- A packet that stays where it is only changes its length. -/
theorem moved_headroom (s : Slot) (len : Nat) :
    s.moved s.headroom len = { s with dataLen := UInt16.ofNat len } := by
  rw [moved, headroom, UInt16.ofNat_toNat]

/-- A packet is where it was moved to when the place is counted in 16 bits. -/
theorem headroom_moved (s : Slot) {headroom : Nat} (small : headroom < UInt16.size) (len : Nat) :
    (s.moved headroom len).headroom = headroom :=
  UInt16.toNat_ofNat_of_lt' small

/-- A packet is as long as it was made when its length is counted in 16 bits. -/
theorem len_moved (s : Slot) (headroom : Nat) {len : Nat} (small : len < UInt16.size) :
    (s.moved headroom len).len = len :=
  UInt16.toNat_ofNat_of_lt' small

/-- What is added to an end of a window is added as it is. -/
theorem add_ofNat (place : UInt16) (count : Nat) :
    place + UInt16.ofNat count = UInt16.ofNat (place.toNat + count) := by
  rw [UInt16.ofNat_add, UInt16.ofNat_toNat]

/-- What is taken from an end of a window is taken as it is when there is enough. -/
theorem sub_ofNat {place : UInt16} (enough : count ≤ place.toNat) :
    place - UInt16.ofNat count = UInt16.ofNat (place.toNat - count) := by
  rw [UInt16.ofNat_sub enough, UInt16.ofNat_toNat]

/-- What an end of a window has not enough for is refused, whether the count fits into 16 bits or
not. -/
theorem guard_eq {α : Type} (place : UInt16) (count : Nat) (moved : Option α) :
    (if count ≥ UInt16.size then none else if place < UInt16.ofNat count then none else moved) =
      if count ≤ place.toNat then moved else none := by
  -- A count beyond 16 bits is more than any place, so the first check only anticipates the second.
  have bound := place.toNat_lt
  by_cases wide : count ≥ UInt16.size
  · have beyond : ¬ count ≤ place.toNat := by
      rw [ge_iff_le, UInt16.size] at wide
      omega
    rw [if_pos wide, if_neg beyond]
  · have compared : place < UInt16.ofNat count ↔ ¬ count ≤ place.toNat := by
      rw [UInt16.lt_iff_toNat_lt, UInt16.toNat_ofNat_of_lt' (Nat.lt_of_not_le wide), Nat.not_le]
    rw [if_neg wide, if_congr compared rfl rfl, ite_not]

/-- A packet grows at its front by as much as fits into the headroom. -/
theorem prepend?_eq (alone : s.refcount = 1) :
    s.prepend? count = if count ≤ s.headroom then
      some (s.headroom - count, s.moved (s.headroom - count) (s.len + count)) else none := by
  -- The count is at most the headroom, so neither of the two differences goes below zero.
  simp only [prepend?, exclusive?_some alone, guard_eq]
  apply if_ctx_congr Iff.rfl
  · intro enough
    have place : (s.dataOff - UInt16.ofNat count).toNat = s.headroom - count := by
      have bound : s.headroom < UInt16.size := s.dataOff.toNat_lt
      rw [sub_ofNat enough]
      exact UInt16.toNat_ofNat_of_lt' (by rw [headroom] at bound; omega)
    rw [place, sub_ofNat enough, add_ofNat]
    rfl
  · intro _
    rfl

/-- A packet grows at its back by as much as fits into the tailroom. -/
theorem append?_eq (alone : s.refcount = 1) :
    s.append? room count = if count ≤ s.tailroom room then
      some (s.headroom + s.len, s.moved s.headroom (s.len + count)) else none := by
  -- What the tailroom allows is checked on naturals, and only then added to the length.
  simp only [append?, exclusive?_some alone]
  by_cases enough : count ≤ s.tailroom room
  · rw [if_neg (Nat.not_lt.mpr enough), if_pos enough, add_ofNat, moved_headroom, len]
  · rw [if_pos (Nat.lt_of_not_le enough), if_neg enough]

/-- A packet shrinks at its front by as much as it has. -/
theorem pull?_eq (alone : s.refcount = 1) :
    s.pull? count = if count ≤ s.len then
      some (s.headroom, s.moved (s.headroom + count) (s.len - count)) else none := by
  -- The count is at most the length, so the length does not go below zero.
  simp only [pull?, exclusive?_some alone, guard_eq]
  apply if_ctx_congr Iff.rfl
  · intro enough
    rw [sub_ofNat enough, add_ofNat]
    rfl
  · intro _
    rfl

/-- A packet shrinks at its back by as much as it has. -/
theorem trim?_eq (alone : s.refcount = 1) :
    s.trim? count = if count ≤ s.len then some (s.moved s.headroom (s.len - count)) else none := by
  -- The count is at most the length, so the length does not go below zero.
  simp only [trim?, exclusive?_some alone, ge_iff_le]
  by_cases enough : count ≤ s.len
  · rw [if_pos enough, if_pos enough, sub_ofNat enough, moved_headroom, len]
  · rw [if_neg enough, if_neg enough]

/-- Bytes that were pulled off a packet can be put back, which leaves the slot as it was. -/
theorem pull_prepend (alone : s.refcount = 1) (small : s.headroom + s.len < UInt16.size)
    (enough : count ≤ s.len) :
    ∃ t, s.pull? count = some (s.headroom, t) ∧ t.prepend? count = some (s.headroom, s) := by
  -- The slot in between is named, since both its places have to fit into 16 bits to come back.
  let t := s.moved (s.headroom + count) (s.len - count)
  have headroom : t.headroom = s.headroom + count := s.headroom_moved (by omega) _
  have len : t.len = s.len - count := s.len_moved _ (by omega)
  refine ⟨t, ?_, ?_⟩
  · rw [pull?_eq alone, if_pos enough]
  · rw [prepend?_eq (s := t) alone, headroom, len, if_pos (Nat.le_add_left ..),
      Nat.add_sub_cancel, Nat.sub_add_cancel enough, moved_moved, moved_self]

/-- Bytes that were trimmed off a packet can be put back, which leaves the slot as it was. -/
theorem trim_append (alone : s.refcount = 1) (inside : s.headroom + s.len ≤ room)
    (small : room < UInt16.size) (enough : count ≤ s.len) :
    ∃ t, s.trim? count = some t ∧
      t.append? room count = some (s.headroom + (s.len - count), s) := by
  -- The slot in between is named, since what was trimmed has to fit into its tailroom again.
  let t := s.moved s.headroom (s.len - count)
  have headroom : t.headroom = s.headroom := s.headroom_moved (by omega) _
  have len : t.len = s.len - count := s.len_moved _ (by omega)
  have tailroom : count ≤ t.tailroom room := by
    rw [Slot.tailroom, headroom, len]
    omega
  refine ⟨t, ?_, ?_⟩
  · rw [trim?_eq alone, if_pos enough]
  · rw [append?_eq (s := t) alone, if_pos tailroom, headroom, len, Nat.sub_add_cancel enough,
      moved_moved, moved_self]

end Slot

/-- A data room with a packet in it: what the room stores, where an emptied packet begins, and where
the packet begins and how long it is. -/
@[ext] structure Window where
  stored : List UInt8
  front : Nat
  headroom : Nat
  len : Nat
  inside : headroom + len ≤ stored.length
  behind : front ≤ stored.length

namespace Window

variable {w : Window} {start count : Nat} {bytes : List UInt8}

/-- Bytes of the data room. -/
def room (w : Window) : Nat :=
  w.stored.length

/-- Bytes behind the packet. -/
def tailroom (w : Window) : Nat :=
  -- The three parts make up the room.
  w.room - w.headroom - w.len

/-- What the room stores from a place on. -/
def read (w : Window) (start count : Nat) : List UInt8 :=
  (w.stored.drop start).take count

/-- The bytes of the packet. -/
def data (w : Window) : List UInt8 :=
  w.read w.headroom w.len

/-- The packet moved to another place of the room. -/
def slide (w : Window) (headroom len : Nat) (inside : headroom + len ≤ w.room) : Window :=
  { w with headroom, len, inside }

/-- The packet emptied. -/
def emptied (w : Window) : Window :=
  w.slide w.front 0 w.behind

/-- A packet that was emptied has no bytes. -/
theorem data_emptied (w : Window) : w.emptied.data = [] :=
  List.take_zero (l := w.stored.drop w.front)

/-- Storing bytes in a room does not change how many there are. -/
theorem length_store (fits : start + bytes.length ≤ w.room) :
    (w.stored.take start ++ bytes ++ w.stored.drop (start + bytes.length)).length =
      w.stored.length := by
  -- What is stored replaces as many bytes as it has.
  rw [room] at fits
  simp only [List.length_append, List.length_take, List.length_drop]
  omega

/-- Bytes stored from a place of the room on. -/
def store (w : Window) (start : Nat) (bytes : List UInt8) (fits : start + bytes.length ≤ w.room) :
    Window :=
  { w with
    stored := w.stored.take start ++ bytes ++ w.stored.drop (start + bytes.length)
    inside := (length_store fits).symm ▸ w.inside
    behind := (length_store fits).symm ▸ w.behind }

/-- The parts of a room make it up. -/
theorem parts (w : Window) : w.headroom + w.len + w.tailroom = w.room := by
  -- The packet lies inside its room, so nothing is cut off when the tailroom is computed.
  have inside : w.headroom + w.len ≤ w.room := w.inside
  rw [tailroom]
  omega

/-- What fits into the headroom may be added at the front. -/
theorem room_prepend (enough : count ≤ w.headroom) :
    w.headroom - count + (w.len + count) ≤ w.room := by
  -- The packet grows towards the front, so its end stays where it is.
  have parts := w.parts
  omega

/-- What fits into the tailroom may be added at the back. -/
theorem room_append (enough : count ≤ w.tailroom) : w.headroom + (w.len + count) ≤ w.room := by
  -- The packet grows towards the back, so its front stays where it is.
  have parts := w.parts
  omega

/-- What the packet has may be taken off its front. -/
theorem room_pull (enough : count ≤ w.len) : w.headroom + count + (w.len - count) ≤ w.room := by
  -- The packet's end stays where it is.
  have parts := w.parts
  omega

/-- What the packet has may be taken off its back. -/
theorem room_trim (w : Window) (count : Nat) : w.headroom + (w.len - count) ≤ w.room := by
  -- The packet's front stays where it is.
  have parts := w.parts
  omega

/-- Bytes cut off behind a packet lie inside of its room. -/
theorem room_write (w : Window) {offset : Nat} (within : offset ≤ w.len) (bytes : List UInt8) :
    w.headroom + offset + (bytes.take (w.len - offset)).length ≤ w.room := by
  -- No more bytes are written than the packet has from there.
  have parts := w.parts
  rw [List.length_take]
  omega

/-- What an edit of a packet answers, and the room after it. -/
def edit (w : Window) : Edit → Option (List UInt8) × Window
  -- Bytes that do not fit are only found out once the packet has been emptied.
  | .prepend count =>
    if enough : count ≤ w.headroom then
      (some (w.read (w.headroom - count) count),
        w.slide (w.headroom - count) (w.len + count) (room_prepend enough))
    else (none, w)
  | .append count =>
    if enough : count ≤ w.tailroom then
      (some (w.read (w.headroom + w.len) count),
        w.slide w.headroom (w.len + count) (room_append enough))
    else (none, w)
  | .pull count =>
    if enough : count ≤ w.len then
      (some (w.read w.headroom count),
        w.slide (w.headroom + count) (w.len - count) (room_pull enough))
    else (none, w)
  | .trim count =>
    if count ≤ w.len then (some [], w.slide w.headroom (w.len - count) (w.room_trim count))
    else (none, w)
  | .reset => (some [], w.emptied)
  | .copy bytes =>
    if enough : w.front + bytes.length ≤ w.room then
      (some [], (w.slide w.front bytes.length enough).store w.front bytes enough)
    else (none, w.emptied)
  | .setPort _ | .setTimestamp _ => (some [], w)
  | .write offset bytes =>
    (some w.data,
      if within : offset ≤ w.len then
        w.store (w.headroom + offset) (bytes.take (w.len - offset)) (w.room_write within bytes)
      else w)

/-- The room after edits one after another. -/
def run (w : Window) (edits : List Edit) : Window :=
  edits.foldl (fun w edit => (w.edit edit).2) w

/-- An edit changes neither how large the room is nor where an emptied packet begins in it. -/
theorem edit_room (w : Window) (edit : Edit) :
    (w.edit edit).2.room = w.room ∧ (w.edit edit).2.front = w.front := by
  -- By cases on the edit: all of them move the ends of the packet or store bytes inside the room.
  cases edit with
  | prepend | append | pull | trim =>
    rw [Window.edit]
    split <;> exact ⟨rfl, rfl⟩
  | reset | setPort | setTimestamp => exact ⟨rfl, rfl⟩
  | copy bytes =>
    rw [Window.edit]
    split
    · rename_i fits
      exact ⟨length_store (w := w) fits, rfl⟩
    · exact ⟨rfl, rfl⟩
  | write offset bytes =>
    simp only [Window.edit]
    split
    · rename_i within
      exact ⟨length_store (w.room_write within bytes), rfl⟩
    · exact ⟨rfl, rfl⟩

/-- Edits one after another change neither how large the room is nor where an emptied packet begins
in it. -/
theorem run_room (w : Window) (edits : List Edit) :
    (w.run edits).room = w.room ∧ (w.run edits).front = w.front := by
  -- By induction on the edits, over all windows, since each edit leaves another window behind.
  induction edits generalizing w with
  | nil => exact ⟨rfl, rfl⟩
  | cons edit rest ih =>
    obtain ⟨room, front⟩ := w.edit_room edit
    obtain ⟨room', front'⟩ := ih (w.edit edit).2
    exact ⟨room'.trans room, front'.trans front⟩

/-- Bytes that are stored at a place are read there. -/
theorem read_store (fits : start + bytes.length ≤ w.room) :
    (w.store start bytes fits).read start bytes.length = bytes := by
  -- Everything before the place is dropped, and everything behind the bytes is not taken.
  rw [room] at fits
  have before : (w.stored.take start).length = start := by
    rw [List.length_take, Nat.min_eq_left (by omega)]
  show ((w.stored.take start ++ bytes ++ w.stored.drop (start + bytes.length)).drop start).take
    bytes.length = bytes
  rw [List.append_assoc, List.drop_left' before, List.take_left' rfl]

end Window

namespace Pool

/-- One slot put in place of another. -/
def setSlot (p : Pool) (index : Nat) (s : Slot) : Pool :=
  { p with slots := p.slots.setIfInBounds index s }

/-- A slot that one reference holds, and the room that its packet lies in. -/
structure Shows (p : Pool) (index : Nat) (s : Slot) (w : Window) : Prop where
  found : p.slots[index]? = some s
  alone : s.refcount = 1
  small : p.dataRoom < UInt16.size
  stored : p.bytes index 0 p.dataRoom = w.stored
  front : p.headroom.toNat = w.front
  headroom : s.headroom = w.headroom
  len : s.len = w.len

variable {p : Pool} {index start count : Nat} {s t : Slot} {w after : Window}

/-- A slot put in place of another is there. -/
theorem slots_setSlot (found : p.slots[index]? = some s) (t : Slot) :
    (p.setSlot index t).slots[index]? = some t := by
  -- The index exists, so what is put there is found there.
  have inside := (Array.getElem?_eq_some_iff.mp found).1
  simp [setSlot, inside]

/-- A slot put in its own place changes nothing. -/
theorem setSlot_self (found : p.slots[index]? = some s) : p.setSlot index s = p := by
  obtain ⟨inside, rfl⟩ := Array.getElem?_eq_some_iff.mp found
  rw [setSlot, Array.setIfInBounds, dif_pos inside, Array.set_getElem_self]

/-- A slot that exists is changed, or refuses to be. -/
theorem edit_found {α : Type} (found : p.slots[index]? = some s)
    (change : Slot → Option (α × Slot)) :
    p.edit index change =
      (change s).map fun outcome => (outcome.1, p.setSlot index outcome.2) := by
  -- The slot is found, so only the change itself can refuse.
  simp only [edit, found]
  cases change s <;> rfl

/-- A slot that exists is changed without a result, or refuses to be. -/
theorem editUnit_found (found : p.slots[index]? = some s) (change : Slot → Option Slot) :
    p.editUnit index change = match change s with
      | none => (false, p)
      | some t => (true, p.setSlot index t) := by
  -- The slot is found, so only the change itself can refuse.
  simp only [editUnit, edit_found found]
  cases change s <;> rfl

/-- A slot put in place twice is put there once. -/
@[simp] theorem setSlot_setSlot (p : Pool) (index : Nat) (s t : Slot) :
    (p.setSlot index s).setSlot index t = p.setSlot index t := by
  simp [setSlot]

namespace Shows

/-- A room is as large as the pool says. -/
theorem room (shown : p.Shows index s w) : w.room = p.dataRoom := by
  -- The window stores as many bytes as the pool reads for it.
  rw [Window.room, ← shown.stored, length_bytes]

/-- Behind the packet there is as much as the slot says. -/
theorem tailroom (shown : p.Shows index s w) : s.tailroom p.dataRoom = w.tailroom := by
  -- Both take the same two places from the same room.
  rw [Slot.tailroom, Window.tailroom, shown.room, shown.headroom, shown.len]

/-- Bytes inside of the room are read as it stores them. -/
theorem bytes (shown : p.Shows index s w) (fits : start + count ≤ w.room) :
    p.bytes index start count = w.read start count := by
  -- A part of what the pool stores for the slot is read, and all of it is what the window stores.
  rw [shown.room] at fits
  have middle := p.region.read_middle (p.base index) start count p.dataRoom fits
  rw [Window.read, ← shown.stored]
  exact middle

/-- A slot that still has one reference may take the place of another. -/
theorem put (shown : p.Shows index s w) (alone : t.refcount = 1) (stored : after.stored = w.stored)
    (front : after.front = w.front) (headroom : t.headroom = after.headroom)
    (len : t.len = after.len) : (p.setSlot index t).Shows index t after where
  -- The bytes stay, so only the places of the packet have to agree.
  found := slots_setSlot shown.found t
  alone := alone
  small := shown.small
  stored := shown.stored.trans stored.symm
  front := shown.front.trans front.symm
  headroom := headroom
  len := len

/-- A packet that is moved inside of its room is shown there. -/
theorem slide (shown : p.Shows index s w) {headroom len : Nat} (inside : headroom + len ≤ w.room) :
    (p.setSlot index (s.moved headroom len)).Shows index (s.moved headroom len)
      (w.slide headroom len inside) := by
  -- A room is counted in 16 bits, and so is everything inside of it.
  have small := shown.small
  rw [← shown.room] at small
  exact shown.put shown.alone rfl rfl (s.headroom_moved (by omega) len)
    (s.len_moved headroom (by omega))

/-- Bytes that are stored inside of the room are shown there. -/
theorem store (shown : p.Shows index s w) {bytes : List UInt8}
    (fits : start + bytes.length ≤ w.room) :
    (p.writeBytes index start bytes).Shows index s (w.store start bytes fits) where
  -- Bytes inside the room are all that is written, so slot and places stay as they were.
  found := shown.found
  alone := shown.alone
  small := shown.small
  stored := by
    have inside : start + bytes.length ≤ p.dataRoom := shown.room ▸ fits
    have replaced := p.region.read_write_inside (p.base index) start bytes inside
    show _ = w.stored.take start ++ bytes ++ w.stored.drop (start + bytes.length)
    rw [← shown.stored]
    exact replaced
  front := shown.front
  headroom := shown.headroom
  len := shown.len

/-- A packet that is emptied is shown behind the headroom of its pool. -/
theorem cleared (shown : p.Shows index s w) :
    (p.setSlot index (s.cleared p.headroom)).Shows index (s.cleared p.headroom) w.emptied :=
  shown.put shown.alone rfl rfl shown.front rfl

/-- Bytes that are copied into a packet are stored behind the headroom when they fit there. When
they do not, that is found out after the packet was emptied. -/
theorem copy (shown : p.Shows index s w) (bytes : List UInt8) :
    (¬ w.front + bytes.length ≤ w.room ∧
      p.copy index bytes = (false, p.setSlot index (s.cleared p.headroom))) ∨
    ∃ fits : w.front + bytes.length ≤ w.room, (p.copy index bytes).1 = true ∧
      ∃ t, (p.copy index bytes).2.Shows index t
        ((w.slide w.front bytes.length fits).store w.front bytes fits) := by
  -- The slot is replaced by an empty one, which is then grown.
  have emptied := shown.cleared
  have reset : s.reset? p.headroom = some (s.cleared p.headroom) := by
    rw [Slot.reset?, Slot.exclusive?_some shown.alone, Option.map_some]
  have grown := @Slot.append?_eq _ p.dataRoom bytes.length emptied.alone
  have tailroom : (s.cleared p.headroom).tailroom p.dataRoom = w.room - w.front := emptied.tailroom
  have headroom : (s.cleared p.headroom).headroom = w.front := emptied.headroom
  have len : (s.cleared p.headroom).len = 0 := emptied.len
  have behind : w.front ≤ w.room := w.behind
  rw [tailroom, headroom, len, Nat.add_zero, Nat.zero_add] at grown
  rw [Pool.copy, editUnit_found shown.found, reset]
  dsimp only
  rw [edit_found emptied.found]
  by_cases fits : w.front + bytes.length ≤ w.room
  · right
    rw [if_pos (by omega)] at grown
    -- The slot that was put back is read again, with room for the bytes.
    have accepted : (s.cleared p.headroom).append?
        (p.setSlot index (s.cleared p.headroom)).dataRoom bytes.length =
          some (w.front, (s.cleared p.headroom).moved w.front bytes.length) := grown
    have moved : ((p.setSlot index (s.cleared p.headroom)).setSlot index
        ((s.cleared p.headroom).moved w.front bytes.length)).Shows index
          ((s.cleared p.headroom).moved w.front bytes.length) (w.slide w.front bytes.length fits) :=
      emptied.slide fits
    rw [accepted, Option.map_some]
    exact ⟨fits, rfl, _, moved.store fits⟩
  · left
    rw [if_neg (by omega)] at grown
    have refused : (s.cleared p.headroom).append? (p.setSlot index (s.cleared p.headroom)).dataRoom
        bytes.length = none := grown
    rw [refused, Option.map_none]
    exact ⟨fits, rfl⟩

end Shows

end Pool

end PacketPlane
