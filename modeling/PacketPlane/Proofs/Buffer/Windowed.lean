import PacketPlane.Proofs.Buffer.Rooms
import PacketPlane.Proofs.Buffer.Window

/-! Packets as windows: whatever is done to a packet that nobody shares, its buffer does what a
window over a data room does. -/

namespace PacketPlane

namespace Buffers

/-- A packet that nobody shares, and the room that it lies in. -/
def Shows (b : Buffers) (packet : Packet) (w : Window) : Prop :=
  ∃ p s, b.pools[packet.pool]? = some p ∧ p.Shows packet.index s w

/-- An edit of a packet answers what its room answers, and leaves the packet in the room after. -/
def Follows (b : Buffers) (packet : Packet) (w : Window) (edit : Edit) : Prop :=
  b.reply packet edit = (w.edit edit).1 ∧ (b.perform packet edit).Shows packet (w.edit edit).2

variable {b : Buffers} {packet : Packet} {p q : Pool} {s t : Slot} {w after : Window}

/-- A pool put in place of another shows what it shows by itself. -/
theorem shows_setPool (found : b.pools[packet.pool]? = some p) (shown : q.Shows packet.index t w) :
    (b.setPool packet.pool q).Shows packet w := by
  -- The pool put in place is the one found at its number.
  refine ⟨q, t, ?_, shown⟩
  rw [pools_setPool found, if_pos rfl]

/-- A slot that exists is changed in its pool. -/
theorem edit_found {α : Type} (found : b.pools[packet.pool]? = some p)
    (there : p.slots[packet.index]? = some s) (change : Pool → Slot → Option (α × Slot)) :
    b.edit packet change = (change p s).map fun outcome =>
      (outcome.1, b.setPool packet.pool (p.setSlot packet.index outcome.2)) := by
  -- Pool and slot are found, so only the change itself can refuse.
  simp only [edit, found, Pool.edit_found there]
  cases change p s <;> rfl

/-- A slot that exists is changed in its pool, or refuses to be. -/
theorem editUnit_found (found : b.pools[packet.pool]? = some p)
    (there : p.slots[packet.index]? = some s) (change : Pool → Slot → Option Slot) :
    b.editUnit packet change = match change p s with
      | none => (false, b)
      | some t => (true, b.setPool packet.pool (p.setSlot packet.index t)) := by
  -- Pool and slot are found, so only the change itself can refuse.
  simp only [editUnit, edit_found found there]
  cases change p s <;> rfl

namespace Shows

/-- Bytes inside of the room are read as it stores them. -/
theorem bytes (shown : b.Shows packet w) {start count : Nat} (fits : start + count ≤ w.room) :
    b.bytes packet start count = w.read start count := by
  -- The pool that shows the window reads the bytes as the window has them.
  obtain ⟨p, s, found, shown⟩ := shown
  simp only [Buffers.bytes, found]
  exact shown.bytes fits

/-- The packet's bytes are those of its window. -/
theorem data (shown : b.Shows packet w) : b.data packet = w.data := by
  -- The packet reaches from its headroom over its length, inside the room.
  obtain ⟨p, s, found, shown⟩ := shown
  simp only [Buffers.data, found, shown.found, shown.headroom, shown.len]
  exact shown.bytes w.inside

/-- The packet may be written over where it lies. -/
theorem writable? (shown : b.Shows packet w) : b.writable? packet = some (w.headroom, w.len) := by
  -- A slot with one reference is its holder's to change, and says where its packet lies.
  obtain ⟨p, s, found, shown⟩ := shown
  simp only [Buffers.writable?, slot?, found, shown.found, Slot.exclusive?_some shown.alone,
    Option.map_some, shown.headroom, shown.len]

/-- An end of a window is moved by as much as one part of the room has, and by no more than that.
The bytes that it passes over are lent as the room stores them. -/
theorem lends (shown : b.Shows packet w) {change : Pool → Slot → Option (Nat × Slot)}
    {start count part headroom len : Nat} (inside : count ≤ part → headroom + len ≤ w.room)
    (lent : count ≤ part → start + count ≤ w.room)
    (changed : ∀ p s, p.Shows packet.index s w →
      change p s = if count ≤ part then some (start, s.moved headroom len) else none) :
    let outcome := if enough : count ≤ part then
      (some (w.read start count), w.slide headroom len (inside enough)) else (none, w)
    ((b.edit packet change).map fun edited => edited.2.bytes packet edited.1 count) = outcome.1 ∧
      (((b.edit packet change).map (·.2)).getD b).Shows packet outcome.2 := by
  obtain ⟨p, s, found, shown⟩ := id shown
  rw [edit_found found shown.found, changed p s shown]
  by_cases enough : count ≤ part
  · -- A move changes no bytes, so what is lent is read off the room before it.
    have moved := shows_setPool found (shown.slide (inside enough))
    rw [if_pos enough, dif_pos enough, Option.map_some, Option.map_some, Option.map_some,
      Option.getD_some, moved.bytes (lent enough)]
    exact ⟨rfl, moved⟩
  · rw [if_neg enough, dif_neg enough]
    exact ⟨rfl, p, s, found, shown⟩

/-- Growing a packet at its front moves its window. -/
theorem prepend (shown : b.Shows packet w) (count : Nat) : b.Follows packet w (.prepend count) := by
  -- What is added lies in the headroom, so it is inside the room when it is lent.
  have parts := w.parts
  rw [Follows, reply, perform, prepend?, Window.edit]
  apply shown.lends Window.room_prepend
  · intro enough
    omega
  · intro p s shown
    rw [Slot.prepend?_eq shown.alone, shown.headroom, shown.len]

/-- Growing a packet at its back moves the end of its window. -/
theorem append (shown : b.Shows packet w) (count : Nat) : b.Follows packet w (.append count) := by
  -- What is added lies in the tailroom, so it is inside the room when it is lent.
  have parts := w.parts
  rw [Follows, reply, perform, append?, Window.edit]
  apply shown.lends Window.room_append
  · intro enough
    omega
  · intro p s shown
    rw [Slot.append?_eq shown.alone, shown.tailroom, shown.headroom, shown.len]

/-- Shrinking a packet at its front moves its window. -/
theorem pull (shown : b.Shows packet w) (count : Nat) : b.Follows packet w (.pull count) := by
  -- What is taken off was part of the packet, so it is inside the room when it is lent.
  have parts := w.parts
  rw [Follows, reply, perform, pull?, Window.edit]
  apply shown.lends Window.room_pull
  · intro enough
    omega
  · intro p s shown
    rw [Slot.pull?_eq shown.alone, shown.headroom, shown.len]

/-- A slot that may be replaced is replaced, and lends nothing. -/
theorem replaces (shown : b.Shows packet w) {change : Pool → Slot → Option Slot}
    (changed : ∀ p s, p.Shows packet.index s w →
      ∃ t, change p s = some t ∧ (p.setSlot packet.index t).Shows packet.index t after) :
    (b.editUnit packet change).1 = true ∧ (b.editUnit packet change).2.Shows packet after := by
  -- The slot is found and changes, so the edit is accepted whatever it puts there.
  obtain ⟨p, s, found, shown⟩ := shown
  obtain ⟨t, changed, replaced⟩ := changed p s shown
  rw [editUnit_found found shown.found, changed]
  exact ⟨rfl, shows_setPool found replaced⟩

/-- Shrinking a packet at its back moves the end of its window. -/
theorem trim (shown : b.Shows packet w) (count : Nat) : b.Follows packet w (.trim count) := by
  -- Nothing is lent by trimming, so only its answer and where the window ends have to be followed.
  rw [Follows, reply, perform, Buffers.trim, Window.edit]
  by_cases enough : count ≤ w.len
  · obtain ⟨accepted, moved⟩ : (b.editUnit packet fun _ s => s.trim? count).1 = true ∧
        (b.editUnit packet fun _ s => s.trim? count).2.Shows packet
          (w.slide w.headroom (w.len - count) (w.room_trim count)) := by
      apply shown.replaces
      intro p s shown
      refine ⟨_, ?_, shown.slide (w.room_trim count)⟩
      rw [Slot.trim?_eq shown.alone, shown.headroom, shown.len, if_pos enough]
    rw [if_pos accepted, if_pos enough]
    exact ⟨rfl, moved⟩
  · obtain ⟨p, s, found, there⟩ := shown
    have refused : s.trim? count = none := by
      rw [Slot.trim?_eq there.alone, there.len, if_neg enough]
    simp only [editUnit_found found there.found, refused, if_neg enough]
    exact ⟨rfl, p, s, found, there⟩

/-- Emptying a packet puts its window behind the headroom of its pool. -/
theorem reset (shown : b.Shows packet w) : b.Follows packet w .reset := by
  -- A slot that nobody shares is not refused, and emptying is all that happens to it.
  obtain ⟨accepted, emptied⟩ : (b.reset packet).1 = true ∧
      (b.reset packet).2.Shows packet w.emptied := by
    apply shown.replaces
    intro p s shown
    exact ⟨_, by rw [Slot.reset?, Slot.exclusive?_some shown.alone, Option.map_some],
      shown.cleared⟩
  rw [Follows, reply, perform, if_pos accepted]
  exact ⟨rfl, emptied⟩

/-- Naming a packet's origin leaves its window where it is. -/
theorem named (shown : b.Shows packet w) {change : Slot → Slot}
    (window : ∀ s : Slot, (change s).refcount = s.refcount ∧ (change s).headroom = s.headroom ∧
      (change s).len = s.len) :
    (b.editUnit packet fun _ s => s.exclusive?.map change).1 = true ∧
      (b.editUnit packet fun _ s => s.exclusive?.map change).2.Shows packet w := by
  -- What names an origin touches no place of the window, and the slot may be replaced.
  apply shown.replaces
  intro p s shown
  obtain ⟨count, headroom, len⟩ := window s
  refine ⟨change s, by rw [Slot.exclusive?_some shown.alone, Option.map_some], ?_⟩
  exact shown.put (count.trans shown.alone) rfl rfl (headroom.trans shown.headroom)
    (len.trans shown.len)

/-- Naming a packet's port leaves its window where it is. -/
theorem setPort (shown : b.Shows packet w) (port : UInt16) :
    b.Follows packet w (.setPort port) := by
  -- A port is one of the names that leave the window where it is.
  obtain ⟨accepted, kept⟩ : (b.setPort packet port).1 = true ∧
      (b.setPort packet port).2.Shows packet w :=
    shown.named fun _ => ⟨rfl, rfl, rfl⟩
  rw [Follows, reply, perform, if_pos accepted]
  exact ⟨rfl, kept⟩

/-- Stamping a packet leaves its window where it is. -/
theorem setTimestamp (shown : b.Shows packet w) (timestamp : UInt64) :
    b.Follows packet w (.setTimestamp timestamp) := by
  -- A time is one of the names that leave the window where it is.
  obtain ⟨accepted, kept⟩ : (b.setTimestamp packet timestamp).1 = true ∧
      (b.setTimestamp packet timestamp).2.Shows packet w :=
    shown.named fun _ => ⟨rfl, rfl, rfl⟩
  rw [Follows, reply, perform, if_pos accepted]
  exact ⟨rfl, kept⟩

/-- Copying bytes into a packet empties it, and then stores them when they fit. -/
theorem copy (shown : b.Shows packet w) (bytes : List UInt8) :
    b.Follows packet w (.copy bytes) := by
  -- By cases on whether the bytes fit behind the headroom: if they do not, the emptied packet is
  -- left.
  obtain ⟨p, s, found, shown⟩ := shown
  have copied : b.copy packet bytes =
      ((p.copy packet.index bytes).1, b.setPool packet.pool (p.copy packet.index bytes).2) := by
    simp only [Buffers.copy, found]
    rfl
  rw [Follows, reply, perform, copied, Window.edit]
  obtain ⟨wide, emptied⟩ | ⟨fits, accepted, t, stored⟩ := shown.copy bytes
  · rw [dif_neg wide, emptied]
    exact ⟨rfl, shows_setPool found shown.cleared⟩
  · rw [dif_pos fits]
    simp only [accepted]
    exact ⟨rfl, shows_setPool found stored⟩

/-- Writing over a packet stores the bytes that lie inside of it. -/
theorem write (shown : b.Shows packet w) (offset : Nat) (bytes : List UInt8) :
    b.Follows packet w (.write offset bytes) := by
  -- By cases on whether the offset is inside the packet: if it is not, nothing is written.
  have lent := shown.bytes w.inside
  rw [Follows, reply]
  simp only [perform, shown.writable?, Option.map_some, Window.edit, lent]
  refine ⟨rfl, ?_⟩
  obtain ⟨p, s, found, shown⟩ := shown
  rw [writeBytes, modifyPool_eq found]
  split
  · rename_i within
    exact shows_setPool found (shown.store (w.room_write within bytes))
  · -- Behind the packet there is nothing to write over.
    rename_i beyond
    rw [Nat.sub_eq_zero_of_le (Nat.le_of_not_le beyond), List.take_zero]
    exact shows_setPool found shown

/-- Every edit of a packet that nobody shares answers and leaves what its room does. -/
theorem step (shown : b.Shows packet w) (edit : Edit) : b.Follows packet w edit := by
  -- By cases on the edit, each of which has its own lemma.
  cases edit with
  | prepend count => exact shown.prepend count
  | append count => exact shown.append count
  | pull count => exact shown.pull count
  | trim count => exact shown.trim count
  | reset => exact shown.reset
  | copy bytes => exact shown.copy bytes
  | setPort port => exact shown.setPort port
  | setTimestamp timestamp => exact shown.setTimestamp timestamp
  | write offset bytes => exact shown.write offset bytes

/-- Edits one after another leave a packet in the room that they lead to. -/
theorem run (shown : b.Shows packet w) (edits : List Edit) :
    (b.performAll packet edits).Shows packet (w.run edits) := by
  -- Each edit finds the packet in the room that the one before left.
  induction edits generalizing b w with
  | nil => exact shown
  | cons edit rest ih => exact ih (shown.step edit).2

end Shows

/-- Two pools put in one place one after the other are the second one. -/
theorem setPool_setPool (b : Buffers) (k : Nat) (p q : Pool) :
    (b.setPool k p).setPool k q = b.setPool k q := by
  simp [setPool]

/-- A slot that is changed and then changed back leaves all pools as they were. -/
theorem edited_back (change : Pool → Slot → Option (Nat × Slot))
    (found : b.pools[packet.pool]? = some p) (there : p.slots[packet.index]? = some s)
    {start : Nat} (back : change (p.setSlot packet.index t) t = some (start, s)) :
    (((b.setPool packet.pool (p.setSlot packet.index t)).edit packet change).map (·.2)).getD
      (b.setPool packet.pool (p.setSlot packet.index t)) = b := by
  -- The slot is found where it was put, and what is put there in the end is what was there first.
  have found' : (b.setPool packet.pool (p.setSlot packet.index t)).pools[packet.pool]? =
      some (p.setSlot packet.index t) := by
    rw [pools_setPool found, if_pos rfl]
  rw [edit_found found' (Pool.slots_setSlot there t), back, Option.map_some, Option.map_some,
    Option.getD_some, setPool_setPool, Pool.setSlot_setSlot, Pool.setSlot_self there,
    setPool_self found]

namespace Shows

/-- Bytes that were pulled off a packet and put back leave all pools as they were. -/
theorem pull_prepend (shown : b.Shows packet w) {count : Nat} (enough : count ≤ w.len) :
    b.performAll packet [.pull count, .prepend count] = b := by
  -- The slot goes back to what it was, and with it its pool and all the others.
  obtain ⟨p, s, found, shown⟩ := shown
  have inside : w.headroom + w.len ≤ w.room := w.inside
  have small := shown.small
  rw [← shown.len] at enough inside
  rw [← shown.headroom, shown.room] at inside
  obtain ⟨t, pulled, back⟩ := Slot.pull_prepend shown.alone (by omega) enough
  have first : b.perform packet (.pull count) =
      b.setPool packet.pool (p.setSlot packet.index t) := by
    rw [perform, Buffers.pull?, edit_found found shown.found, pulled]
    rfl
  rw [performAll, List.foldl_cons, first]
  exact edited_back (fun _ s => s.prepend? count) found shown.found back

/-- Bytes that were trimmed off a packet and put back leave all pools as they were. -/
theorem trim_append (shown : b.Shows packet w) {count : Nat} (enough : count ≤ w.len) :
    b.performAll packet [.trim count, .append count] = b := by
  -- The slot goes back to what it was, and with it its pool and all the others.
  obtain ⟨p, s, found, shown⟩ := shown
  have inside : w.headroom + w.len ≤ w.room := w.inside
  rw [← shown.len] at enough inside
  rw [← shown.headroom, shown.room] at inside
  obtain ⟨t, trimmed, back⟩ := Slot.trim_append shown.alone inside shown.small enough
  have first : b.perform packet (.trim count) =
      b.setPool packet.pool (p.setSlot packet.index t) := by
    rw [perform, Buffers.trim, editUnit_found found shown.found, trimmed]
  rw [performAll, List.foldl_cons, first]
  exact edited_back (fun p s => s.append? p.dataRoom count) found shown.found back

/-- A packet that bytes were copied into is these bytes. -/
theorem data_copy (shown : b.Shows packet w) {bytes : List UInt8}
    (fits : w.front + bytes.length ≤ w.room) :
    (b.perform packet (.copy bytes)).data packet = bytes := by
  -- What was stored is read again at the front of the window.
  have copied := (shown.copy bytes).2
  rw [Window.edit, dif_pos fits] at copied
  rw [copied.data]
  exact Window.read_store (w := w.slide w.front bytes.length fits) fits

end Shows

/-- A packet that is held once is shown in a room. -/
theorem shows_of_alone (fits : b.Fits) (one : b.refcount packet = 1) : ∃ w, b.Shows packet w := by
  -- The window is made of what the pool stores for the slot, and lies inside since the pool fits.
  obtain ⟨p, found, count⟩ := pool_of_refcount_pos (one ▸ Nat.one_pos)
  rw [one] at count
  obtain ⟨s, there, same⟩ := Pool.exists_of_refcount_pos (count ▸ Nat.one_pos)
  have fits := fits packet.pool p found
  have length : (p.bytes packet.index 0 p.dataRoom).length = p.dataRoom := p.length_bytes ..
  refine ⟨⟨p.bytes packet.index 0 p.dataRoom, p.headroom.toNat, s.headroom, s.len, ?_, ?_⟩, p, s,
    found, there, UInt32.toNat_inj.mp (same.trans count), fits.small, rfl, rfl, rfl, rfl⟩
  · rw [length]
    exact fits.windows packet.index s there
  · rw [length]
    exact fits.headroom

/-- A packet that is a window over its data room: the parts of the room make it up, an edit is
accepted exactly when the part that it takes from is large enough, it lends the bytes that the room
stores in the place that it covers, and it moves its own end of the window alone. -/
structure Windowed (b : Buffers) (packet : Packet) (w : Window) : Prop where
  shown : b.Shows packet w
  slot : ∃ s, b.slot? packet = some s ∧ s.headroom = w.headroom ∧ s.len = w.len ∧
    s.tailroom (b.dataRoom packet) = w.tailroom
  parts : w.headroom + w.len + w.tailroom = b.dataRoom packet
  data : b.data packet = w.data
  append : ∀ count, b.reply packet (.append count) =
    if count ≤ w.tailroom then some (w.read (w.headroom + w.len) count) else none
  prepend : ∀ count, b.reply packet (.prepend count) =
    if count ≤ w.headroom then some (w.read (w.headroom - count) count) else none
  pull : ∀ count, b.reply packet (.pull count) =
    if count ≤ w.len then some (w.read w.headroom count) else none
  trim : ∀ count, b.reply packet (.trim count) = if count ≤ w.len then some [] else none
  reset : b.reply packet .reset = some []
  copy : ∀ bytes, b.reply packet (.copy bytes) =
    if bytes.length ≤ w.room - w.front then some [] else none
  appended : ∀ count ≤ w.tailroom, ∃ inside,
    (b.perform packet (.append count)).Shows packet (w.slide w.headroom (w.len + count) inside)
  prepended : ∀ count ≤ w.headroom, ∃ inside,
    (b.perform packet (.prepend count)).Shows packet
      (w.slide (w.headroom - count) (w.len + count) inside)
  pulled : ∀ count ≤ w.len, ∃ inside,
    (b.perform packet (.pull count)).Shows packet
      (w.slide (w.headroom + count) (w.len - count) inside)
  trimmed : ∀ count ≤ w.len, ∃ inside,
    (b.perform packet (.trim count)).Shows packet (w.slide w.headroom (w.len - count) inside)
  emptied : (b.perform packet .reset).Shows packet (w.slide w.front 0 w.behind)
  copied : ∀ bytes, bytes.length ≤ w.room - w.front → ∃ fits,
    (b.perform packet (.copy bytes)).Shows packet
        ((w.slide w.front bytes.length fits).store w.front bytes fits) ∧
      (b.perform packet (.copy bytes)).data packet = bytes
  unpulled : ∀ count ≤ w.len, b.performAll packet [.pull count, .prepend count] = b
  untrimmed : ∀ count ≤ w.len, b.performAll packet [.trim count, .append count] = b

/-- A packet that nobody shares is a window over its data room. -/
theorem Shows.windowed (shown : b.Shows packet w) : b.Windowed packet w where
  -- Slot and pool are read off what shows the window, and each kind of edit follows it as it was
  -- proved to.
  shown := shown
  slot := by
    obtain ⟨p, s, found, there⟩ := shown
    refine ⟨s, ?_, there.headroom, there.len, ?_⟩
    · rw [slot?, found]
      exact there.found
    · rw [dataRoom, found, there.tailroom]
  parts := by
    obtain ⟨p, s, found, there⟩ := shown
    rw [w.parts, dataRoom, found, there.room]
  data := shown.data
  append count := by
    rw [(shown.append count).1, Window.edit]
    split <;> rfl
  prepend count := by
    rw [(shown.prepend count).1, Window.edit]
    split <;> rfl
  pull count := by
    rw [(shown.pull count).1, Window.edit]
    split <;> rfl
  trim count := by
    rw [(shown.trim count).1, Window.edit]
    split <;> rfl
  reset := shown.reset.1
  copy bytes := by
    -- Both sides ask for room behind the front, in two spellings.
    have behind : w.front ≤ w.room := w.behind
    rw [(shown.copy bytes).1, Window.edit]
    by_cases fits : w.front + bytes.length ≤ w.room
    · rw [dif_pos fits, if_pos (by omega)]
    · rw [dif_neg fits, if_neg (by omega)]
  appended count enough := by
    have moved := (shown.append count).2
    rw [Window.edit, dif_pos enough] at moved
    exact ⟨_, moved⟩
  prepended count enough := by
    have moved := (shown.prepend count).2
    rw [Window.edit, dif_pos enough] at moved
    exact ⟨_, moved⟩
  pulled count enough := by
    have moved := (shown.pull count).2
    rw [Window.edit, dif_pos enough] at moved
    exact ⟨_, moved⟩
  trimmed count enough := by
    have moved := (shown.trim count).2
    rw [Window.edit, if_pos enough] at moved
    exact ⟨_, moved⟩
  emptied := shown.reset.2
  copied bytes short := by
    have behind : w.front ≤ w.room := w.behind
    have fits : w.front + bytes.length ≤ w.room := by omega
    have copied := (shown.copy bytes).2
    rw [Window.edit, dif_pos fits] at copied
    exact ⟨fits, copied, shown.data_copy fits⟩
  unpulled count enough := shown.pull_prepend enough
  untrimmed count enough := shown.trim_append enough

end Buffers

namespace Ledger

variable {l : Ledger} {packet : Packet}

/-- A packet with a single live reference is shown in a room. -/
theorem Reachable.shows (run : l.Reachable) (alone : l.references packet = 1) :
    ∃ w, l.buffers.Shows packet w :=
  Buffers.shows_of_alone run.fits ((run.sound.counted packet).trans alone)

/-- Whatever pools were made and whatever permitted calls followed: a packet with a single live
reference is a window over a data room, as large and with as much headroom as settings without fault
say, and it stays one through edits of any kind and number. -/
theorem exclusive_windowed (run : l.Reachable) (alone : l.references packet = 1) :
    ∃ (settings : PoolSettings) (w : Window), settings.fault? = none ∧ ∀ edits,
      (w.run edits).room = settings.dataRoom.toNat ∧
      (w.run edits).front = settings.headroom.toNat ∧
      (l.buffers.performAll packet edits).Windowed packet (w.run edits) := by
  -- The window at the start is found in the pool, and edits are followed by it one after another.
  obtain ⟨w, shown⟩ := run.shows alone
  obtain ⟨p, s, found, there⟩ := id shown
  obtain ⟨settings, fine, room, front⟩ := run.rooms found
  refine ⟨settings, w, fine, ?_⟩
  intro edits
  obtain ⟨room', front'⟩ := w.run_room edits
  exact ⟨by rw [room', there.room, room], by rw [front', ← there.front, front],
    (shown.run edits).windowed⟩

/-- A packet that a new pool handed out is a window over its data room. -/
theorem exclusive_windowed_fresh :
    ∃ l : Ledger, l.Reachable ∧ l.references ⟨0, 0⟩ = 1 ∧
      ∃ (settings : PoolSettings) (w : Window), settings.fault? = none ∧ ∀ edits,
        (w.run edits).room = settings.dataRoom.toNat ∧
        (w.run edits).front = settings.headroom.toNat ∧
        (l.buffers.performAll ⟨0, 0⟩ edits).Windowed ⟨0, 0⟩ (w.run edits) := by
  -- A packet that a pool just handed out is held once.
  obtain ⟨p, q, -, -, run⟩ := exists_lone_packet
  exact ⟨_, run, rfl, exclusive_windowed run rfl⟩

end Ledger

end PacketPlane
