import PacketPlane.Proofs.Buffer.Keeping
import PacketPlane.Proofs.Buffer.Windowed
import PacketPlane.Worker.Action

/-! Scripts: processors that go by the packet under work alone, as every scripted one does. -/

namespace PacketPlane

/-- A processor that goes by the packet under work, by what it remembers and by what it is told, as long
as nobody else holds the packet, and that does nothing to other packets. -/
structure Processor.Insular (process : Processor σ) : Prop where
  edits : ∀ context packet memory (s : Surroundings), s.buffers.Fits → s.buffers.refcount packet = 1 →
    ∃ edits, (process context packet memory s).surroundings.buffers = s.buffers.performAll packet edits
  alike : ∀ context memory {packet twin : Packet} {s t : Surroundings},
    s.buffers.Fits → t.buffers.Fits → s.buffers.refcount packet = 1 → t.buffers.refcount twin = 1 →
    t.clocks = s.clocks → t.buffers.look twin = s.buffers.look packet →
    let decision := process context packet memory s
    let other := process context twin memory t
    other.verdict = decision.verdict ∧ other.memory = decision.memory ∧
      other.surroundings.clocks = decision.surroundings.clocks ∧
      other.surroundings.buffers.look twin = decision.surroundings.buffers.look packet

namespace Window

variable {w : Window} {offset count : Nat} {bytes : List UInt8}

/-- A packet has as many bytes as it is long. -/
theorem length_data (w : Window) : w.data.length = w.len := by
  -- The bytes between headroom and end are all there, as a window is inside of its room.
  have inside := w.inside
  rw [data, read, List.length_take, List.length_drop]
  omega

/-- Bytes stored inside of a packet replace those there. -/
theorem data_store (within : offset + bytes.length ≤ w.len)
    (fits : w.headroom + offset + bytes.length ≤ w.room) :
    (w.store (w.headroom + offset) bytes fits).data =
      w.data.take offset ++ bytes ++ w.data.drop (offset + bytes.length) := by
  -- Byte by byte, since each comes from in front of the stored ones, from among them or from behind.
  have inside := w.inside
  have room : w.headroom + offset + bytes.length ≤ w.stored.length := fits
  apply List.ext_getElem
  · simp only [length_data, List.length_append, List.length_take, List.length_drop]
    show w.len = _
    omega
  · intro i short _
    rw [length_data] at short
    have short : i < w.len := short
    simp only [data, read, store, List.getElem_take, List.getElem_drop, List.getElem_append,
      List.length_take, List.length_drop, List.length_append]
    grind

/-- A packet that shrank at its front has lost its first bytes. -/
theorem data_pull (inside : w.headroom + count + (w.len - count) ≤ w.room) :
    (w.slide (w.headroom + count) (w.len - count) inside).data = w.data.drop count := by
  -- The bytes dropped from the room and those dropped from the packet are the same.
  simp only [data, read, slide, List.drop_take, List.drop_drop]

/-- A packet that shrank at its back has lost its last bytes. -/
theorem data_trim (inside : w.headroom + (w.len - count) ≤ w.room) :
    (w.slide w.headroom (w.len - count) inside).data = w.data.take (w.len - count) := by
  -- Of a shorter front of the room, the longer one shows nothing more.
  simp only [data, read, slide, List.take_take, Nat.min_eq_left (Nat.sub_le _ _)]

/-- Behind what a packet gained at its front, it is as before. -/
theorem data_prepend (enough : count ≤ w.headroom)
    (inside : w.headroom - count + (w.len + count) ≤ w.room) :
    (w.slide (w.headroom - count) (w.len + count) inside).data.drop count = w.data := by
  -- Dropping what was gained leads back to the old headroom.
  simp only [data, read, slide, List.drop_take, List.drop_drop, Nat.sub_add_cancel enough,
    Nat.add_sub_cancel]

/-- In front of what a packet gained at its back, it is as before. -/
theorem data_append (inside : w.headroom + (w.len + count) ≤ w.room) :
    (w.slide w.headroom (w.len + count) inside).data.take w.len = w.data := by
  -- The old length is reached before what was gained.
  simp only [data, read, slide, List.take_take, Nat.min_eq_left (Nat.le_add_right _ _)]

end Window

namespace Seen

variable (s : Seen)

/-- The packet grown at its front by bytes that fit into the headroom. -/
def prepend? (bytes : List UInt8) : Option Seen :=
  if bytes.length ≤ s.headroom then
    some { s with
      data := bytes ++ s.data, len := s.len + bytes.length, headroom := s.headroom - bytes.length }
  else none

/-- The packet grown at its back by bytes that fit behind it in a data room. -/
def append? (room : Nat) (bytes : List UInt8) : Option Seen :=
  if bytes.length ≤ room - s.headroom - s.len then
    some { s with data := s.data ++ bytes, len := s.len + bytes.length }
  else none

/-- The packet without its first bytes, if it has as many. -/
def pull? (count : Nat) : Option Seen :=
  if count ≤ s.len then
    some { s with data := s.data.drop count, len := s.len - count, headroom := s.headroom + count }
  else none

/-- The packet without its last bytes, if it has as many. -/
def trim? (count : Nat) : Option Seen :=
  if count ≤ s.len then some { s with data := s.data.take (s.len - count), len := s.len - count }
  else none

/-- The packet with another first byte, if it has one. -/
def setFirst? (byte : UInt8) : Option Seen :=
  if 0 < s.len then some { s with data := byte :: s.data.tail } else none

/-- The packet with its two addresses exchanged, if it holds them. -/
def swapMacs? : Option Seen :=
  if s.len < 2 * macLen then none else some { s with data := exchangeMacs s.data }

/-- A change that keeps a packet when it is possible and drops it when it is not. -/
def kept (changed : Option Seen) : Verdict × Seen :=
  -- A change that is not possible leaves the packet as it was.
  (if changed.isSome then .forward else .drop, changed.getD s)

end Seen

/-- What an action makes of a packet that nobody shares, in a data room of a size: whether it lets it
through, and what the packet is like afterwards. -/
def Action.answer (context : Context) (nth room : Nat) (seen : Seen) : Action → Verdict × Seen
  -- Nothing but the packet and what the processor is told makes a difference.
  | .advance _ | .log | .stopAfter _ => (.forward, seen)
  | .crashAt count => (if nth = count then .crash else .forward, seen)
  | .drop => (.drop, seen)
  | .dropEvery count => (.keepIf (nth % count != 0), seen)
  | .even =>
    (.keepIf (match seen.data with
      | first :: _ => first % 2 == 0
      | [] => false), seen)
  | .minLen len => (.keepIf (seen.len ≥ len), seen)
  | .set byte => seen.kept (seen.setFirst? byte)
  | .prepend bytes => seen.kept (seen.prepend? bytes)
  | .append bytes => seen.kept (seen.append? room bytes)
  | .pull count => seen.kept (seen.pull? count)
  | .trim count => seen.kept (seen.trim? count)
  | .stamp => (.forward, { seen with timestamp := context.now })
  | .port number => (.forward, { seen with port := number })
  | .swapMacs => seen.kept seen.swapMacs?

/-- The clocks after an action. -/
def Action.tick (context : Context) (clocks : Array Clock) : Action → Array Clock
  -- No other action takes time.
  | .advance cycles => clocks.modify context.clock (·.advance cycles)
  | _ => clocks

/-- What actions carried out in turn make of a packet that nobody shares, and of the clocks. -/
def answerAll (context : Context) (nth room : Nat) (seen : Seen) (clocks : Array Clock) :
    List Action → Verdict × Seen × Array Clock
  -- A packet that an action does not let through is not treated any further.
  | [] => (.forward, seen, clocks)
  | action :: rest =>
    match action.answer context nth room seen with
    | (.forward, seen) => answerAll context nth room seen (action.tick context clocks) rest
    | (verdict, seen) => (verdict, seen, action.tick context clocks)

namespace Buffers

/-- A packet that nobody shares, the room that it lies in, and what can be seen of it. -/
def Finds (b : Buffers) (packet : Packet) (w : Window) (seen : Seen) : Prop :=
  ∃ p s, b.pools[packet.pool]? = some p ∧ p.Shows packet.index s w ∧
    seen = ⟨w.data, w.len, w.headroom, s.port, s.timestamp⟩

/-- A packet was edited, and lies in a room of the same kind then. -/
structure Reshapes (b : Buffers) (packet : Packet) (w : Window) (after : Buffers) (seen : Seen) :
    Prop where
  edited : ∃ edits, after = b.performAll packet edits
  found : ∃ w', w'.room = w.room ∧ w'.front = w.front ∧ after.Finds packet w' seen

/-- An edit is accepted exactly when there is something that it makes of the packet. -/
def Does (b : Buffers) (packet : Packet) (w : Window) (seen : Seen) (edit : Bool × Buffers)
    (changed : Option Seen) : Prop :=
  edit.1 = changed.isSome ∧ b.Reshapes packet w edit.2 (changed.getD seen)

variable {b after : Buffers} {packet : Packet} {w w' : Window} {seen : Seen} {start count : Nat}

/-- A packet that is held once is found in a room. -/
theorem Shows.finds (shown : b.Shows packet w) : ∃ seen, b.Finds packet w seen := by
  -- Its origin is whatever its slot says.
  obtain ⟨p, s, found, there⟩ := shown
  exact ⟨_, p, s, found, there, rfl⟩

namespace Finds

/-- What is found is what the packet looks like. -/
theorem look (found : b.Finds packet w seen) :
    b.look packet = ⟨some seen, some (w.room, UInt16.ofNat w.front)⟩ := by
  -- Both parts of a look are read from the same slot and its pool.
  obtain ⟨p, s, pool, there, rfl⟩ := found
  have data : b.data packet = w.data := Shows.data ⟨p, s, pool, there⟩
  have slot : b.slot? packet = some s := by
    rw [slot?, pool]
    exact there.found
  rw [Buffers.look, seen?, slot, data, rooms, Array.getElem?_map, pool, Option.map_some,
    Option.map_some, Pool.rooms, there.room, ← there.front, UInt16.ofNat_toNat, ← there.headroom,
    ← there.len]

/-- What is seen of a packet are its window and its origin. -/
theorem parts (found : b.Finds packet w seen) :
    ∃ port timestamp, seen = ⟨w.data, w.len, w.headroom, port, timestamp⟩ := by
  -- A slot has a port and a timestamp besides its window.
  obtain ⟨p, s, pool, there, rfl⟩ := found
  exact ⟨s.port, s.timestamp, rfl⟩

/-- The packet's bytes and its length are those that are seen. -/
theorem measures (found : b.Finds packet w seen) :
    b.data packet = seen.data ∧ b.len packet = seen.len := by
  -- Both are read from the slot.
  obtain ⟨p, s, pool, there, rfl⟩ := found
  refine ⟨Shows.data ⟨p, s, pool, there⟩, ?_⟩
  simp only [Buffers.len, slot?, pool, there.found, there.len]

/-- A packet that is left alone stays as it is. -/
theorem stays (found : b.Finds packet w seen) : b.Reshapes packet w b seen :=
  -- No edits are needed.
  ⟨⟨[], rfl⟩, w, rfl, rfl, found⟩

/-- A window is moved in its room. -/
theorem moved {α : Type} (found : b.Finds packet w seen) (change : Pool → Slot → Option (α × Slot))
    (result : α) {headroom len : Nat} (inside : headroom + len ≤ w.room)
    (changed : ∀ p s, p.Shows packet.index s w → change p s = some (result, s.moved headroom len)) :
    ∃ after, b.edit packet change = some (result, after) ∧
      after.Finds packet (w.slide headroom len inside)
        { seen with data := (w.slide headroom len inside).data, len, headroom } := by
  -- The change goes to the one slot, and puts it back in its pool with the moved window.
  obtain ⟨p, s, pool, there, rfl⟩ := found
  have edited := edit_found pool there.found change
  rw [changed p s there, Option.map_some] at edited
  refine ⟨_, edited, p.setSlot packet.index (s.moved headroom len), s.moved headroom len, ?_,
    there.slide inside, rfl⟩
  rw [pools_setPool pool, if_pos rfl]

/-- A window that may not be moved stays. -/
theorem refused {α : Type} (found : b.Finds packet w seen)
    (change : Pool → Slot → Option (α × Slot))
    (changed : ∀ p s, p.Shows packet.index s w → change p s = none) :
    b.edit packet change = none := by
  -- The change is tried on the one slot.
  obtain ⟨p, s, pool, there, rfl⟩ := found
  rw [edit_found pool there.found, changed p s there, Option.map_none]

/-- Bytes are stored in the room. -/
theorem stored (found : b.Finds packet w seen) {bytes : List UInt8} (fits : start + bytes.length ≤ w.room) :
    (b.writeBytes packet start bytes).Finds packet (w.store start bytes fits)
      { seen with data := (w.store start bytes fits).data } := by
  -- Bytes go to the pool, the slot keeps its place and its origin.
  obtain ⟨p, s, pool, there, rfl⟩ := found
  rw [writeBytes, modifyPool_eq pool]
  refine ⟨p.writeBytes packet.index start bytes, s, ?_, there.store fits, rfl⟩
  rw [pools_setPool pool, if_pos rfl]

/-- The origin of a packet is replaced. -/
theorem named (found : b.Finds packet w seen) {change : Slot → Slot}
    (window : ∀ s : Slot, (change s).refcount = s.refcount ∧ (change s).headroom = s.headroom ∧
      (change s).len = s.len) {named : Seen}
    (origin : ∀ s : Slot, s.port = seen.port → s.timestamp = seen.timestamp →
      named = { seen with port := (change s).port, timestamp := (change s).timestamp }) :
    (b.editUnit packet fun _ s => s.exclusive?.map change).1 = true ∧
      (b.editUnit packet fun _ s => s.exclusive?.map change).2.Finds packet w named := by
  -- A slot held once may be renamed, and the window is none of it.
  obtain ⟨p, s, pool, there, rfl⟩ := found
  obtain ⟨held, headroom, len⟩ := window s
  rw [editUnit_found pool there.found, Slot.exclusive?_some there.alone, Option.map_some]
  refine ⟨rfl, p.setSlot packet.index (change s), change s, ?_, ?_, origin s rfl rfl⟩
  · rw [pools_setPool pool, if_pos rfl]
  · exact there.put (held.trans there.alone) rfl rfl (headroom.trans there.headroom)
      (len.trans there.len)

/-- A packet that is found is shown in its room. -/
theorem shown (found : b.Finds packet w seen) : b.Shows packet w := by
  -- All but the origin.
  obtain ⟨p, s, pool, there, -⟩ := found
  exact ⟨p, s, pool, there⟩

/-- Shrinking a packet at its front. -/
theorem pull (found : b.Finds packet w seen) (count : Nat) :
    b.Does packet w seen (b.shrunk (b.pull? packet count)) (seen.pull? count) := by
  -- Accepted or not by the same comparison. An accepted one moves the window.
  obtain ⟨port, timestamp, rfl⟩ := found.parts
  simp only [Does, Seen.pull?, Buffers.pull?]
  by_cases enough : count ≤ w.len
  · obtain ⟨after, edited, now⟩ := found.moved (fun _ s => s.pull? count)
      w.headroom (Window.room_pull enough) fun p s there => by
        rw [Slot.pull?_eq there.alone, there.headroom, there.len, if_pos enough]
    rw [Window.data_pull] at now
    rw [if_pos enough, edited]
    refine ⟨rfl, ⟨[.pull count], ?_⟩, w.slide _ _ (Window.room_pull enough), rfl, rfl, now⟩
    rw [performAll, List.foldl_cons, perform, Buffers.pull?, edited]
    rfl
  · have refused := found.refused (fun _ s => s.pull? count) fun p s there => by
      rw [Slot.pull?_eq there.alone, there.len, if_neg enough]
    rw [if_neg enough, refused]
    exact ⟨rfl, found.stays⟩

/-- Shrinking a packet at its back. -/
theorem trim (found : b.Finds packet w seen) (count : Nat) :
    b.Does packet w seen (b.trim packet count) (seen.trim? count) := by
  -- The same comparison again. The headroom stays.
  obtain ⟨port, timestamp, rfl⟩ := found.parts
  simp only [Does, Seen.trim?, Buffers.trim, editUnit]
  by_cases enough : count ≤ w.len
  · obtain ⟨after, edited, now⟩ := found.moved
      (fun _ s => (s.trim? count).map fun s => ((), s)) ()
      (w.room_trim count) fun p s there => by
        rw [Slot.trim?_eq there.alone, there.headroom, there.len, if_pos enough, Option.map_some]
    rw [Window.data_trim] at now
    rw [if_pos enough, edited]
    refine ⟨rfl, ⟨[.trim count], ?_⟩, w.slide _ _ (w.room_trim count), rfl, rfl, now⟩
    rw [performAll, List.foldl_cons, perform, Buffers.trim, editUnit, edited]
    rfl
  · have refused := found.refused (fun _ s => (s.trim? count).map fun s => ((), s))
      fun p s there => by rw [Slot.trim?_eq there.alone, there.len, if_neg enough, Option.map_none]
    rw [if_neg enough, refused]
    exact ⟨rfl, found.stays⟩

/-- Writing over a packet, from a place inside of it on. -/
theorem write (found : b.Finds packet w seen) (offset : Nat) (bytes : List UInt8)
    (within : offset + bytes.length ≤ seen.len) :
    ∃ w', w'.room = w.room ∧ w'.front = w.front ∧
      b.perform packet (.write offset bytes) = b.writeBytes packet (w.headroom + offset) bytes ∧
      (b.writeBytes packet (w.headroom + offset) bytes).Finds packet w' { seen with
        data := seen.data.take offset ++ bytes ++ seen.data.drop (offset + bytes.length) } := by
  -- Inside of the packet the bytes fit the room, so the writing is not cut.
  obtain ⟨port, timestamp, rfl⟩ := found.parts
  have within : offset + bytes.length ≤ w.len := within
  have fits : w.headroom + offset + bytes.length ≤ w.room := by
    have parts := w.parts
    omega
  have now := found.stored fits
  rw [Window.data_store within] at now
  refine ⟨w.store _ bytes fits, Window.length_store (w := w) fits, rfl, ?_, now⟩
  simp only [perform, found.shown.writable?]
  rw [List.take_of_length_le (by omega)]

/-- Replacing the first byte of a packet. -/
theorem setFirst (found : b.Finds packet w seen) (byte : UInt8) :
    b.Does packet w seen (b.setFirst packet byte) (seen.setFirst? byte) := by
  -- A packet without bytes has none to replace. Any other has a first, and a rest.
  obtain ⟨port, timestamp, rfl⟩ := found.parts
  simp only [Does, Seen.setFirst?, Buffers.setFirst, found.shown.writable?]
  by_cases some : 0 < w.len
  · obtain ⟨w', room, front, same, now⟩ := found.write 0 [byte] some
    obtain ⟨rest, len⟩ := Nat.exists_eq_succ_of_ne_zero (Nat.ne_of_gt some)
    rw [if_pos some, len]
    rw [Nat.add_zero] at same now
    refine ⟨rfl, ⟨[.write 0 [byte]], same.symm⟩, w', room, front, ?_⟩
    simpa [len] using now
  · rw [if_neg some]
    split
    · rename_i longer
      simp only [Option.some.injEq, Prod.mk.injEq] at longer
      omega
    · exact ⟨rfl, found.stays⟩

/-- Growing a packet at its front. -/
theorem prepend (found : b.Finds packet w seen) (bytes : List UInt8) :
    b.Does packet w seen (b.fillGrown packet bytes (b.prepend? packet bytes.length))
      (seen.prepend? bytes) := by
  -- Two edits, to grow and then to fill. The filling replaces what the growing brought in, and leaves
  -- the rest.
  obtain ⟨port, timestamp, rfl⟩ := found.parts
  simp only [Does, Seen.prepend?, Buffers.prepend?]
  by_cases enough : bytes.length ≤ w.headroom
  · obtain ⟨after, edited, now⟩ := found.moved (fun _ s => s.prepend? bytes.length)
      (w.headroom - bytes.length) (Window.room_prepend enough) fun p s there => by
        rw [Slot.prepend?_eq there.alone, there.headroom, there.len, if_pos enough]
    have same : b.perform packet (.prepend bytes.length) = after := by
      rw [perform, Buffers.prepend?, edited]
      rfl
    obtain ⟨w', room, front, filled, now⟩ := now.write 0 bytes (by
      rw [Nat.zero_add]
      exact Nat.le_add_left _ _)
    rw [if_pos enough, edited]
    refine ⟨rfl, ⟨[.prepend bytes.length, .write 0 bytes], ?_⟩, w', room, front, ?_⟩
    · rw [performAll, List.foldl_cons, List.foldl_cons, same, filled]
      rfl
    · rw [Nat.zero_add, Window.data_prepend enough] at now
      exact now
  · have refused := found.refused (fun _ s => s.prepend? bytes.length) fun p s there => by
      rw [Slot.prepend?_eq there.alone, there.headroom, if_neg enough]
    rw [if_neg enough, refused]
    exact ⟨rfl, found.stays⟩

/-- Growing a packet at its back. -/
theorem append (found : b.Finds packet w seen) (bytes : List UInt8) :
    b.Does packet w seen (b.fillGrown packet bytes (b.append? packet bytes.length))
      (seen.append? w.room bytes) := by
  -- As at the front. The filling starts where the packet used to end, so nothing is behind it.
  obtain ⟨port, timestamp, rfl⟩ := found.parts
  simp only [Does, Seen.append?, Buffers.append?]
  rw [show w.room - w.headroom - w.len = w.tailroom from rfl]
  by_cases enough : bytes.length ≤ w.tailroom
  · obtain ⟨after, edited, now⟩ := found.moved (fun p s => s.append? p.dataRoom bytes.length)
      (w.headroom + w.len) (Window.room_append enough) fun p s there => by
        rw [Slot.append?_eq there.alone, there.tailroom, there.headroom, there.len, if_pos enough]
    have same : b.perform packet (.append bytes.length) = after := by
      rw [perform, Buffers.append?, edited]
      rfl
    obtain ⟨w', room, front, filled, now⟩ := now.write w.len bytes (Nat.le_refl _)
    rw [if_pos enough, edited]
    refine ⟨rfl, ⟨[.append bytes.length, .write w.len bytes], ?_⟩, w', room, front, ?_⟩
    · rw [performAll, List.foldl_cons, List.foldl_cons, same, filled]
      rfl
    · have size : (w.slide w.headroom (w.len + bytes.length) (Window.room_append enough)).data.length =
          w.len + bytes.length := Window.length_data _
      dsimp only at now
      rw [Window.data_append, List.drop_of_length_le (Nat.le_of_eq size), List.append_nil] at now
      exact now
  · have refused := found.refused (fun p s => s.append? p.dataRoom bytes.length) fun p s there => by
      rw [Slot.append?_eq there.alone, there.tailroom, if_neg enough]
    rw [if_neg enough, refused]
    exact ⟨rfl, found.stays⟩

/-- Exchanging the addresses of a packet. -/
theorem swapMacs (found : b.Finds packet w seen) :
    b.Does packet w seen (b.swapMacs packet) seen.swapMacs? := by
  -- The two addresses are one run of bytes at the front, and their exchange is one writing over it.
  obtain ⟨port, timestamp, rfl⟩ := found.parts
  simp only [Does, Seen.swapMacs?, Buffers.swapMacs, found.shown.writable?]
  by_cases short : w.len < 2 * macLen
  · rw [if_pos short, if_pos short]
    exact ⟨rfl, found.stays⟩
  · rw [if_neg short, if_neg short]
    have long : 2 * macLen ≤ w.len := Nat.le_of_not_lt short
    have inside := w.inside
    have front : b.bytes packet w.headroom (2 * macLen) = w.data.take (2 * macLen) := by
      rw [found.shown.bytes (Nat.le_trans (Nat.add_le_add_left long _) inside), Window.data, Window.read,
        Window.read, List.take_take, Nat.min_eq_left long]
    have size : (exchangeMacs (w.data.take (2 * macLen))).length = 2 * macLen := by
      rw [length_exchangeMacs, List.length_take, Window.length_data, Nat.min_eq_left long]
    obtain ⟨w', room, start, same, now⟩ := found.write 0 (exchangeMacs (w.data.take (2 * macLen))) (by
      rw [size, Nat.zero_add]
      exact long)
    rw [size, Nat.zero_add, List.take_zero, List.nil_append, exchangeMacs_take] at now
    rw [front]
    exact ⟨rfl, ⟨[.write 0 (exchangeMacs (w.data.take (2 * macLen)))], same.symm⟩, w', room, start, now⟩

end Finds

/-- Reshaped packets may be reshaped further. -/
theorem Reshapes.trans {last : Buffers} {seen' : Seen} (first : b.Reshapes packet w after seen)
    (second : ∀ w', w'.room = w.room → w'.front = w.front → after.Finds packet w' seen →
      after.Reshapes packet w' last seen') : b.Reshapes packet w last seen' := by
  -- The edits follow each other, and the room and front are kept through both.
  obtain ⟨⟨edits, rfl⟩, w', room, front, found⟩ := first
  obtain ⟨⟨more, rfl⟩, w'', room', front', now⟩ := second w' room front found
  refine ⟨⟨edits ++ more, ?_⟩, w'', room'.trans room, front'.trans front, now⟩
  rw [performAll, performAll, performAll, List.foldl_append]

end Buffers

section Actions

variable {packet : Packet} {w : Window} {seen : Seen} {s : Surroundings}

/-- An edit that keeps a packet when it is accepted does so exactly when the change is possible. -/
theorem kept_answers {edit : Bool × Buffers} {changed : Option Seen}
    (does : s.buffers.Does packet w seen edit changed) :
    (s.kept edit).1 = (seen.kept changed).1 ∧
      s.buffers.Reshapes packet w (s.kept edit).2.buffers (seen.kept changed).2 := by
  -- Kept or dropped by whether the edit was accepted.
  obtain ⟨accepted, reshapes⟩ := does
  refine ⟨?_, reshapes⟩
  rw [Surroundings.kept, Seen.kept, accepted]

/-- A packet whose origin was replaced is kept. -/
theorem named_answers (found : s.buffers.Finds packet w seen) {change : Slot → Slot} (edit : Edit)
    (named : Seen) (performed : (s.buffers.editUnit packet fun _ s => s.exclusive?.map change).2 =
      s.buffers.perform packet edit)
    (window : ∀ s : Slot, (change s).refcount = s.refcount ∧ (change s).headroom = s.headroom ∧
      (change s).len = s.len)
    (origin : ∀ s : Slot, s.port = seen.port → s.timestamp = seen.timestamp →
      named = { seen with port := (change s).port, timestamp := (change s).timestamp }) :
    let kept := s.kept (s.buffers.editUnit packet fun _ s => s.exclusive?.map change)
    kept.1 = .forward ∧ s.buffers.Reshapes packet w kept.2.buffers named := by
  -- A renaming is accepted whenever nobody shares the packet.
  obtain ⟨accepted, now⟩ := found.named window origin
  refine ⟨?_, ⟨[edit], performed⟩, w, rfl, rfl, now⟩
  rw [Surroundings.kept, accepted, if_pos rfl]

/-- An action makes of a packet that nobody shares what it looks like, and takes its time. -/
theorem Action.perform_answers (action : Action) (context : Context) (nth : Nat)
    (found : s.buffers.Finds packet w seen) :
    let done := action.perform context packet nth s
    let answer := action.answer context nth w.room seen
    done.1 = answer.1 ∧ s.buffers.Reshapes packet w done.2.buffers answer.2 ∧
      done.2.clocks = action.tick context s.clocks := by
  -- By action. Those that do not touch the packet leave it found, those that edit it do by the lemma
  -- of their edit.
  obtain ⟨data, len⟩ := found.measures
  cases action with
  | advance cycles => exact ⟨rfl, found.stays, rfl⟩
  | log => exact ⟨rfl, found.stays, rfl⟩
  | stopAfter count =>
    rw [perform]
    split <;> exact ⟨rfl, found.stays, rfl⟩
  | crashAt count => exact ⟨rfl, found.stays, rfl⟩
  | drop => exact ⟨rfl, found.stays, rfl⟩
  | dropEvery count => exact ⟨rfl, found.stays, rfl⟩
  | even =>
    refine ⟨?_, found.stays, rfl⟩
    rw [perform, data]
    rfl
  | minLen count =>
    refine ⟨?_, found.stays, rfl⟩
    rw [perform, len]
    rfl
  -- From here on the packet is edited.
  | set byte =>
    obtain ⟨verdict, reshapes⟩ := kept_answers (found.setFirst byte)
    exact ⟨verdict, reshapes, rfl⟩
  | prepend bytes =>
    obtain ⟨verdict, reshapes⟩ := kept_answers (found.prepend bytes)
    exact ⟨verdict, reshapes, rfl⟩
  | append bytes =>
    obtain ⟨verdict, reshapes⟩ := kept_answers (found.append bytes)
    exact ⟨verdict, reshapes, rfl⟩
  | pull count =>
    obtain ⟨verdict, reshapes⟩ := kept_answers (found.pull count)
    exact ⟨verdict, reshapes, rfl⟩
  | trim count =>
    obtain ⟨verdict, reshapes⟩ := kept_answers (found.trim count)
    exact ⟨verdict, reshapes, rfl⟩
  | stamp =>
    obtain ⟨verdict, reshapes⟩ := named_answers found (.setTimestamp context.now)
      { seen with timestamp := context.now } rfl (fun _ => ⟨rfl, rfl, rfl⟩) fun s port _ => by rw [← port]
    exact ⟨verdict, reshapes, rfl⟩
  | port number =>
    obtain ⟨verdict, reshapes⟩ := named_answers found (.setPort number) { seen with port := number } rfl
      (fun _ => ⟨rfl, rfl, rfl⟩) fun s _ timestamp => by rw [← timestamp]
    exact ⟨verdict, reshapes, rfl⟩
  | swapMacs =>
    obtain ⟨verdict, reshapes⟩ := kept_answers found.swapMacs
    exact ⟨verdict, reshapes, rfl⟩

/-- Actions carried out in turn make of a packet that nobody shares what it looks like. -/
theorem performAll_answers (actions : List Action) (context : Context) (nth : Nat)
    (found : s.buffers.Finds packet w seen) :
    let done := performAll context packet nth s actions
    let answer := answerAll context nth w.room seen s.clocks actions
    done.1 = answer.1 ∧ s.buffers.Reshapes packet w done.2.buffers answer.2.1 ∧
      done.2.clocks = answer.2.2 := by
  -- Each action finds the packet as the one before left it, in a room of the same size.
  induction actions generalizing s w seen with
  | nil => exact ⟨rfl, found.stays, rfl⟩
  | cons action rest ih =>
    obtain ⟨verdict, reshapes, clocks⟩ := action.perform_answers context nth found
    simp only [performAll, answerAll]
    generalize action.perform context packet nth s = done at verdict reshapes clocks ⊢
    generalize action.answer context nth w.room seen = answer at verdict reshapes ⊢
    obtain ⟨decided, after⟩ := done
    obtain ⟨other, seen'⟩ := answer
    obtain rfl : decided = other := verdict
    cases decided with
    | forward =>
      obtain ⟨w', room, front, now⟩ := reshapes.found
      obtain ⟨last, -, time⟩ := ih now
      rw [room, clocks] at last time
      refine ⟨last, reshapes.trans fun w'' room' _ now' => ?_, time⟩
      obtain ⟨-, more, -⟩ := ih now'
      rwa [room', clocks] at more
    | drop => exact ⟨rfl, reshapes, clocks⟩
    | crash => exact ⟨rfl, reshapes, clocks⟩

end Actions

/-- Scripted processors go by the packet under work alone, whatever the script. -/
theorem scripted_insular (actions : List Action) : (scripted actions).Insular := by
  constructor
  · intro context packet memory s fits alone
    obtain ⟨w, shown⟩ := Buffers.shows_of_alone fits alone
    obtain ⟨seen, found⟩ := shown.finds
    exact (performAll_answers actions context (memory + 1) found).2.1.edited
  · intro context memory packet twin s t fits fits' alone alone' clocks look
    obtain ⟨w, shown⟩ := Buffers.shows_of_alone fits alone
    obtain ⟨w', shown'⟩ := Buffers.shows_of_alone fits' alone'
    obtain ⟨seen, found⟩ := shown.finds
    obtain ⟨seen', found'⟩ := shown'.finds
    -- Packets that look the same lie in rooms of the same kind.
    rw [found.look, found'.look, Look.mk.injEq, Option.some.injEq, Option.some.injEq,
      Prod.mk.injEq] at look
    obtain ⟨rfl, room, front⟩ := look
    obtain ⟨verdict, reshapes, time⟩ := performAll_answers actions context (memory + 1) found
    obtain ⟨verdict', reshapes', time'⟩ := performAll_answers actions context (memory + 1) found'
    rw [room, clocks] at verdict' reshapes' time'
    obtain ⟨v, roomy, fronted, now⟩ := reshapes.found
    obtain ⟨v', roomy', fronted', now'⟩ := reshapes'.found
    refine ⟨verdict'.trans verdict.symm, rfl, time'.trans time.symm, ?_⟩
    have same := now.look
    have same' := now'.look
    rw [roomy, fronted] at same
    rw [roomy', fronted', room, front] at same'
    exact same'.trans same.symm

end PacketPlane
