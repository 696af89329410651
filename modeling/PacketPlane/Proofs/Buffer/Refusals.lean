import PacketPlane.Proofs.Buffer.Windowed

/-! Refusals: an edit of a packet that is refused changes nothing, unless bytes that do not fit were
to be copied into the packet, which is empty from then on. -/

namespace PacketPlane

/-- A packet as it is seen after it was emptied: without bytes, from no port and at no time. -/
def Seen.blank (headroom : UInt16) : Seen :=
  ⟨[], 0, headroom.toNat, noPort, 0⟩

namespace Buffers

variable {b : Buffers} {packet : Packet} {p : Pool} {s t : Slot} {w : Window}

/-- A change without a result that is refused leaves all buffers as they were. -/
theorem editUnit_refused {change : Pool → Slot → Option Slot}
    (refused : (b.editUnit packet change).1 ≠ true) : (b.editUnit packet change).2 = b := by
  -- The buffers are replaced only together with an answer that the change was made.
  rw [editUnit] at refused ⊢
  split
  · rfl
  · rename_i changed
    simp [changed] at refused

/-- An answer that lends no bytes tells by itself whether an edit was accepted. -/
theorem not_accepted {accepted : Bool}
    (refused : (if accepted then some ([] : List UInt8) else none) = none) : accepted ≠ true := by
  cases accepted <;> simp at refused ⊢

/-- A refused edit that copies no bytes leaves all buffers as they were. -/
theorem perform_refused {edit : Edit} (refused : b.reply packet edit = none)
    (other : ∀ bytes, edit ≠ .copy bytes) : b.perform packet edit = b := by
  -- By cases on the edit: all but copying answer and change the buffers in one step.
  cases edit with
  | prepend count =>
    rw [perform, Option.map_eq_none_iff.mp refused, Option.map_none, Option.getD_none]
  | append count =>
    rw [perform, Option.map_eq_none_iff.mp refused, Option.map_none, Option.getD_none]
  | pull count =>
    rw [perform, Option.map_eq_none_iff.mp refused, Option.map_none, Option.getD_none]
  | trim count => exact editUnit_refused (not_accepted refused)
  | reset => exact editUnit_refused (not_accepted refused)
  | setPort port => exact editUnit_refused (not_accepted refused)
  | setTimestamp timestamp => exact editUnit_refused (not_accepted refused)
  | copy bytes => exact absurd rfl (other bytes)
  | write offset bytes => simp only [perform, Option.map_eq_none_iff.mp refused]

/-- Bytes that do not fit into a packet that nobody shares empty it. -/
theorem copy_refused (found : b.pools[packet.pool]? = some p) (shown : p.Shows packet.index s w)
    {bytes : List UInt8} (refused : b.reply packet (.copy bytes) = none) :
    p.dataRoom < p.headroom.toNat + bytes.length ∧
      b.perform packet (.copy bytes) =
        b.setPool packet.pool (p.setSlot packet.index (s.cleared p.headroom)) := by
  -- Of the two ways that copying ends, only the one that stops after emptying the slot is refused.
  have copied : b.copy packet bytes =
      ((p.copy packet.index bytes).1, b.setPool packet.pool (p.copy packet.index bytes).2) := by
    simp only [copy, found]
    rfl
  have refused := not_accepted refused
  rw [copied] at refused
  obtain ⟨wide, emptied⟩ | ⟨-, accepted, -⟩ := shown.copy bytes
  · rw [← shown.room, shown.front, perform, copied, emptied]
    exact ⟨Nat.lt_of_not_le wide, rfl⟩
  · exact absurd accepted refused

/-- A packet is seen as its slot says. -/
theorem seen?_found (found : b.pools[packet.pool]? = some p)
    (there : p.slots[packet.index]? = some s) :
    b.seen? packet =
      some ⟨p.bytes packet.index s.headroom s.len, s.len, s.headroom, s.port, s.timestamp⟩ := by
  -- Everything that is seen of a packet is read off its slot and its pool.
  simp [seen?, slot?, data, found, there]

/-- A packet that was emptied is seen so. -/
theorem seen?_cleared (found : b.pools[packet.pool]? = some p)
    (there : p.slots[packet.index]? = some s) :
    (b.setPool packet.pool (p.setSlot packet.index (s.cleared p.headroom))).seen? packet =
      some (Seen.blank p.headroom) := by
  -- The emptied slot is the one that is found at the packet's place afterwards.
  have found' : (b.setPool packet.pool (p.setSlot packet.index (s.cleared p.headroom))).pools[
      packet.pool]? = some (p.setSlot packet.index (s.cleared p.headroom)) := by
    rw [pools_setPool found, if_pos rfl]
  exact seen?_found found' (Pool.slots_setSlot there _)

/-- Emptying a packet changes nothing exactly when it is seen as an empty one already. -/
theorem cleared_eq_iff (found : b.pools[packet.pool]? = some p)
    (there : p.slots[packet.index]? = some s) :
    b.setPool packet.pool (p.setSlot packet.index (s.cleared p.headroom)) = b ↔
      b.seen? packet = some (Seen.blank p.headroom) := by
  constructor
  · intro same
    have seen := seen?_cleared found there
    rwa [same] at seen
  · -- What is seen of a slot is all that emptying its packet sets.
    intro seen
    rw [seen?_found found there, Option.some.injEq, Seen.blank, Seen.mk.injEq] at seen
    obtain ⟨-, len, headroom, port, timestamp⟩ := seen
    have nothing : s.dataLen = 0 := UInt16.toNat_inj.mp len
    have same : s.cleared p.headroom = s := by
      rw [Slot.cleared, ← port, ← timestamp, ← UInt16.toNat_inj.mp headroom, ← nothing]
    rw [same, Pool.setSlot_self there, setPool_self found]

end Buffers

namespace Ledger

variable {l : Ledger} {packet : Packet} {edit : Edit}

/-- Whatever pools were made and whatever permitted calls followed: an edit of a packet that is
refused leaves all buffers as they were, if it copies no bytes or the packet is shared. Bytes that
do not fit into a packet with a single live reference are refused as well, but leave it emptied,
which changes nothing only if it was seen as an empty packet before. -/
theorem refused_edit (run : l.Reachable) (refused : l.buffers.reply packet edit = none) :
    ((∀ bytes, edit ≠ .copy bytes) ∨ l.references packet ≠ 1 →
      l.buffers.perform packet edit = l.buffers) ∧
    ∀ bytes, edit = .copy bytes → l.references packet = 1 → ∃ p s,
      l.buffers.pools[packet.pool]? = some p ∧ p.slots[packet.index]? = some s ∧
      p.dataRoom < p.headroom.toNat + bytes.length ∧
      l.buffers.perform packet edit =
        l.buffers.setPool packet.pool (p.setSlot packet.index (s.cleared p.headroom)) ∧
      (l.buffers.perform packet edit).seen? packet = some (Seen.blank p.headroom) ∧
      (l.buffers.perform packet edit = l.buffers ↔
        l.buffers.seen? packet = some (Seen.blank p.headroom)) := by
  -- A packet that is not held once refuses before it is touched, and only copying empties one that
  -- is.
  constructor
  · rintro (other | shared)
    · exact Buffers.perform_refused refused other
    · apply Buffers.perform_shared
      rwa [run.sound.counted]
  · rintro bytes rfl alone
    obtain ⟨w, p, s, found, shown⟩ := run.shows alone
    obtain ⟨wide, emptied⟩ := Buffers.copy_refused found shown refused
    rw [emptied]
    exact ⟨p, s, found, shown.found, wide, rfl, Buffers.seen?_cleared found shown.found,
      Buffers.cleared_eq_iff found shown.found⟩

/-- A packet of one byte, and more bytes than its data room has behind the headroom. -/
theorem exists_overfull :
    ∃ l : Ledger, l.Reachable ∧ ⟨0, 0⟩ ∈ l.packets ∧ l.references ⟨0, 0⟩ = 1 ∧
      l.buffers.data ⟨0, 0⟩ = [7] ∧
      l.buffers.reply ⟨0, 0⟩ (.copy (List.replicate 2048 0)) = none := by
  obtain ⟨p, q, made, handed, run⟩ := exists_lone_packet
  have rooms := (Pool.alloc_touches handed).rooms.trans (Pool.rooms_make made).2
  have filled := run.call (.edit ⟨0, 0⟩ (.copy [7])) List.mem_cons_self
  obtain ⟨w, shown⟩ : ∃ w, Buffers.Shows _ ⟨0, 0⟩ w := run.shows rfl
  have sizes : w.room = 2048 ∧ w.front = 128 := by
    obtain ⟨r, s, found, there⟩ := shown
    obtain rfl : q = r := Option.some.inj found
    rw [Pool.rooms, Prod.mk.injEq] at rooms
    rw [there.room, ← there.front, rooms.1, rooms.2]
    exact ⟨rfl, rfl⟩
  have fits : w.front + [(7 : UInt8)].length ≤ w.room := by
    rw [sizes.1, sizes.2]
    decide
  refine ⟨_, filled, List.mem_cons_self, rfl, shown.data_copy fits, ?_⟩
  -- Filling the packet has not changed its room.
  obtain ⟨room, front⟩ := w.edit_room (.copy [7])
  refine ((shown.step (.copy [7])).2.windowed.copy _).trans (if_neg ?_)
  rw [room, front, sizes.1, sizes.2, List.length_replicate]
  decide

/-- More bytes than fit are refused by a packet of one byte, which they empty. -/
theorem refused_edit_overfull :
    ∃ l : Ledger, l.Reachable ∧ l.buffers.data ⟨0, 0⟩ = [7] ∧
      l.buffers.reply ⟨0, 0⟩ (.copy (List.replicate 2048 0)) = none ∧
      ∃ p : Pool, (l.buffers.perform ⟨0, 0⟩ (.copy (List.replicate 2048 0))).seen? ⟨0, 0⟩ =
        some (Seen.blank p.headroom) := by
  -- The packet of one byte is held once, so the second half of the theorem is about it.
  obtain ⟨l, run, -, alone, data, refused⟩ := exists_overfull
  obtain ⟨-, emptied⟩ := refused_edit run refused
  obtain ⟨p, s, -, -, -, -, seen, -⟩ := emptied _ rfl alone
  exact ⟨l, run, data, refused, p, seen⟩

/-- A packet of one byte is empty after more bytes than fit were refused by it. -/
theorem overfull_loses_packet :
    ∃ l : Ledger, l.Reachable ∧ ⟨0, 0⟩ ∈ l.packets ∧
      l.buffers.reply ⟨0, 0⟩ (.copy (List.replicate 2048 0)) = none ∧
      l.buffers.data ⟨0, 0⟩ = [7] ∧
      (l.buffers.perform ⟨0, 0⟩ (.copy (List.replicate 2048 0))).data ⟨0, 0⟩ = [] := by
  -- The window of the packet is followed, since it says what bytes are left after the refusal.
  obtain ⟨l, run, listed, alone, data, refused⟩ := exists_overfull
  obtain ⟨w, shown⟩ := run.shows alone
  obtain ⟨answer, after⟩ := shown.copy (List.replicate 2048 0)
  refine ⟨l, run, listed, refused, data, ?_⟩
  rw [refused, Window.edit] at answer
  rw [Window.edit] at after
  split at after
  · rename_i fits
    rw [dif_pos fits] at answer
    cases answer
  · exact after.data.trans w.data_emptied

end Ledger

end PacketPlane
