import PacketPlane.Buffer.Frame
import PacketPlane.Proofs.Buffer.Treatment

/-! Frames: what a packet shows once a frame was copied into it, and once its addresses were
exchanged. -/

namespace PacketPlane

/-- A frame keeps its length when its addresses are exchanged. -/
@[simp] theorem length_exchangeMacs (frame : List UInt8) :
    (exchangeMacs frame).length = frame.length := by
  -- The three parts that are put together are those that the frame was cut into.
  simp only [exchangeMacs, macLen, List.length_append, List.length_take, List.length_drop]
  omega

/-- The addresses of a frame are exchanged at its front, and the rest of it stays. -/
theorem exchangeMacs_take (frame : List UInt8) :
    exchangeMacs (frame.take (2 * macLen)) ++ frame.drop (2 * macLen) = exchangeMacs frame := by
  -- Neither address reaches beyond twelve bytes, and nothing of those twelve is left over.
  have first : (frame.take 12).take 6 = frame.take 6 := by
    rw [List.take_take]
    rfl
  have second : ((frame.take 12).drop 6).take 6 = (frame.drop 6).take 6 := by
    rw [List.drop_take, List.take_take]
    rfl
  have rest : (frame.take 12).drop 12 = [] := by
    rw [List.drop_take]
    rfl
  simp only [exchangeMacs, macLen, first, second, rest, List.append_nil]

namespace Pool

/-- As many bytes of a room are read as are asked for. -/
@[simp] theorem length_bytes (p : Pool) (index start count : Nat) :
    (p.bytes index start count).length = count :=
  -- One byte is read for each place.
  Region.length_read ..

/-- The front of a stretch of a room is read on its own. -/
theorem bytes_front (p : Pool) (index start : Nat) {count whole : Nat} (short : count ≤ whole) :
    p.bytes index start count = (p.bytes index start whole).take count := by
  -- A stretch that starts where the whole one does has nothing before it.
  have inside : 0 + count ≤ whole := (Nat.zero_add count).symm ▸ short
  have middle := p.region.read_middle (p.base index + start) 0 count whole inside
  rwa [Nat.add_zero, List.drop_zero] at middle

/-- Bytes stored at the front of a stretch of a room replace those there and leave the others. -/
theorem bytes_writeBytes (p : Pool) (index start : Nat) (bytes : List UInt8) {whole : Nat}
    (short : bytes.length ≤ whole) :
    (p.writeBytes index start bytes).bytes index start whole =
      bytes ++ (p.bytes index start whole).drop bytes.length := by
  -- Nothing of the stretch lies before its front.
  have inside : 0 + bytes.length ≤ whole := (Nat.zero_add bytes.length).symm ▸ short
  have stored := p.region.read_write_inside (p.base index + start) 0 bytes inside
  rwa [Nat.add_zero, Nat.zero_add, List.take_zero, List.nil_append] at stored

/-- A slot that bytes were copied into is the packet of these bytes, from no port and at no time. -/
theorem copy_ok {p q : Pool} {index : Nat} {bytes : List UInt8} (fits : p.Fits)
    (copied : p.copy index bytes = (true, q)) :
    ∃ t, q.slots[index]? = some t ∧ t.refcount = 1 ∧ t.port = noPort ∧ t.timestamp = 0 ∧
      q.bytes index t.headroom t.len = bytes := by
  -- The slot was cleared and grown by the bytes before they were stored in its window.
  rw [copy, editUnit, edit] at copied
  cases found : p.slots[index]? with
  | none => simp [found] at copied
  | some s =>
    simp only [found, Slot.reset?, Slot.exclusive?] at copied
    by_cases one : s.refcount = 1
    · have inside := (Array.getElem?_eq_some_iff.mp found).1
      have alone : (s.cleared p.headroom).refcount = 1 := one
      simp only [one, if_true, Option.map_some, Pool.edit, Array.getElem?_setIfInBounds, inside,
        Slot.append?, Slot.exclusive?, alone] at copied
      by_cases room : (s.cleared p.headroom).tailroom p.dataRoom < bytes.length
      · simp [room] at copied
      · have short : bytes.length ≤ p.dataRoom := by
          rw [Slot.tailroom] at room
          omega
        have small : (0 + UInt16.ofNat bytes.length).toNat = bytes.length := by
          have bound := fits.small
          rw [UInt16.zero_add, UInt16.toNat_ofNat_of_lt' (by omega)]
        simp only [room, if_false, Prod.mk.injEq, true_and] at copied
        subst copied
        refine ⟨{ s.cleared p.headroom with dataLen := 0 + UInt16.ofNat bytes.length }, ?_, one, rfl,
          rfl, ?_⟩
        · simp [Pool.writeBytes, inside, Slot.cleared, one]
        · show Pool.bytes _ index _ (0 + UInt16.ofNat bytes.length).toNat = bytes
          rw [small]
          refine (bytes_writeBytes _ index _ bytes (Nat.le_refl bytes.length)).trans ?_
          rw [List.drop_of_length_le (Nat.le_of_eq (length_bytes _ _ _ _)), List.append_nil]
    · simp [one] at copied

end Pool

namespace Buffers

variable {b after : Buffers} {packet : Packet}

/-- A packet that bytes were copied into is these bytes, from no port and at no time. -/
theorem capture_copy {bytes : List UInt8} (fits : b.Fits)
    (copied : b.copy packet bytes = (true, after)) :
    after.capture packet = ⟨noPort, 0, bytes⟩ ∧ after.refcount packet = 1 := by
  -- The pool is put back in its place, and what it has there is what was copied.
  rw [copy] at copied
  cases found : b.pools[packet.pool]? with
  | none => simp [found] at copied
  | some p =>
    obtain ⟨⟨accepted, q⟩, done⟩ : ∃ pair, p.copy packet.index bytes = pair := ⟨_, rfl⟩
    simp only [found, done, Prod.mk.injEq] at copied
    obtain ⟨rfl, rfl⟩ := copied
    obtain ⟨t, there, one, port, timestamp, data⟩ := Pool.copy_ok (fits packet.pool p found) done
    have inside := (Array.getElem?_eq_some_iff.mp found).1
    have here : (b.pools.setIfInBounds packet.pool q)[packet.pool]? = some q := by
      simp [inside]
    simp [capture, refcount, slot?, Buffers.data, here, there, port, timestamp, data, one]

/-- Naming the port of a packet that nobody else holds changes nothing else of it. -/
theorem capture_setPort (one : b.refcount packet = 1) (port : UInt16) :
    (b.setPort packet port).2.capture packet = { b.capture packet with port } := by
  -- The guard lets a slot that is held once through, and its window stays.
  cases found : b.pools[packet.pool]? with
  | none => simp [refcount, slot?, found] at one
  | some p =>
    cases there : p.slots[packet.index]? with
    | none => simp [refcount, slot?, found, there] at one
    | some s =>
      have alone : s.refcount = 1 := by
        simp only [refcount, slot?, found, there] at one
        exact UInt32.toNat_inj.mp one
      have outside := (Array.getElem?_eq_some_iff.mp found).1
      have inside := (Array.getElem?_eq_some_iff.mp there).1
      let q : Pool := { p with slots := p.slots.setIfInBounds packet.index { s with port } }
      have pool : (b.pools.setIfInBounds packet.pool q)[packet.pool]? = some q := by
        simp [outside]
      have slot : q.slots[packet.index]? = some { s with port } := by
        simp [q, inside]
      have named : (b.setPort packet port).2 = ⟨b.pools.setIfInBounds packet.pool q⟩ := by
        simp [setPort, editUnit, edit, Pool.edit, found, there, Slot.setPort?, Slot.exclusive?,
          alone, q]
      rw [named]
      simp only [capture, slot?, Buffers.data, found, there, pool, slot]
      rfl

/-- A packet whose addresses were exchanged is long enough for two, and nothing else of it changed. -/
theorem capture_swapMacs (swapped : b.swapMacs packet = (true, after)) :
    2 * macLen ≤ (b.capture packet).data.length ∧
      after.capture packet =
        { b.capture packet with data := exchangeMacs (b.capture packet).data } := by
  -- The window stays, and the first twelve bytes of it are stored again in another order.
  rw [swapMacs] at swapped
  cases writable : b.writable? packet with
  | none => simp [writable] at swapped
  | some window =>
    obtain ⟨start, len⟩ := window
    obtain ⟨p, s, found, there, -, rfl, rfl⟩ := writable?_eq_some writable
    simp only [writable] at swapped
    split at swapped
    · cases swapped
    · rename_i long
      rw [Nat.not_lt] at long
      simp only [Prod.mk.injEq, true_and] at swapped
      subst swapped
      -- Neither writing nor reading goes beyond the one pool.
      let addresses := p.bytes packet.index s.headroom (2 * macLen)
      let q := p.writeBytes packet.index s.headroom (exchangeMacs addresses)
      have before : b.capture packet =
          ⟨s.port, s.timestamp, p.bytes packet.index s.headroom s.len⟩ := by
        simp only [capture, slot?, Buffers.data, found, there]
      have exchanged : b.writeBytes packet s.headroom
          (exchangeMacs (b.bytes packet s.headroom (2 * macLen))) = b.setPool packet.pool q := by
        rw [writeBytes, modifyPool_eq found, bytes, found]
      have pool : (b.setPool packet.pool q).pools[packet.pool]? = some q := by
        rw [pools_setPool found, if_pos rfl]
      have slot : q.slots[packet.index]? = some s := by
        simp only [q, Pool.writeBytes, there]
      have after : (b.setPool packet.pool q).capture packet =
          ⟨s.port, s.timestamp, q.bytes packet.index s.headroom s.len⟩ := by
        simp only [capture, slot?, Buffers.data, pool, slot]
      -- The addresses are the front of the packet, and as long after the exchange.
      have whole : (p.bytes packet.index s.headroom s.len).length = s.len :=
        p.length_bytes ..
      have front : addresses = (p.bytes packet.index s.headroom s.len).take (2 * macLen) :=
        p.bytes_front packet.index s.headroom long
      have size : (exchangeMacs addresses).length = 2 * macLen := by
        rw [length_exchangeMacs, front, List.length_take, whole, Nat.min_eq_left long]
      have stored := p.bytes_writeBytes packet.index s.headroom (exchangeMacs addresses)
        (size ▸ long)
      rw [exchanged, after, before]
      constructor
      · show 2 * macLen ≤ (p.bytes packet.index s.headroom s.len).length
        rwa [whole]
      rw [Captured.mk.injEq]
      refine ⟨rfl, rfl, stored.trans ?_⟩
      rw [size, front]
      exact exchangeMacs_take _

end Buffers

end PacketPlane
