import PacketPlane.Proofs.Buffer.Isolation

/-! Rooms: whatever is done with its buffers, a pool keeps the data room and the headroom of the
settings that it was made of. -/

namespace PacketPlane

namespace Pool

/-- The data room of a pool's buffers, and the headroom of an emptied packet in it. -/
def rooms (p : Pool) : Nat × UInt16 :=
  (p.dataRoom, p.headroom)

variable {p q : Pool} {index : Nat}

/-- A later state of a pool has the same rooms, whatever shows in it. -/
theorem Touches.rooms {touched : List Nat} (touches : p.Touches q touched) : q.rooms = p.rooms := by
  -- A pool keeps its data room and its headroom, whatever is touched.
  rw [Pool.rooms, Pool.rooms, touches.dataRoom, touches.headroom]

/-- A slot that is changed has the same room. -/
theorem rooms_edit {α : Type} {change : Slot → Option (α × Slot)} {result : α}
    (changed : p.edit index change = some (result, q)) : q.rooms = p.rooms := by
  -- A pool is changed in one slot, if at all.
  rw [edit] at changed
  split at changed
  · cases changed
  · split at changed
    · cases changed
    · cases changed
      rfl

/-- A slot that is changed without a result has the same room. -/
theorem rooms_editUnit (p : Pool) (index : Nat) (change : Slot → Option Slot) :
    (p.editUnit index change).2.rooms = p.rooms := by
  -- Both without and with a change, the pool keeps what it says about rooms.
  rw [editUnit]
  split
  · rfl
  · rename_i changed
    exact rooms_edit changed

/-- A packet that is replaced has the same room. -/
theorem rooms_copy (p : Pool) (index : Nat) (bytes : List UInt8) :
    (p.copy index bytes).2.rooms = p.rooms := by
  -- The slot is emptied first and grown after that, and neither step is about the whole pool.
  have emptied := p.rooms_editUnit index (Slot.reset? p.headroom)
  rw [copy]
  split
  · rename_i refused
    rwa [refused] at emptied
  · rename_i accepted
    rw [accepted] at emptied
    split
    · exact emptied
    · rename_i grown
      exact (rooms_edit grown).trans emptied

/-- A pool has the rooms of the settings that it was made of, and these are without fault. -/
theorem rooms_make {name : String} {s : PoolSettings}
    {reserve : Nat → Option UInt32 → Except Fault Region} (made : make name s reserve = .ok p) :
    s.fault? = none ∧ p.rooms = (s.dataRoom.toNat, UInt16.ofNat s.headroom.toNat) := by
  -- Every check that refuses the settings or the memory is passed by a pool that was made.
  unfold make at made
  split at made
  · cases made
  · rename_i fine
    dsimp only at made
    split at made
    · cases made
    · split at made
      · cases made
      · split at made
        · cases made
        · cases made
          exact ⟨fine, rfl⟩

end Pool

/-- Settings without fault have a room that is counted in 16 bits, and a headroom inside of it. -/
theorem PoolSettings.rooms_of_fine {s : PoolSettings} (fine : s.fault? = none) :
    s.dataRoom.toNat < UInt16.size ∧ s.headroom.toNat < s.dataRoom.toNat := by
  -- What is asked for here are two of the checks that the settings have passed.
  have size : UInt16.size = 65536 := rfl
  rw [PoolSettings.fault?] at fine
  split at fine
  · cases fine
  · split at fine
    · cases fine
    · rename_i room
      split at fine
      · cases fine
      · rename_i front
        rw [ge_iff_le, UInt64.le_iff_toNat_le] at front
        omega

namespace Buffers

/-- The rooms of all pools. -/
def rooms (b : Buffers) : Array (Nat × UInt16) :=
  b.pools.map Pool.rooms

variable {b after : Buffers} {k : Nat} {p q : Pool} {packet : Packet}

/-- A pool put in place of one with the same rooms changes no rooms. -/
theorem rooms_setPool (found : b.pools[k]? = some p) (same : q.rooms = p.rooms) :
    (b.setPool k q).rooms = b.rooms := by
  -- Pool by pool, and only the one in question is another.
  apply Array.ext_getElem?
  intro i
  rw [rooms, rooms, Array.getElem?_map, Array.getElem?_map, pools_setPool found]
  split
  · rename_i here
    rw [here, found, Option.map_some, Option.map_some, same]
  · rfl

/-- A pool that is changed without regard to its rooms keeps them. -/
theorem rooms_modifyPool (b : Buffers) (k : Nat) {change : Pool → Pool}
    (same : ∀ p : Pool, (change p).rooms = p.rooms) : (b.modifyPool k change).rooms = b.rooms := by
  -- A pool that does not exist cannot be changed.
  cases found : b.pools[k]? with
  | none => rw [modifyPool_none found]
  | some p => rw [modifyPool_eq found, rooms_setPool found (same p)]

/-- Sharing a packet changes no rooms. -/
theorem rooms_addRef (b : Buffers) (packet : Packet) : (b.addRef packet).rooms = b.rooms :=
  b.rooms_modifyPool packet.pool fun p => (p.addRef_touches packet.index).rooms

/-- Giving a packet back changes no rooms. -/
theorem rooms_release (b : Buffers) (packet : Packet) : (b.release packet).rooms = b.rooms :=
  b.rooms_modifyPool packet.pool fun p => (p.release_touches packet.index).rooms

/-- Giving packets back one by one changes no rooms. -/
theorem rooms_freeEach (pool : Nat) (recycled : List Nat) (foreign : Option Nat) (b : Buffers)
    (packets : List Packet) : (freeEach pool recycled foreign b packets).2.2.rooms = b.rooms := by
  -- By induction on the packets: each is released, or noted as foreign, or counted in its pool.
  induction packets generalizing b recycled foreign with
  | nil => rfl
  | cons packet rest ih =>
    rw [freeEach]
    split
    · rw [ih, rooms_release]
    · split
      · exact ih _ _ _
      · rename_i p found
        have counted := p.unref_touches packet.index
        split
        · rename_i q told
          rw [told] at counted
          rw [ih]
          exact rooms_setPool found (counted.trans (q.retire_touches packet.index)).rooms
        · rename_i q told
          rw [told] at counted
          rw [ih]
          exact rooms_setPool found counted.rooms

/-- Giving packets back in bulk changes no rooms. -/
theorem rooms_freeBulk (b : Buffers) (pool : Nat) (packets : List Packet) :
    (b.freeBulk pool packets).2.rooms = b.rooms := by
  have each := rooms_freeEach pool [] none b packets
  simp only [freeBulk]
  -- Whether a packet was foreign or not, the recycled slots go to the free ring.
  split <;>
  · refine (rooms_modifyPool _ _ fun p => ?_).trans each
    split <;> rfl

/-- A packet that is handed out changes no rooms. -/
theorem rooms_alloc (handed : b.alloc k = .ok (packet, after)) : after.rooms = b.rooms := by
  -- A pool that hands a packet out touches none, and so keeps its rooms.
  unfold alloc tryPool at handed
  cases found : b.pools[k]? with
  | none => simp [found] at handed
  | some p =>
    cases taken : p.alloc with
    | error fault => simp [found, taken] at handed
    | ok outcome =>
      simp only [found, taken, Except.ok.injEq, Prod.mk.injEq] at handed
      obtain ⟨rfl, rfl⟩ := handed
      exact rooms_setPool found (Pool.alloc_touches taken).rooms

/-- Packets that are handed out together change no rooms. -/
theorem rooms_allocBulk {count : Nat} {packets : List Packet}
    (handed : b.allocBulk k count = .ok (packets, after)) : after.rooms = b.rooms := by
  -- A pool that hands packets out touches none, and so keeps its rooms.
  unfold allocBulk tryPool at handed
  cases found : b.pools[k]? with
  | none => simp [found] at handed
  | some p =>
    cases taken : p.allocBulk count with
    | error fault => simp [found, taken] at handed
    | ok outcome =>
      simp only [found, taken, Except.ok.injEq, Prod.mk.injEq] at handed
      obtain ⟨rfl, rfl⟩ := handed
      exact rooms_setPool found (Pool.allocBulk_touches taken).rooms

/-- A packet that is changed changes no rooms. -/
theorem rooms_edit {α : Type} {change : Pool → Slot → Option (α × Slot)} {result : α}
    (changed : b.edit packet change = some (result, after)) : after.rooms = b.rooms := by
  -- Both the pool and its slot are found, and then the pool is replaced by one with the same rooms.
  rw [edit] at changed
  split at changed
  · cases changed
  · rename_i found
    split at changed
    · cases changed
    · rename_i done
      cases changed
      exact rooms_setPool found (Pool.rooms_edit done)

/-- A packet that is changed, if it is, changes no rooms. -/
theorem rooms_edited (b : Buffers) (packet : Packet)
    (change : Pool → Slot → Option (Nat × Slot)) :
    (((b.edit packet change).map (·.2)).getD b).rooms = b.rooms := by
  -- If the edit is refused, the buffers are those from before.
  cases changed : b.edit packet change with
  | none => rfl
  | some outcome => exact rooms_edit changed

/-- A packet that is changed without a result changes no rooms. -/
theorem rooms_editUnit (b : Buffers) (packet : Packet) (change : Pool → Slot → Option Slot) :
    (b.editUnit packet change).2.rooms = b.rooms := by
  -- If the edit is refused, the buffers are those from before.
  rw [editUnit]
  split
  · rfl
  · rename_i changed
    exact rooms_edit changed

/-- Whatever is done to a packet changes no rooms. -/
theorem rooms_perform (b : Buffers) (packet : Packet) (edit : Edit) :
    (b.perform packet edit).rooms = b.rooms := by
  -- By cases on the edit, each of which changes one slot of one pool.
  cases edit with
  | prepend count => exact b.rooms_edited packet _
  | append count => exact b.rooms_edited packet _
  | pull count => exact b.rooms_edited packet _
  | trim count => exact b.rooms_editUnit packet _
  | reset => exact b.rooms_editUnit packet _
  | setPort port => exact b.rooms_editUnit packet _
  | setTimestamp timestamp => exact b.rooms_editUnit packet _
  | copy bytes =>
    simp only [perform, copy]
    cases found : b.pools[packet.pool]? with
    | none => rfl
    | some p => exact rooms_setPool found (p.rooms_copy packet.index bytes)
  | write offset bytes =>
    simp only [perform]
    cases b.writable? packet with
    | none => rfl
    | some window => exact b.rooms_modifyPool packet.pool fun p => rfl

end Buffers

namespace Ledger

/-- A call makes pools with the rooms of settings without fault, and changes no others. -/
theorem rooms_call (l : Ledger) (c : PoolCall) {room : Nat × UInt16}
    (listed : room ∈ (l.call c).buffers.rooms) :
    room ∈ l.buffers.rooms ∨ ∃ s : PoolSettings, s.fault? = none ∧
      room = (s.dataRoom.toNat, UInt16.ofNat s.headroom.toNat) := by
  -- By cases on the call: only making a pool adds a room, and its settings were accepted.
  cases c with
  | make name settings reserve =>
    simp only [Ledger.call] at listed
    cases made : Pool.make name settings reserve with
    | error fault =>
      rw [made] at listed
      exact .inl listed
    | ok p =>
      obtain ⟨fine, rooms⟩ := Pool.rooms_make made
      simp only [made, Buffers.rooms, Buffers.addPool, Array.map_push, Array.mem_push] at listed
      -- rfl := listed | The new pool comes last among the rooms.
      obtain older | rfl := listed
      · exact .inl older
      · exact .inr ⟨settings, fine, rooms⟩
  | alloc pool =>
    left
    simp only [Ledger.call] at listed
    cases handed : l.buffers.alloc pool with
    | error fault => rwa [handed] at listed
    | ok outcome =>
      rw [handed] at listed
      exact Buffers.rooms_alloc handed ▸ listed
  | allocBulk pool count =>
    left
    simp only [Ledger.call] at listed
    cases handed : l.buffers.allocBulk pool count with
    | error fault => rwa [handed] at listed
    | ok outcome =>
      rw [handed] at listed
      exact Buffers.rooms_allocBulk handed ▸ listed
  | free pool packet => exact .inl (l.buffers.rooms_release packet ▸ listed)
  | drop packet => exact .inl (l.buffers.rooms_release packet ▸ listed)
  | freeBulk pool packets => exact .inl (l.buffers.rooms_freeBulk pool packets ▸ listed)
  | clone packet => exact .inl (l.buffers.rooms_addRef packet ▸ listed)
  | intoRaw packet => exact .inl listed
  | ofRaw handle =>
    left
    simp only [Ledger.call] at listed
    cases redeemed : l.buffers.ofRaw handle.pool handle.raw <;> rwa [redeemed] at listed
  | freeRaw handle =>
    left
    simp only [Ledger.call] at listed
    cases freed : l.buffers.freeRaw handle.pool handle.raw with
    | error fault => rwa [freed] at listed
    | ok after =>
      -- A handle that was accepted is released like a packet.
      obtain rfl := freeRaw_eq freed
      rw [freed] at listed
      exact l.buffers.rooms_release handle.packet ▸ listed
  | edit packet edit => exact .inl (l.buffers.rooms_perform packet edit ▸ listed)

/-- Whatever calls were made, every pool has the rooms of some settings without fault. -/
theorem Reachable.rooms {l : Ledger} (run : l.Reachable) {k : Nat} {p : Pool}
    (found : l.buffers.pools[k]? = some p) :
    ∃ s : PoolSettings, s.fault? = none ∧ p.dataRoom = s.dataRoom.toNat ∧
      p.headroom.toNat = s.headroom.toNat := by
  -- There is no pool at the start, and each call adds at most one.
  have every : ∀ room ∈ l.buffers.rooms, ∃ s : PoolSettings, s.fault? = none ∧
      room = (s.dataRoom.toNat, UInt16.ofNat s.headroom.toNat) := by
    clear found
    induction run with
    | start =>
      intro room listed
      simp [Buffers.rooms] at listed
    | call run c _ ih =>
      intro room listed
      obtain older | fresh := rooms_call _ c listed
      · exact ih room older
      · exact fresh
  have listed : p.rooms ∈ l.buffers.rooms :=
    Array.mem_map_of_mem (Array.mem_of_getElem? found)
  obtain ⟨s, fine, same⟩ := every p.rooms listed
  obtain ⟨small, front⟩ := PoolSettings.rooms_of_fine fine
  rw [Pool.rooms, Prod.mk.injEq] at same
  refine ⟨s, fine, same.1, ?_⟩
  rw [same.2, UInt16.toNat_ofNat_of_lt' (by omega)]

end Ledger

end PacketPlane
