import PacketPlane.Proofs.Buffer.Faces

/-! Isolation: a shared buffer is frozen, and what is done to one buffer never shows in another. -/

namespace PacketPlane

/-- A pool made of settings without fault keeps its packets inside their rooms. -/
theorem Pool.fits_make {name : String} {s : PoolSettings}
    {reserve : Nat → Option UInt32 → Except Fault Region} {p : Pool}
    (made : make name s reserve = .ok p) : p.Fits := by
  -- The settings bound the room in 16 bits, and the headroom by the room.
  have aligned : s.dataRoom.toNat ≤ alignUp s.dataRoom.toNat := by
    rw [alignUp, cacheLine]
    omega
  have size : UInt16.size = 65536 := rfl
  unfold make at made
  split at made
  · cases made
  · rename_i fine
    rw [PoolSettings.fault?] at fine
    split at fine
    · cases fine
    · split at fine
      · cases fine
      · rename_i room
        split at fine
        · cases fine
        · rename_i front
          -- With both checks passed, no width cuts anything off.
          have front : s.headroom.toNat < s.dataRoom.toNat := by
            rw [ge_iff_le, UInt64.le_iff_toNat_le] at front
            omega
          have whole : (UInt16.ofNat s.headroom.toNat).toNat = s.headroom.toNat :=
            UInt16.toNat_ofNat_of_lt' (by omega)
          dsimp only at made
          split at made
          · cases made
          · split at made
            · cases made
            · split at made
              · cases made
              · cases made
                refine ⟨aligned, ?_, ?_, ?_⟩
                · show s.dataRoom.toNat < UInt16.size
                  omega
                · show (UInt16.ofNat s.headroom.toNat).toNat ≤ s.dataRoom.toNat
                  omega
                · -- Every slot starts with the same headroom and no bytes.
                  intro i t found
                  rw [Array.getElem?_replicate] at found
                  split at found
                  · cases found
                    show (UInt16.ofNat s.headroom.toNat).toNat + 0 ≤ s.dataRoom.toNat
                    omega
                  · cases found

/-- A slot shared and given back again is as it was. -/
theorem Pool.release_addRef {p : Pool} {index : Nat} (held : 0 < p.refcount index) :
    (p.addRef index).release index = p := by
  -- With one reference more, the one given back is not the last, so it only counts.
  obtain ⟨s, there, count⟩ := exists_of_refcount_pos held
  have several : s.refcount + 1 ≠ 1 := by
    intro one
    have zero : s.refcount = 0 := by grind
    rw [zero] at count
    simp only [UInt32.toNat_zero] at count
    omega
  have back : ((p.addRef index).unref index).2 = p := by
    have slots : (p.slots.modify index fun s => { s with refcount := s.refcount + 1 }).modify index
        (fun s => { s with refcount := s.refcount - 1 }) = p.slots := by
      apply Array.ext_getElem?
      intro i
      simp only [Array.getElem?_modify]
      split
      · rename_i here
        subst here
        simp [there]
      · rfl
    simp only [unref, addRef, modifySlot, slots]
  have notLast : ((p.addRef index).unref index).1 = false := by
    simp [unref, addRef, modifySlot, Array.getElem?_modify, there, several]
  rw [release, show (p.addRef index).unref index = (false, p) from Prod.ext notLast back]

/-- A packet as it is seen through any of its handles. -/
structure Seen where
  data : List UInt8
  len : Nat
  headroom : Nat
  port : UInt16
  timestamp : UInt64
deriving DecidableEq, Repr

/-- The packet that a face shows. -/
def Face.seen (f : Face) : Seen :=
  ⟨f.data, f.dataLen.toNat, f.dataOff.toNat, f.port, f.timestamp⟩

namespace Buffers

/-- What can be seen of a packet's buffer. -/
def face? (b : Buffers) (packet : Packet) : Option Face :=
  (b.pools[packet.pool]?).bind (·.face? packet.index)

/-- A packet as it is seen through any of its handles. -/
def seen? (b : Buffers) (packet : Packet) : Option Seen :=
  (b.slot? packet).map fun s => ⟨b.data packet, s.len, s.headroom, s.port, s.timestamp⟩

/-- Pools whose packets all lie inside their own data rooms. -/
def Fits (b : Buffers) : Prop :=
  ∀ (k : Nat) (p : Pool), b.pools[k]? = some p → p.Fits

/-- A later state of the buffers, in which at most the faces of some packets have changed. -/
structure Touches (before after : Buffers) (touched : List Packet) : Prop where
  fits : before.Fits → after.Fits
  faces : before.Fits → ∀ packet, packet ∉ touched → ∀ face,
    before.face? packet = some face → after.face? packet = some face

variable {b after : Buffers} {k : Nat} {p q : Pool} {packet : Packet} {face : Face}

/-- The bytes of a packet are those of the window of its face. -/
theorem data_eq (fits : b.Fits) (shown : b.face? packet = some face) :
    b.data packet = face.data := by
  -- The window lies inside the stride, from which the face was read.
  rw [face?, Option.bind_eq_some_iff] at shown
  obtain ⟨p, found, shown⟩ := shown
  rw [Pool.face?, Option.map_eq_some_iff] at shown
  obtain ⟨s, there, rfl⟩ := shown
  have inside := (fits packet.pool p found).windows packet.index s there
  have room := (fits packet.pool p found).room
  have middle := p.region.read_middle (p.base packet.index) s.headroom s.len p.stride (by omega)
  simp only [data, found, there]
  exact middle

/-- What a buffer shows to a recorder is its face. -/
theorem capture_eq (fits : b.Fits) (shown : b.face? packet = some face) :
    b.capture packet = face.captured := by
  -- The face has the origin of the slot and, in its window, the bytes.
  have bytes := data_eq fits shown
  rw [face?, Option.bind_eq_some_iff] at shown
  obtain ⟨p, found, shown⟩ := shown
  rw [Pool.face?, Option.map_eq_some_iff] at shown
  obtain ⟨s, there, rfl⟩ := shown
  simp only [capture, slot?, found, there, bytes, Face.captured]

/-- A packet whose face stays would be recorded the same. -/
theorem capture_congr (fits : b.Fits) (kept : after.Fits)
    (same : after.face? packet = b.face? packet) : after.capture packet = b.capture packet := by
  cases shown : b.face? packet with
  | some face => rw [capture_eq fits shown, capture_eq kept (same.trans shown)]
  | none =>
    -- What has no face has no slot either.
    have bare : ∀ c : Buffers, c.face? packet = none → c.slot? packet = none := by
      intro c none
      cases found : c.pools[packet.pool]? with
      | none => simp [slot?, found]
      | some p => simpa [face?, Pool.face?, slot?, found] using none
    rw [capture, capture, bare b shown, bare after (same.trans shown)]

/-- What is seen through a handle is what its buffer shows. -/
theorem seen?_eq (fits : b.Fits) (packet : Packet) :
    b.seen? packet = (b.face? packet).map Face.seen := by
  -- Both read the same slot, one of them with the bytes around the window.
  cases found : b.pools[packet.pool]? with
  | none => simp [seen?, slot?, face?, found]
  | some p =>
    cases there : p.slots[packet.index]? with
    | none => simp [seen?, slot?, face?, Pool.face?, found, there]
    | some s =>
      have shown : b.face? packet = some
          ⟨s.dataOff, s.dataLen, s.port, s.timestamp, p.bytes packet.index 0 p.stride⟩ := by
        simp [face?, Pool.face?, found, there]
      rw [shown, seen?, slot?, found, data_eq fits shown]
      simp only [there, Option.map_some, Face.seen]
      rfl

/-- A packet that something holds shows something. -/
theorem face?_of_refcount_pos (held : 0 < b.refcount packet) :
    ∃ face, b.face? packet = some face := by
  -- A count above zero is that of a slot which exists.
  obtain ⟨p, found, count⟩ := pool_of_refcount_pos held
  rw [← count] at held
  obtain ⟨s, there, -⟩ := Pool.exists_of_refcount_pos held
  rw [face?, found, Option.bind_some, Pool.face?, there]
  exact ⟨_, rfl⟩

/-- Buffers that stay as they are. -/
theorem Touches.refl (b : Buffers) : Touches b b [] :=
  -- What is shown is still shown.
  ⟨id, fun _ _ _ _ shown => shown⟩

/-- One change of the buffers after another. -/
theorem Touches.trans {middle : Buffers} {touched more : List Packet}
    (first : Touches b middle touched) (second : Touches middle after more) :
    Touches b after (touched ++ more) := by
  -- A packet that neither change touches shows the same after both.
  refine ⟨fun fits => second.fits (first.fits fits), ?_⟩
  intro fits packet apart face shown
  rw [List.mem_append, not_or] at apart
  exact second.faces (first.fits fits) packet apart.2 face
    (first.faces fits packet apart.1 face shown)

/-- A change that touches some packets touches at most those and others. -/
theorem Touches.mono {touched more : List Packet} (touches : Touches b after touched)
    (fewer : ∀ packet ∈ touched, packet ∈ more) : Touches b after more :=
  -- A packet outside the larger list is outside the smaller one.
  ⟨touches.fits, fun fits packet apart =>
    touches.faces fits packet fun member => apart (fewer packet member)⟩

/-- A packet that somebody holds looks the same to a recorder after what does not touch it. -/
theorem Touches.capture {touched : List Packet} (touches : Touches b after touched)
    (fits : b.Fits) (held : 0 < b.refcount packet) (apart : packet ∉ touched) :
    after.capture packet = b.capture packet := by
  -- A packet that is held has a face, and a face that is kept is captured alike.
  obtain ⟨face, shown⟩ := face?_of_refcount_pos held
  rw [capture_eq fits shown,
    capture_eq (touches.fits fits) (touches.faces fits packet apart face shown)]

/-- What one pool shows differently is what all of them together do. -/
theorem Touches.setPool {touched : List Nat} (found : b.pools[k]? = some p)
    (touches : p.Fits → p.Touches q touched) :
    Touches b (b.setPool k q) (touched.map fun index => ⟨k, index⟩) := by
  -- Packets of other pools are not looked at, and those of this one are its slots.
  constructor
  · intro fits i r here
    rw [pools_setPool found] at here
    split at here
    · cases here
      exact (touches (fits k p found)).fits (fits k p found)
    · exact fits i r here
  · intro fits packet apart face shown
    rw [face?, pools_setPool found]
    split
    · rename_i same
      subst same
      rw [face?, found, Option.bind_some] at shown
      rw [Option.bind_some, (touches (fits packet.pool p found)).faces (fits packet.pool p found)]
      · exact shown
      · intro member
        exact apart (List.mem_map.mpr ⟨packet.index, member, rfl⟩)
    · exact shown

/-- A change of one pool that does not show touches nothing. -/
theorem Touches.modifyPool {change : Pool → Pool} (b : Buffers) (k : Nat)
    (touches : ∀ p : Pool, p.Touches (change p) []) : Touches b (b.modifyPool k change) [] := by
  -- A pool that does not exist is not changed.
  cases found : b.pools[k]? with
  | none =>
    rw [modifyPool_none found]
    exact Touches.refl b
  | some p =>
    rw [modifyPool_eq found]
    exact Touches.setPool found fun _ => touches p

/-- Sharing a packet does not show. -/
theorem addRef_touches (b : Buffers) (packet : Packet) : Touches b (b.addRef packet) [] :=
  -- A count shows nowhere.
  Touches.modifyPool b packet.pool fun p => p.addRef_touches packet.index

/-- Giving a packet back does not show, even when nothing holds its buffer any more. -/
theorem release_touches (b : Buffers) (packet : Packet) : Touches b (b.release packet) [] :=
  -- Neither a count nor a free ring shows anywhere.
  Touches.modifyPool b packet.pool fun p => p.release_touches packet.index

/-- Giving packets back does not show. -/
theorem releaseAll_touches (b : Buffers) (packets : List Packet) :
    Touches b (b.releaseAll packets) [] := by
  -- They are given back one after another.
  induction packets generalizing b with
  | nil => exact Touches.refl b
  | cons packet rest ih => exact (b.release_touches packet).trans (ih (b.release packet))

/-- A pool added shows in no older one. -/
theorem addPool_touches (b : Buffers) (own : p.Fits) : Touches b (b.addPool p).2 [] := by
  -- Older pools keep their places, and the new one brings windows that fit.
  constructor
  · intro fits i r here
    rw [addPool, Array.getElem?_push] at here
    split at here
    · cases here
      exact own
    · exact fits i r here
  · intro _ packet _ face shown
    rw [face?, Option.bind_eq_some_iff] at shown
    obtain ⟨r, found, shown⟩ := shown
    have older : packet.pool ≠ b.pools.size :=
      Nat.ne_of_lt (Array.getElem?_eq_some_iff.mp found).1
    rw [face?, addPool, Array.getElem?_push, if_neg older, found]
    exact shown

/-- Allocating a packet shows in that packet and nowhere else. -/
theorem alloc_touches (handed : b.alloc k = .ok (packet, after)) : Touches b after [packet] := by
  -- The slot that is handed out is cleared, and the others stay.
  unfold alloc tryPool at handed
  cases found : b.pools[k]? with
  | none => simp [found] at handed
  | some p =>
    cases taken : p.alloc with
    | error fault => simp [found, taken] at handed
    | ok outcome =>
      simp only [found, taken, Except.ok.injEq, Prod.mk.injEq] at handed
      obtain ⟨rfl, rfl⟩ := handed
      exact Touches.setPool found fun _ => Pool.alloc_touches taken

/-- Allocating packets in bulk shows in those packets and nowhere else. -/
theorem allocBulk_touches {count : Nat} {packets : List Packet}
    (handed : b.allocBulk k count = .ok (packets, after)) : Touches b after packets := by
  -- The slots that are handed out are cleared, and the others stay.
  unfold allocBulk tryPool at handed
  cases found : b.pools[k]? with
  | none => simp [found] at handed
  | some p =>
    cases taken : p.allocBulk count with
    | error fault => simp [found, taken] at handed
    | ok outcome =>
      simp only [found, taken, Except.ok.injEq, Prod.mk.injEq] at handed
      obtain ⟨rfl, rfl⟩ := handed
      exact Touches.setPool found fun _ => Pool.allocBulk_touches taken

/-- Giving packets back one by one does not show, whoever they belong to. -/
theorem freeEach_touches (pool : Nat) (recycled : List Nat) (foreign : Option Nat) (b : Buffers)
    (packets : List Packet) :
    Touches b (freeEach pool recycled foreign b packets).2.2 [] := by
  -- Slots held back from the free ring show no more than those that are put there.
  induction packets generalizing b recycled foreign with
  | nil => exact Touches.refl b
  | cons packet rest ih =>
    rw [freeEach]
    split
    · exact (b.release_touches packet).trans (ih _ _ _)
    · split
      · exact ih _ _ _
      · rename_i p found
        have counted := p.unref_touches packet.index
        split
        · rename_i q told
          rw [told] at counted
          have retired := Touches.setPool found fun _ =>
            counted.trans (q.retire_touches packet.index)
          exact retired.trans (ih _ _ _)
        · rename_i q told
          rw [told] at counted
          exact (Touches.setPool found fun _ => counted).trans (ih _ _ _)

/-- Giving packets back in bulk does not show. -/
theorem freeBulk_touches (b : Buffers) (pool : Nat) (packets : List Packet) :
    Touches b (b.freeBulk pool packets).2 [] := by
  have each := freeEach_touches pool [] none b packets
  simp only [freeBulk]
  -- Whether a packet was foreign or not, the recycled slots go to the free ring.
  split <;>
  · refine each.trans (Touches.modifyPool _ _ fun p => ?_)
    split
    · exact Pool.Touches.of_slots rfl rfl rfl rfl rfl
    · exact Pool.Touches.refl p

/-- Replacing a pool by itself changes nothing. -/
theorem setPool_self (found : b.pools[k]? = some p) : b.setPool k p = b := by
  -- The pool at that place is the one that is put there.
  have same : b.pools.setIfInBounds k p = b.pools := by
    apply Array.ext_getElem?
    intro i
    rw [Array.getElem?_setIfInBounds]
    split
    · rename_i here
      subst here
      rw [if_pos (Array.getElem?_eq_some_iff.mp found).1, found]
    · rfl
  rw [setPool, same]

/-- A packet shared and given back again leaves all pools as they were. -/
theorem release_addRef (held : 0 < b.refcount packet) :
    (b.addRef packet).release packet = b := by
  -- Both calls change the one pool of the packet, where they undo each other.
  obtain ⟨p, found, count⟩ := pool_of_refcount_pos held
  rw [← count] at held
  have shared : (b.setPool packet.pool (p.addRef packet.index)).pools[packet.pool]? =
      some (p.addRef packet.index) := by
    rw [pools_setPool found, if_pos rfl]
  rw [addRef, modifyPool_eq found, release, modifyPool_eq shared, Pool.release_addRef held]
  have twice : (b.setPool packet.pool (p.addRef packet.index)).setPool packet.pool p =
      b.setPool packet.pool p := by
    simp [setPool]
  rw [twice, setPool_self found]

section Edits

variable {α : Type} {change : Pool → Slot → Option (α × Slot)}

/-- A change of a slot that is accepted shows in its packet and nowhere else. -/
theorem edit_touches (confines : ∀ p : Pool, p.Fits → Slot.Confines p.dataRoom (change p))
    {result : α} (changed : b.edit packet change = some (result, after)) :
    Touches b after [packet] := by
  -- The edited pool shows something new in the slot of the packet alone.
  rw [edit] at changed
  split at changed
  · cases changed
  · rename_i p found
    split at changed
    · cases changed
    · rename_i q done
      cases changed
      exact Touches.setPool found fun fits => Pool.edit_touches (confines p fits) done

/-- A window that was grown or shrunk, if it was, shows in its packet and nowhere else. -/
theorem edited_touches {change : Pool → Slot → Option (Nat × Slot)}
    (confines : ∀ p : Pool, p.Fits → Slot.Confines p.dataRoom (change p)) :
    Touches b (((b.edit packet change).map (·.2)).getD b) [packet] := by
  -- A window that could not be changed leaves the buffers as they are.
  cases changed : b.edit packet change with
  | none => exact (Touches.refl b).mono (by simp)
  | some outcome => exact edit_touches confines changed

/-- A change without a result shows in its packet and nowhere else. -/
theorem editUnit_touches {change : Pool → Slot → Option Slot}
    (confines : ∀ p : Pool, p.Fits →
      Slot.Confines p.dataRoom fun s => (change p s).map ((), ·)) :
    Touches b (b.editUnit packet change).2 [packet] := by
  -- A change that is refused leaves the buffers as they are.
  rw [editUnit]
  split
  · exact (Touches.refl b).mono (by simp)
  · rename_i changed
    exact edit_touches confines changed

/-- A guarded change is refused while the packet is shared. -/
theorem edit_none (guarded : ∀ p, Slot.Guarded (change p)) (shared : b.refcount packet ≠ 1) :
    b.edit packet change = none := by
  -- The guard refuses whatever slot is found, and without a slot there is nothing to change.
  rw [edit]
  split
  · rfl
  · rename_i p found
    rw [Pool.edit]
    cases there : p.slots[packet.index]? with
    | none => rfl
    | some s =>
      have apart : s.refcount ≠ 1 := by
        intro one
        simp [refcount, slot?, found, there, one] at shared
      simp only [guarded p s apart]

/-- A guarded change without a result changes nothing while the packet is shared. -/
theorem editUnit_none {change : Pool → Slot → Option Slot}
    (guarded : ∀ p, Slot.Guarded fun s => (change p s).map ((), ·))
    (shared : b.refcount packet ≠ 1) : (b.editUnit packet change).2 = b := by
  -- What is refused leaves the buffers as they are.
  rw [editUnit, edit_none guarded shared]

end Edits

/-- No packet that is shared may be written over. -/
theorem writable?_none (shared : b.refcount packet ≠ 1) : b.writable? packet = none := by
  -- Writing asks for the same guard as every other change.
  rw [writable?]
  cases there : b.slot? packet with
  | none => rfl
  | some s =>
    have apart : s.refcount ≠ 1 := by
      intro one
      simp [refcount, there, one] at shared
    simp [Slot.exclusive?_none apart]

/-- A packet that may be written over lies inside its room. -/
theorem writable?_eq_some {start len : Nat} (writable : b.writable? packet = some (start, len)) :
    ∃ p s, b.pools[packet.pool]? = some p ∧ p.slots[packet.index]? = some s ∧
      s.refcount = 1 ∧ start = s.headroom ∧ len = s.len := by
  -- A window is given out only of a slot that exists and is held once.
  rw [writable?, slot?] at writable
  cases found : b.pools[packet.pool]? with
  | none => simp [found] at writable
  | some p =>
    cases there : p.slots[packet.index]? with
    | none => simp [found, there] at writable
    | some s =>
      simp only [found, there, Slot.exclusive?] at writable
      split at writable
      · rename_i one
        simp only [Option.map_some, Option.some.injEq, Prod.mk.injEq] at writable
        exact ⟨p, s, rfl, there, one, writable.1.symm, writable.2.symm⟩
      · cases writable

/-- Whatever is done to a packet shows in that packet and nowhere else. -/
theorem perform_touches (b : Buffers) (packet : Packet) (edit : Edit) :
    Touches b (b.perform packet edit) [packet] := by
  -- By cases on the edit, each of which is confined to the data room of its slot.
  cases edit with
  | prepend count => exact edited_touches fun p _ => Slot.confines_prepend? p.dataRoom count
  | append count => exact edited_touches fun p _ => Slot.confines_append? p.dataRoom count
  | pull count => exact edited_touches fun p _ => Slot.confines_pull? p.dataRoom count
  | trim count => exact editUnit_touches fun p _ => Slot.confines_trim? p.dataRoom count
  | reset => exact editUnit_touches fun _ fits => Pool.confines_reset fits
  | setPort port => exact editUnit_touches fun _ _ => Slot.confines_map fun _ inside => inside
  | setTimestamp timestamp =>
    exact editUnit_touches fun _ _ => Slot.confines_map fun _ inside => inside
  | copy bytes =>
    simp only [perform, copy]
    cases found : b.pools[packet.pool]? with
    | none => exact (Touches.refl b).mono (by simp)
    | some p => exact Touches.setPool found fun fits => p.copy_touches packet.index bytes fits
  | write offset bytes =>
    simp only [perform]
    cases writable : b.writable? packet with
    | none => exact (Touches.refl b).mono (by simp)
    | some window =>
      obtain ⟨p, s, found, there, -, start, len⟩ := writable?_eq_some writable
      simp only [Buffers.writeBytes]
      rw [modifyPool_eq found]
      refine Touches.setPool found fun fits => p.writeBytes_touches packet.index _ _ fun _ some => ?_
      -- What is written is cut at the end of the packet, which is inside of the room.
      have inside := fits.windows packet.index s there
      have room := fits.room
      have within := List.length_pos_iff.mpr some
      rw [List.length_take] at within ⊢
      rw [start]
      omega

/-- Nothing can be done to a packet while it is shared. -/
theorem perform_shared (shared : b.refcount packet ≠ 1) (edit : Edit) :
    b.perform packet edit = b := by
  cases edit with
  | prepend count =>
    simp [perform, prepend?, edit_none (fun _ => Slot.guarded_prepend? count) shared]
  | append count =>
    simp [perform, append?, edit_none (fun p => Slot.guarded_append? p.dataRoom count) shared]
  | pull count => simp [perform, pull?, edit_none (fun _ => Slot.guarded_pull? count) shared]
  | trim count => exact editUnit_none (fun _ => Slot.guarded_trim? count) shared
  | reset => exact editUnit_none (fun _ => Slot.guarded_map _) shared
  | setPort port => exact editUnit_none (fun _ => Slot.guarded_map _) shared
  | setTimestamp timestamp => exact editUnit_none (fun _ => Slot.guarded_map _) shared
  | copy bytes =>
    simp only [perform, copy]
    cases found : b.pools[packet.pool]? with
    | none => rfl
    | some p =>
      -- The packet is not even emptied.
      have refused : p.edit packet.index
          (fun s => (s.reset? p.headroom).map fun s => ((), s)) = none := by
        rw [Pool.edit]
        cases there : p.slots[packet.index]? with
        | none => rfl
        | some s =>
          -- The slot counts what the packet does.
          have apart : s.refcount ≠ 1 := by
            intro one
            simp [refcount, slot?, found, there, one] at shared
          simp [Slot.reset?, Slot.exclusive?_none apart]
      have kept : (p.copy packet.index bytes).2 = p := by
        rw [Pool.copy, Pool.editUnit, refused]
      show b.setPool packet.pool (p.copy packet.index bytes).2 = b
      rw [kept, setPool_self found]
  | write offset bytes => simp only [perform, writable?_none shared]

end Buffers

namespace Ledger

/-- The packets in which a call may show: those that it hands out or edits. -/
def shown (l : Ledger) : PoolCall → List Packet
  -- Sharing, giving back, and passing through raw handles show nowhere.
  | .alloc pool =>
    match l.buffers.alloc pool with
    | .error _ => []
    | .ok (packet, _) => [packet]
  | .allocBulk pool count =>
    match l.buffers.allocBulk pool count with
    | .error _ => []
    | .ok (packets, _) => packets
  | .edit packet _ => [packet]
  | _ => []

/-- A later ledger, before which every call was made while a packet had two references at least. -/
inductive Shared (packet : Packet) : Ledger → Ledger → Prop
  | start (l : Ledger) : Shared packet l l
  | call {l later : Ledger} (before : Shared packet l later) (c : PoolCall)
    (permitted : later.Permits c) (shared : 2 ≤ later.references packet) :
    Shared packet l (later.call c)

variable {l : Ledger} {c : PoolCall} {packet : Packet}

/-- A call shows in the packets that it hands out or edits, and nowhere else. -/
theorem call_touches (l : Ledger) (c : PoolCall) :
    l.buffers.Touches (l.call c).buffers (l.shown c) := by
  -- By cases on the call: a refused call touches nothing, and any other one slot for each packet
  -- shown.
  cases c with
  | make name settings reserve =>
    simp only [Ledger.call]
    cases made : Pool.make name settings reserve with
    | error fault => exact Buffers.Touches.refl _
    | ok p => exact l.buffers.addPool_touches (Pool.fits_make made)
  | alloc pool =>
    simp only [Ledger.call, shown]
    cases handed : l.buffers.alloc pool with
    | error fault => exact Buffers.Touches.refl _
    | ok outcome => exact Buffers.alloc_touches handed
  | allocBulk pool count =>
    simp only [Ledger.call, shown]
    cases handed : l.buffers.allocBulk pool count with
    | error fault => exact Buffers.Touches.refl _
    | ok outcome => exact Buffers.allocBulk_touches handed
  | free pool packet => exact l.buffers.release_touches packet
  | drop packet => exact l.buffers.release_touches packet
  | freeBulk pool packets => exact l.buffers.freeBulk_touches pool packets
  | clone packet => exact l.buffers.addRef_touches packet
  | intoRaw packet => exact Buffers.Touches.refl _
  -- A raw handle is looked at and no more.
  | ofRaw handle =>
    simp only [Ledger.call]
    cases l.buffers.ofRaw handle.pool handle.raw with
    | error fault => exact Buffers.Touches.refl _
    | ok packet => exact Buffers.Touches.refl _
  -- One that is accepted names a packet, which is released.
  | freeRaw handle =>
    simp only [Ledger.call]
    cases freed : l.buffers.freeRaw handle.pool handle.raw with
    | error fault => exact Buffers.Touches.refl _
    | ok after =>
      obtain rfl := freeRaw_eq freed
      exact l.buffers.release_touches handle.packet
  | edit packet edit => exact l.buffers.perform_touches packet edit

/-- Whatever calls were made, all packets lie inside their own data rooms. -/
theorem Reachable.fits (run : l.Reachable) : l.buffers.Fits := by
  -- There is no pool at the start, and each call keeps packets where they are.
  induction run with
  | start =>
    intro k p found
    simp at found
  | call run c _ ih => exact (call_touches _ c).fits ih

/-- A call hands out only packets that nothing refers to. -/
theorem Sound.shown_idle (sound : l.Sound) (member : packet ∈ l.shown c) :
    (∃ edit, c = .edit packet edit) ∨ l.references packet = 0 := by
  -- Packets come off a free list, and nothing refers to a packet there while the record is right.
  have atRest : l.buffers.Balanced 0 [] := Buffers.balanced_nil.mpr sound.settled
  cases c with
  | alloc pool =>
    right
    simp only [shown] at member
    split at member
    · cases member
    · rename_i handed
      rw [List.mem_singleton.mp member, ← sound.counted]
      exact (Buffers.alloc_trades atRest handed).1
  | allocBulk pool count =>
    right
    simp only [shown] at member
    split at member
    · cases member
    · rename_i handed
      rw [← sound.counted]
      exact (Buffers.allocBulk_trades atRest handed).2.1 packet member
  | edit other edit =>
    left
    rw [List.mem_singleton.mp member]
    exact ⟨edit, rfl⟩
  | make | free | freeBulk | clone | drop | intoRaw | ofRaw | freeRaw => cases member

/-- No call shows in a packet that has two references at least. -/
theorem Sound.call_frozen (sound : l.Sound) (fits : l.buffers.Fits)
    (shared : 2 ≤ l.references packet) (c : PoolCall) :
    (l.call c).buffers.face? packet = l.buffers.face? packet := by
  -- Edits of a shared packet are refused, and a packet with references is never handed out again.
  obtain ⟨face, visible⟩ : ∃ face, l.buffers.face? packet = some face := by
    apply Buffers.face?_of_refcount_pos
    rw [sound.counted]
    omega
  by_cases member : packet ∈ l.shown c
  · obtain ⟨edit, rfl⟩ | idle := sound.shown_idle member
    · have kept : l.buffers.perform packet edit = l.buffers := by
        apply Buffers.perform_shared
        rw [sound.counted]
        omega
      rw [Ledger.call, kept]
    · omega
  · rw [visible]
    exact (l.call_touches c).faces fits packet member face visible

/-- A packet that is shared whenever a call is made shows the same all along. -/
theorem Shared.kept {later : Ledger} (run : l.Reachable) (shared : l.Shared packet later) :
    later.Reachable ∧ later.buffers.face? packet = l.buffers.face? packet := by
  -- Each call finds the packet shared.
  induction shared with
  | start => exact ⟨run, rfl⟩
  | call before c permitted two ih =>
    obtain ⟨reached, same⟩ := ih
    exact ⟨reached.call c permitted, (reached.sound.call_frozen reached.fits two c).trans same⟩

/-- Whatever pools were made and whatever permitted calls followed: every packet lies inside its own
stride of its pool's region. A call shows in the packets that it hands out or edits, and in no other
packet of any pool. And as long as a packet has two live references at least, it is seen unchanged
through all of its handles, whatever is tried. -/
theorem shared_frozen_and_isolated (run : l.Reachable) :
    (∀ (k : Nat) (p : Pool) (i : Nat) (s : Slot), l.buffers.pools[k]? = some p →
      p.slots[i]? = some s → p.base i + s.headroom + s.len ≤ p.base i + p.dataRoom ∧
        p.base i + p.dataRoom ≤ p.base (i + 1) ∧ p.base (i + 1) ≤ p.capacity * p.stride) ∧
    (∀ c, l.Permits c → ∀ packet, packet ∉ l.shown c → ∀ face,
      l.buffers.face? packet = some face → (l.call c).buffers.face? packet = some face) ∧
    ∀ packet later, l.Shared packet later →
      later.buffers.seen? packet = l.buffers.seen? packet := by
  -- The window gives the first part, what a call touches the second, and induction along the run the
  -- third.
  refine ⟨?_, ?_, ?_⟩
  · intro k p i s found there
    have fits := run.fits k p found
    have window := fits.windows i s there
    have inside : i < p.capacity := (Array.getElem?_eq_some_iff.mp there).1
    refine ⟨by omega, ?_, Nat.mul_le_mul_right _ inside⟩
    rw [Pool.base, Pool.base, Nat.succ_mul]
    exact Nat.add_le_add_left fits.room _
  · intro c _ packet apart face visible
    exact (l.call_touches c).faces run.fits packet apart face visible
  · intro packet later shared
    obtain ⟨reached, same⟩ := shared.kept run
    rw [Buffers.seen?_eq reached.fits, Buffers.seen?_eq run.fits, same]

/-- A region of any size, without a look at the memory that there is. -/
def reserveAny (size : Nat) (node : Option UInt32) : Except Fault Region :=
  .ok { size, node }

/-- A pool of two buffers hands one out, which has a single live reference. -/
theorem exists_lone_packet :
    ∃ p q : Pool, Pool.make "pair" { capacity := 2 } reserveAny = .ok p ∧ p.alloc = .ok (0, q) ∧
      ({ buffers := ⟨#[q]⟩, packets := [⟨0, 0⟩] } : Ledger).Reachable := by
  -- The pool is not computed: that it has two buffers and is balanced is enough to hand one out.
  let settings : PoolSettings := { capacity := 2 }
  have two : settings.capacity.toNat.nextPowerOfTwo = 2 := by decide +kernel
  have small : settings.capacity.toNat.nextPowerOfTwo ≤ maxRingCapacity := by
    rw [two]
    decide
  have wide : settings.capacity.toNat ≤ settings.capacity.toNat.nextPowerOfTwo := by
    rw [two]
    decide
  obtain ⟨p, made, size⟩ : ∃ p, Pool.make "pair" settings reserveAny = .ok p ∧ p.capacity = 2 :=
    Pool.make_ok (by decide) rfl small wide
  obtain ⟨balanced, -⟩ := Pool.balanced_make made
  have balanced : p.Balanced [0, 1] [] := by
    rw [size] at balanced
    exact balanced
  obtain ⟨q, handed, -⟩ := balanced.alloc_cons
  let first : Ledger := { buffers := ⟨#[p]⟩ }
  have one : first.Reachable := by
    have step := Reachable.start.call (.make "pair" settings reserveAny) trivial
    simpa [Ledger.call, made, Buffers.addPool] using step
  refine ⟨p, q, made, handed, ?_⟩
  have step := one.call (.alloc 0) trivial
  simpa [Ledger.call, Buffers.alloc, Buffers.tryPool, first, handed] using step

/-- A pool of two buffers hands one out, which is then shared: it has two live references. -/
theorem exists_shared_pair :
    ∃ l : Ledger, l.Reachable ∧ ⟨0, 0⟩ ∈ l.packets ∧ l.references ⟨0, 0⟩ = 2 := by
  -- Cloning the lone packet is permitted, since a single reference is far from the largest count.
  obtain ⟨p, q, -, -, run⟩ := exists_lone_packet
  let l : Ledger := { buffers := ⟨#[q]⟩, packets := [⟨0, 0⟩] }
  have single : l.references ⟨0, 0⟩ = 1 := rfl
  have shared := run.call (.clone ⟨0, 0⟩) ⟨List.mem_cons_self, by rw [single]; decide⟩
  exact ⟨_, shared, List.mem_cons_self, rfl⟩

/-- A buffer with two references is seen unchanged although its holder tries to write over it. -/
theorem shared_frozen_written_over :
    ∃ l : Ledger, l.Reachable ∧ l.references ⟨0, 0⟩ = 2 ∧ ∀ bytes,
      (l.call (.edit ⟨0, 0⟩ (.copy bytes))).buffers.seen? ⟨0, 0⟩ = l.buffers.seen? ⟨0, 0⟩ := by
  -- The theorem is used at a run of one edit, which finds the packet shared.
  obtain ⟨l, run, listed, shared⟩ := exists_shared_pair
  refine ⟨l, run, shared, ?_⟩
  intro bytes
  obtain ⟨-, -, frozen⟩ := shared_frozen_and_isolated run
  exact frozen ⟨0, 0⟩ _ ((Shared.start l).call (.edit ⟨0, 0⟩ (.copy bytes)) listed
    (Nat.le_of_eq shared.symm))

end Ledger

end PacketPlane
