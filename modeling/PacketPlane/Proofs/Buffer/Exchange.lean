import Mathlib.Data.List.Count
import PacketPlane.Buffer.Store

/-! Exchanges: what operations do to the stored reference counts, whatever these were before. -/

namespace PacketPlane

namespace Pool

/-- The count of references that a slot stores. -/
def references (p : Pool) (index : Nat) : Option UInt32 :=
  -- A slot that does not exist stores none.
  p.slots[index]?.map Slot.refcount

/-- Changing one slot changes at most what that slot stores. -/
theorem references_modifySlot (p : Pool) (index other : Nat) (change : Slot → Slot)
    (count : UInt32 → UInt32) (counts : ∀ s, (change s).refcount = count s.refcount) :
    (p.modifySlot index change).references other =
      if index = other then (p.references other).map count else p.references other := by
  -- The array is changed at one place, and what is stored there is counted by the slot alone.
  simp only [references, modifySlot, Array.getElem?_modify]
  by_cases same : index = other
  · cases p.slots[other]? with
    | none => simp [same]
    | some s => simp [same, counts]
  · simp [same]

/-- A reference more is stored, wrapping at 32 bits. -/
theorem references_addRef (p : Pool) (index other : Nat) :
    (p.addRef index).references other =
      if index = other then (p.references other).map (· + 1) else p.references other := by
  -- Only the count of the slot is changed.
  exact p.references_modifySlot index other _ (· + 1) fun _ => rfl

/-- A reference fewer is stored, wrapping at 32 bits, whether or not it was the last. -/
theorem references_release (p : Pool) (index other : Nat) :
    (p.release index).references other =
      if index = other then (p.references other).map (· - 1) else p.references other := by
  -- Retiring a slot and putting it on the free ring leave its count as it is.
  have counted : (p.unref index).2.references other =
      if index = other then (p.references other).map (· - 1) else p.references other :=
    p.references_modifySlot index other _ (· - 1) fun _ => rfl
  have retired : ((p.unref index).2.retire index).references other =
      (p.unref index).2.references other := by
    have changed := (p.unref index).2.references_modifySlot index other
      (fun s => { s with generation := s.generation + 1 }) id fun _ => rfl
    rw [Option.map_id, id, ite_self] at changed
    exact changed
  have recycled : ∀ q : Pool, (q.recycle index).references other = q.references other := by
    intro q
    rw [recycle]
    split <;> rfl
  rw [release]
  split
  · rename_i q told
    have same : (p.unref index).2 = q := congrArg Prod.snd told
    rw [recycled, ← same, retired, counted]
  · rename_i q told
    have same : (p.unref index).2 = q := congrArg Prod.snd told
    rw [← same, counted]

end Pool

namespace Buffers

/-- The count of references that a packet's slot stores. -/
def references (b : Buffers) (packet : Packet) : Option UInt32 :=
  -- A slot that does not exist stores none.
  (b.slot? packet).map Slot.refcount

/-- Stored counts that went up by the references gained and down by those lost. -/
def Exchanges (before after : Buffers) (gained lost : List Packet) : Prop :=
  -- All counts wrap at 32 bits.
  ∀ packet, after.references packet = (before.references packet).map fun count =>
    count + UInt32.ofNat (gained.count packet) - UInt32.ofNat (lost.count packet)

/-- Changing one pool changes at most what its own slots store. -/
theorem references_modifyPool (b : Buffers) (pool : Nat) (change : Pool → Pool)
    (packet : Packet) :
    (b.modifyPool pool change).references packet =
      if pool = packet.pool then (b.pools[packet.pool]?).bind fun p =>
        (change p).references packet.index
      else b.references packet := by
  -- Other pools are not looked at for this packet.
  simp only [references, slot?, modifyPool, Array.getElem?_modify]
  by_cases same : pool = packet.pool
  · cases b.pools[packet.pool]? with
    | none => simp [same]
    | some p => simp [same, Pool.references]
  · simp [same]

/-- What a packet's slot stores is what its pool has for it. -/
theorem references_eq (b : Buffers) (packet : Packet) :
    b.references packet = (b.pools[packet.pool]?).bind fun p => p.references packet.index := by
  -- A packet is looked up by its pool first, and by its index then.
  cases found : b.pools[packet.pool]? with
  | none => simp [references, slot?, found]
  | some p => simp [references, slot?, found, Pool.references]

/-- Nothing gained and nothing lost. -/
theorem Exchanges.of_same {before after : Buffers}
    (same : ∀ packet, after.references packet = before.references packet) :
    Exchanges before after [] [] := by
  -- Adding and taking away zero changes no number.
  intro packet
  rw [same]
  cases before.references packet <;> simp

/-- One exchange after another. -/
theorem Exchanges.trans {before middle after : Buffers} {gained more lost further : List Packet}
    (first : Exchanges before middle gained lost) (second : Exchanges middle after more further) :
    Exchanges before after (gained ++ more) (lost ++ further) := by
  -- Sums of counts are sums in 32 bits as well.
  intro packet
  rw [second packet, first packet, Option.map_map]
  congr 1
  funext count
  rw [List.count_append, List.count_append, UInt32.ofNat_add, UInt32.ofNat_add]
  simp only [Function.comp_apply]
  grind

/-- References that were gained and lost again do not show. -/
theorem Exchanges.cancel {before after : Buffers} {packets : List Packet}
    (both : Exchanges before after packets packets) : Exchanges before after [] [] := by
  -- What is added in 32 bits and taken away again leaves every number as it was.
  intro packet
  rw [both packet]
  congr 1
  funext count
  simp

/-- One packet counts once at itself. -/
theorem count_one (packet other : Packet) :
    [packet].count other = if packet = other then 1 else 0 := by
  -- Of one packet there is one or none.
  rw [List.count_singleton]
  by_cases same : packet = other
  · simp [same]
  · simp [same]

/-- Sharing a packet gains one reference to it. -/
theorem addRef_exchanges (b : Buffers) (packet : Packet) :
    Exchanges b (b.addRef packet) [packet] [] := by
  -- Only the slot of the packet stores another number, which is one more.
  intro other
  rw [addRef, references_modifyPool, count_one, references_eq]
  obtain ⟨pool, index⟩ := other
  cases found : b.pools[pool]? with
  | none => simp
  | some p =>
    by_cases same : packet = ⟨pool, index⟩
    · subst same
      simp [Pool.references_addRef]
    · by_cases here : packet.pool = pool
      · have apart : packet.index ≠ index := by
          rintro rfl
          exact same (by rw [← here])
        simp [here, apart, same, Pool.references_addRef]
      · simp [here, same]

/-- Giving a packet back loses one reference to it. -/
theorem release_exchanges (b : Buffers) (packet : Packet) :
    Exchanges b (b.release packet) [] [packet] := by
  -- Only the slot of the packet stores another number, which is one less.
  intro other
  rw [release, references_modifyPool, count_one, references_eq]
  obtain ⟨pool, index⟩ := other
  cases found : b.pools[pool]? with
  | none => simp
  | some p =>
    by_cases same : packet = ⟨pool, index⟩
    · subst same
      simp [Pool.references_release]
    · by_cases here : packet.pool = pool
      · have apart : packet.index ≠ index := by
          rintro rfl
          exact same (by rw [← here])
        simp [here, apart, same, Pool.references_release]
      · simp [here, same]

/-- Giving packets back loses one reference to each. -/
theorem releaseAll_exchanges (b : Buffers) (packets : List Packet) :
    Exchanges b (b.releaseAll packets) [] packets := by
  -- They are given back one after another.
  induction packets generalizing b with
  | nil => exact Exchanges.of_same fun _ => rfl
  | cons packet rest ih => exact (b.release_exchanges packet).trans (ih (b.release packet))

end Buffers

end PacketPlane
