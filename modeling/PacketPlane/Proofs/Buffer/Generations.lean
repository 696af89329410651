import Mathlib.Logic.Function.Iterate
import PacketPlane.Proofs.Buffer.Ledger

/-! Generations: every call marks exactly the slots that lose their last reference by it, each once. -/

namespace PacketPlane

namespace Slot

/-- A slot with one reference fewer, marked if it was the last. -/
def dropRef (s : Slot) : Slot :=
  -- Both counts wrap at 32 bits.
  if s.refcount = 1 then { s with refcount := s.refcount - 1, generation := s.generation + 1 }
  else { s with refcount := s.refcount - 1 }

/-- References given back one after another, up to as many as there are, mark the slot with the last
of them and not before. -/
theorem dropRef_iterate {s : Slot} {count : Nat} (owned : count ≤ s.refcount.toNat) :
    (dropRef^[count] s).refcount.toNat = s.refcount.toNat - count ∧
      (dropRef^[count] s).generation =
        if 0 < count ∧ count = s.refcount.toNat then s.generation + 1 else s.generation := by
  -- By induction on the references, of which only the last one finds a count of one.
  induction count with
  | zero => simp
  | succ count ih =>
    obtain ⟨counted, marked⟩ := ih (Nat.le_of_succ_le owned)
    rw [if_neg (by omega)] at marked
    rw [Function.iterate_succ_apply', dropRef]
    generalize dropRef^[count] s = middle at counted marked ⊢
    have one : middle.refcount = 1 ↔ middle.refcount.toNat = 1 := by
      rw [← UInt32.toNat_inj, UInt32.toNat_one]
    have fewer : (middle.refcount - 1).toNat = middle.refcount.toNat - 1 := by
      apply UInt32.toNat_sub_of_le
      rw [UInt32.le_iff_toNat_le, UInt32.toNat_one]
      omega
    split
    · rename_i last
      rw [one] at last
      refine ⟨by show (middle.refcount - 1).toNat = _; omega, ?_⟩
      rw [if_pos (by omega), ← marked]
    · rename_i several
      rw [one] at several
      refine ⟨by show (middle.refcount - 1).toNat = _; omega, ?_⟩
      rw [if_neg (by omega), ← marked]

end Slot

namespace Pool

variable {p q : Pool} {index : Nat}

/-- Giving a reference back is told to be the last one of a slot that has just one. -/
theorem unref_fst_eq (p : Pool) (index : Nat) :
    (p.unref index).1 = true ↔ ∃ s, p.slots[index]? = some s ∧ s.refcount = 1 := by
  -- A slot that does not exist has no reference to be the last.
  cases found : p.slots[index]? with
  | none => simp [unref, found]
  | some s => simp [unref, found]

/-- A reference that is told to be the last marks its slot when it is retired. -/
theorem slots_retire (told : p.unref index = (true, q)) (other : Nat) :
    (q.retire index).slots[other]? =
      if index = other then p.slots[other]?.map Slot.dropRef else p.slots[other]? := by
  -- Being told so means that the count was one, so this reference marks the slot as well.
  obtain ⟨s, found, one⟩ := (p.unref_fst_eq index).mp (by rw [told])
  have same : (p.unref index).2 = q := congrArg Prod.snd told
  simp only [← same, unref, retire, modifySlot, Array.getElem?_modify]
  by_cases here : index = other
  · subst here
    simp [found, Slot.dropRef, one]
  · simp [here]

/-- A reference that is told not to be the last leaves its slot unmarked. -/
theorem slots_unref (told : p.unref index = (false, q)) (other : Nat) :
    q.slots[other]? =
      if index = other then p.slots[other]?.map Slot.dropRef else p.slots[other]? := by
  -- Being told so means that the count was not one, so this reference only counts.
  have several : ¬ ∃ s, p.slots[index]? = some s ∧ s.refcount = 1 := by
    rw [← unref_fst_eq, told]
    exact Bool.false_ne_true
  have same : (p.unref index).2 = q := congrArg Prod.snd told
  simp only [← same, unref, modifySlot, Array.getElem?_modify]
  by_cases here : index = other
  · subst here
    cases found : p.slots[index]? with
    | none => simp
    | some s =>
      have apart : s.refcount ≠ 1 := fun one => several ⟨s, found, one⟩
      simp [Slot.dropRef, apart]
  · simp [here]

/-- Putting a slot on the free ring changes no slot. -/
@[simp] theorem slots_recycle (p : Pool) (index : Nat) : (p.recycle index).slots = p.slots := by
  -- The free ring and the slots are apart.
  rw [recycle]
  split <;> rfl

/-- Giving a reference back changes its own slot only. -/
theorem slots_release (p : Pool) (index other : Nat) :
    (p.release index).slots[other]? =
      if index = other then p.slots[other]?.map Slot.dropRef else p.slots[other]? := by
  -- The last reference and any other one do to the slot what dropping one does.
  rw [release]
  split
  · rename_i q told
    rw [slots_recycle, slots_retire told]
  · rename_i q told
    exact slots_unref told other

/-- An index that no slot has is refused. -/
theorem checkRaw_outside {raw : RawHandle} (outside : p.capacity ≤ raw.index) :
    p.checkRaw raw = .error (.invalidHandle raw.index .outOfRange) := by
  -- Looking for the slot comes first.
  rw [checkRaw, Array.getElem?_eq_none outside]

/-- A handle from before a release is refused. -/
theorem checkRaw_stale {raw : RawHandle} {generation : UInt32}
    (marked : p.generation? raw.index = some generation) (moved : generation ≠ raw.generation) :
    p.checkRaw raw = .error (.invalidHandle raw.index .stale) := by
  -- The generation is compared before the references are.
  rw [generation?, Option.map_eq_some_iff] at marked
  obtain ⟨s, found, rfl⟩ := marked
  simp [checkRaw, found, moved]

/-- A slot that nothing holds is refused, whatever handle names it. -/
theorem checkRaw_unheld (raw : RawHandle) (unheld : p.refcount raw.index = 0) :
    ∃ reason, p.checkRaw raw = .error (.invalidHandle raw.index reason) := by
  -- Without references, not even the right generation makes a handle good.
  cases found : p.slots[raw.index]? with
  | none => exact ⟨_, checkRaw_outside (Array.getElem?_eq_none_iff.mp found)⟩
  | some s =>
    have none : s.refcount = 0 := by
      simpa [refcount, found, ← UInt32.toNat_inj] using unheld
    by_cases moved : s.generation = raw.generation
    · exact ⟨.doubleFree, by simp [checkRaw, found, moved, none]⟩
    · exact ⟨.stale, by simp [checkRaw, found, moved]⟩

/-- Handing a slot out marks none, whatever its free ring becomes. -/
theorem generation?_claimAll (p : Pool) (indices : List Nat) (other : Nat) :
    (p.claimAll indices).generation? other = p.generation? other := by
  -- By induction on the slots, none of which is marked when it is claimed.
  induction indices generalizing p with
  | nil => rfl
  | cons index rest ih => exact (ih (p.claim index)).trans (p.generation?_claim index other)

end Pool

namespace Buffers

variable {b after : Buffers} {packet : Packet}

/-- The slot of a packet after one pool was replaced. -/
theorem slot?_setPool {k : Nat} {p q : Pool} (found : b.pools[k]? = some p) (packet : Packet) :
    (b.setPool k q).slot? packet =
      if packet.pool = k then q.slots[packet.index]? else b.slot? packet := by
  -- A packet of another pool is looked up there as before.
  rw [slot?, pools_setPool found]
  by_cases same : packet.pool = k
  · rw [if_pos same, if_pos same]
  · rw [if_neg same, if_neg same, slot?]

/-- A pool whose slot lost a reference stands for the packet that was given back. -/
theorem slot?_setPool_dropRef {p q : Pool} (found : b.pools[packet.pool]? = some p)
    (slots : ∀ i, q.slots[i]? =
      if packet.index = i then p.slots[i]?.map Slot.dropRef else p.slots[i]?) (other : Packet) :
    (b.setPool packet.pool q).slot? other =
      if packet = other then (b.slot? other).map Slot.dropRef else b.slot? other := by
  -- Within the pool, a packet is told from others by its index.
  rw [slot?_setPool found]
  by_cases here : other.pool = packet.pool
  · have mine : b.slot? other = p.slots[other.index]? := by rw [slot?, here, found]
    have matching : packet.index = other.index ↔ packet = other := by
      cases packet
      cases other
      subst here
      simp
    simp only [if_pos here, slots, mine, matching]
  · have apart : packet ≠ other := fun same => here (same ▸ rfl)
    rw [if_neg here, if_neg apart]

/-- Giving a packet back changes its own slot only. -/
theorem slot?_release (b : Buffers) (packet other : Packet) :
    (b.release packet).slot? other =
      if packet = other then (b.slot? other).map Slot.dropRef else b.slot? other := by
  -- A pool that does not exist has no slot to change.
  rw [release]
  cases found : b.pools[packet.pool]? with
  | none =>
    rw [modifyPool_none found]
    split
    · rename_i same
      subst same
      simp [slot?, found]
    · rfl
  | some p =>
    rw [modifyPool_eq found]
    exact slot?_setPool_dropRef found (p.slots_release packet.index) other

/-- A slot that lost a reference and then as many as others are listed lost them all. -/
theorem map_dropRef_count (packet other : Packet) (rest : List Packet) (slot : Option Slot) :
    (if packet = other then slot.map Slot.dropRef else slot).map (Slot.dropRef^[rest.count other]) =
      slot.map (Slot.dropRef^[(packet :: rest).count other]) := by
  -- The packet at the front counts for itself and for no other.
  by_cases same : packet = other
  · subst same
    rw [if_pos rfl, List.count_cons_self, Option.map_map, Function.iterate_succ]
  · rw [if_neg same, List.count_cons_of_ne same]

/-- Packets given back one by one change their own slots only, each as often as it is listed. -/
theorem slot?_freeEach (pool : Nat) (recycled : List Nat) (foreign : Option Nat) (b : Buffers)
    (packets : List Packet) (other : Packet) :
    (freeEach pool recycled foreign b packets).2.2.slot? other =
      (b.slot? other).map (Slot.dropRef^[packets.count other]) := by
  induction packets generalizing b recycled foreign with
  | nil => simp [freeEach]
  | cons packet rest ih =>
    rw [← map_dropRef_count, freeEach]
    by_cases own : packet.pool = pool
    · subst own
      rw [if_neg (not_not_intro rfl)]
      cases found : b.pools[packet.pool]? with
      | none =>
        have nothing : (if packet = other then (b.slot? other).map Slot.dropRef else b.slot? other) =
            b.slot? other := by
          split
          · rename_i same
            subst same
            simp [slot?, found]
          · rfl
        simp only [ih, nothing]
      | some p =>
        -- Whether the slot goes to the free ring later shows in its generation alone.
        simp only
        split
        · rename_i q told
          rw [ih]
          exact congrArg _ (slot?_setPool_dropRef found (Pool.slots_retire told) other)
        · rename_i q told
          rw [ih]
          exact congrArg _ (slot?_setPool_dropRef found (Pool.slots_unref told) other)
    · rw [if_pos own, ih, slot?_release]

/-- Packets given back in bulk change their own slots only, each as often as it is listed. -/
theorem slot?_freeBulk (b : Buffers) (pool : Nat) (packets : List Packet) (other : Packet) :
    (b.freeBulk pool packets).2.slot? other =
      (b.slot? other).map (Slot.dropRef^[packets.count other]) := by
  rw [← slot?_freeEach pool [] none]
  -- The free ring takes the slots last of all.
  have shelved : ∀ (middle : Buffers) (change : Pool → Pool),
      (∀ p, (change p).slots = p.slots) →
        (middle.modifyPool pool change).slot? other = middle.slot? other := by
    intro middle change kept
    cases found : middle.pools[pool]? with
    | none => rw [modifyPool_none found]
    | some p =>
      rw [modifyPool_eq found, slot?_setPool found, kept]
      split
      · rename_i same
        rw [slot?, same, found]
      · rfl
  simp only [freeBulk]
  split <;>
  · apply shelved
    intro p
    split <;> rfl

/-- Buffers later on: exactly the slots that lost their last reference have been marked, once. -/
def Ages (before after : Buffers) : Prop :=
  -- Slots of pools that are still to be made are left out.
  ∀ packet generation, before.generation? packet = some generation →
    after.generation? packet = some
      (if 0 < before.refcount packet ∧ after.refcount packet = 0 then generation + 1
        else generation)

/-- Buffers in which no slot was marked and none lost its last reference have aged. -/
theorem Ages.of_kept
    (kept : ∀ packet generation, b.generation? packet = some generation →
      after.generation? packet = some generation)
    (counts : ∀ packet, b.refcount packet ≤ after.refcount packet) : b.Ages after := by
  -- A slot is released only when its count falls to zero, and no count falls.
  intro packet generation marked
  have held := counts packet
  rw [if_neg (by omega)]
  exact kept packet generation marked

/-- Nothing happens to buffers that stay the same. -/
theorem Ages.refl (b : Buffers) : b.Ages b :=
  -- Every mark and every count is what it was.
  Ages.of_kept (fun _ _ marked => marked) fun _ => Nat.le_refl _

/-- What was gained without any loss only adds references. -/
theorem Trades.refcount_le {gained : List Packet} (traded : Trades b after gained [])
    (packet : Packet) : b.refcount packet ≤ after.refcount packet := by
  -- Nothing was lost, so each count is what it was with something added.
  have counted := traded.counted packet
  rw [List.count_nil] at counted
  omega

/-- References that are given back age the buffers, when each packet is held often enough. -/
theorem Ages.of_dropRef {packets : List Packet}
    (owned : ∀ packet, packets.count packet ≤ b.refcount packet)
    (slots : ∀ packet, after.slot? packet =
      (b.slot? packet).map (Slot.dropRef^[packets.count packet])) : b.Ages after := by
  -- A slot that loses all of its references is marked once, and any other slot is not.
  intro packet generation marked
  rw [generation?, Option.map_eq_some_iff] at marked
  obtain ⟨s, found, rfl⟩ := marked
  have before : b.refcount packet = s.refcount.toNat := by simp only [refcount, found]
  have enough := owned packet
  rw [before] at enough
  obtain ⟨counted, marked⟩ := Slot.dropRef_iterate enough
  have here : after.slot? packet = some (Slot.dropRef^[packets.count packet] s) := by
    rw [slots, found, Option.map_some]
  have left : after.refcount packet = s.refcount.toNat - packets.count packet := by
    simp only [refcount, here, counted]
  have last : (0 < packets.count packet ∧ packets.count packet = s.refcount.toNat) ↔
      0 < s.refcount.toNat ∧ s.refcount.toNat - packets.count packet = 0 := by
    omega
  rw [generation?, here, Option.map_some, marked, before, left]
  simp only [last]

/-- A packet that is given back ages the buffers. -/
theorem release_ages (held : 0 < b.refcount packet) : b.Ages (b.release packet) := by
  -- One packet given back is a list of one, of which each slot loses what is listed.
  have owned : ∀ other, [packet].count other ≤ b.refcount other := by
    intro other
    rw [List.count_singleton]
    split
    · rename_i same
      rw [← eq_of_beq same]
      exact held
    · exact Nat.zero_le _
  refine Ages.of_dropRef owned ?_
  intro other
  rw [slot?_release, ← map_dropRef_count packet other [] (b.slot? other)]
  simp

/-- A change of one pool that is not refused replaces that pool. -/
theorem tryPool_ok {α : Type} {k : Nat} {change : Pool → Except Fault (α × Pool)} {result : α}
    (done : b.tryPool k change = .ok (result, after)) :
    ∃ p q, b.pools[k]? = some p ∧ change p = .ok (result, q) ∧ after = b.setPool k q := by
  -- Only a pool that exists and a change that is accepted lead to a result.
  rw [tryPool] at done
  split at done
  · cases done
  · rename_i p found
    split at done
    · cases done
    · rename_i q changed
      cases done
      exact ⟨p, q, found, changed, rfl⟩

/-- A pool replaced by one that marked no slot marks no packet's slot. -/
theorem generation?_setPool_same {k : Nat} {p q : Pool} (found : b.pools[k]? = some p)
    (same : ∀ i, q.generation? i = p.generation? i) (packet : Packet) :
    (b.setPool k q).generation? packet = b.generation? packet := by
  -- Packets of other pools are looked up in pools that stay.
  rw [generation?_setPool found]
  split
  · rename_i here
    rw [same, generation?_eq, here, found, Option.bind_some]
  · rfl

/-- A packet that is handed out marks no slot. -/
theorem generation?_alloc {k : Nat} (handed : b.alloc k = .ok (packet, after)) (other : Packet) :
    after.generation? other = b.generation? other := by
  -- Claiming a slot clears it and keeps its generation.
  rw [alloc] at handed
  split at handed
  · cases handed
  · rename_i done
    cases handed
    obtain ⟨p, q, found, taken, rfl⟩ := tryPool_ok done
    apply generation?_setPool_same found
    intro i
    rw [Pool.alloc] at taken
    split at taken
    · cases taken
    · cases taken
      exact Pool.generation?_claim ..

/-- Packets that are handed out together mark no slot. -/
theorem generation?_allocBulk {k count : Nat} {packets : List Packet}
    (handed : b.allocBulk k count = .ok (packets, after)) (other : Packet) :
    after.generation? other = b.generation? other := by
  -- Claiming slots clears them and keeps their generations.
  rw [allocBulk] at handed
  split at handed
  · cases handed
  · rename_i done
    cases handed
    obtain ⟨p, q, found, taken, rfl⟩ := tryPool_ok done
    apply generation?_setPool_same found
    intro i
    rw [Pool.allocBulk] at taken
    split at taken
    · cases taken
    · split at taken
      · cases taken
      · cases taken
        exact Pool.generation?_claimAll ..

/-- Sharing a packet marks no slot. -/
theorem generation?_addRef (b : Buffers) (packet other : Packet) :
    (b.addRef packet).generation? other = b.generation? other := by
  -- A count is raised and nothing else.
  rw [addRef]
  cases found : b.pools[packet.pool]? with
  | none => rw [modifyPool_none found]
  | some p =>
    rw [modifyPool_eq found]
    exact generation?_setPool_same found (p.generation?_addRef packet.index) other

/-- A pool that is added marks no slot of the pools before it. -/
theorem generation?_addPool {p : Pool} {generation : UInt32}
    (marked : b.generation? packet = some generation) :
    (b.addPool p).2.generation? packet = some generation := by
  -- A slot that exists is in one of the older pools, which keep their places.
  rw [generation?_eq] at marked ⊢
  rw [addPool, Array.getElem?_push]
  split
  · rename_i last
    simp [last] at marked
  · exact marked

/-- A packet whose slot nobody holds and that lies on the free ring of its pool. -/
def Free (b : Buffers) (packet : Packet) : Prop :=
  ∃ p, b.pools[packet.pool]? = some p ∧ packet.index ∈ p.free.toList

/-- A slot that exists is free in pools at rest exactly when nothing holds it. -/
theorem Settled.free_iff (settled : b.Settled) {generation : UInt32}
    (exist : b.generation? packet = some generation) :
    b.Free packet ↔ b.refcount packet = 0 := by
  -- In a pool at rest, what is on the free ring is what exists and is held by nothing.
  rw [generation?_eq, Option.bind_eq_some_iff] at exist
  obtain ⟨p, found, there⟩ := exist
  obtain ⟨free, own⟩ := settled packet.pool p found
  have inside : packet.index < p.capacity := by
    rw [Pool.generation?, Option.map_eq_some_iff] at there
    obtain ⟨s, there, -⟩ := there
    exact (Array.getElem?_eq_some_iff.mp there).1
  have unheld := own.unheld packet.index
  rw [List.append_nil] at unheld
  have counted : b.refcount packet = p.refcount packet.index := by
    rw [refcount_eq, found]
    rfl
  rw [counted]
  constructor
  · rintro ⟨q, here, member⟩
    rw [found, Option.some.injEq] at here
    subst here
    rw [own.listed.toList_eq] at member
    exact (unheld.mp member).2
  · intro none
    refine ⟨p, found, ?_⟩
    rw [own.listed.toList_eq]
    exact unheld.mpr ⟨inside, none⟩

end Buffers

end PacketPlane
