import Mathlib.Data.List.Perm.Subperm
import PacketPlane.Buffer.Store
import PacketPlane.Ring.Lemmas

/-! Balance of a pool: its free ring, its reference counts and its counter of held slots agree. -/

namespace PacketPlane

namespace Pool

/-- How many references hold a slot. -/
def refcount (p : Pool) (index : Nat) : Nat :=
  -- Nothing holds a slot that does not exist.
  ((p.slots[index]?).map fun s => s.refcount.toNat).getD 0

/-- How often a slot has been released. -/
def generation? (p : Pool) (index : Nat) : Option UInt32 :=
  -- A slot that does not exist is never released.
  p.slots[index]?.map Slot.generation

/-- A pool whose free ring lists some slots, while others are on their way to or from the ring. -/
structure Balanced (p : Pool) (free moving : List Nat) : Prop where
  listed : p.free.Holds free
  distinct : (free ++ moving).Nodup
  unheld : ∀ i, i ∈ free ++ moving ↔ i < p.capacity ∧ p.refcount i = 0
  counted : p.inUse + (free ++ moving).length = p.capacity
  room : p.capacity ≤ p.free.capacity

/-- A slot that something holds exists. -/
theorem exists_of_refcount_pos {p : Pool} {index : Nat} (held : 0 < p.refcount index) :
    ∃ s, p.slots[index]? = some s ∧ s.refcount.toNat = p.refcount index := by
  -- A slot that does not exist has no references.
  cases found : p.slots[index]? with
  | none => simp [refcount, found] at held
  | some s => exact ⟨s, rfl, by simp [refcount, found]⟩

/-- A slot that something holds is below the capacity. -/
theorem lt_of_refcount_pos {p : Pool} {index : Nat} (held : 0 < p.refcount index) :
    index < p.capacity := by
  -- Slots are numbered from zero up to the capacity.
  obtain ⟨s, found, -⟩ := exists_of_refcount_pos held
  exact (Array.getElem?_eq_some_iff.mp found).1

/-- Changing one slot does not change how many there are. -/
@[simp] theorem capacity_modifySlot (p : Pool) (index : Nat) (change : Slot → Slot) :
    (p.modifySlot index change).capacity = p.capacity := by
  -- An array that is modified in place keeps its size.
  simp [modifySlot, capacity]

/-- Changing one slot changes at most the references of that slot. -/
theorem refcount_modifySlot (p : Pool) (index other : Nat) (change : Slot → Slot) :
    (p.modifySlot index change).refcount other =
      if index = other then ((p.slots[other]?).map fun s => (change s).refcount.toNat).getD 0
      else p.refcount other := by
  -- A slot that does not exist is not changed.
  simp only [refcount, modifySlot, Array.getElem?_modify]
  by_cases same : index = other
  · cases p.slots[other]? <;> simp [same]
  · simp [same]

/-- Changing one slot changes at most the releases of that slot. -/
theorem generation?_modifySlot (p : Pool) (index other : Nat) (change : Slot → Slot) :
    (p.modifySlot index change).generation? other =
      if index = other then (p.slots[other]?).map fun s => (change s).generation
      else p.generation? other := by
  -- A slot that does not exist is not changed.
  simp only [generation?, modifySlot, Array.getElem?_modify]
  by_cases same : index = other
  · cases p.slots[other]? <;> simp [same]
  · simp [same]

/-- A slot that was handed out has one reference, and the others have what they had. -/
theorem refcount_claim {p : Pool} {index : Nat} (inside : index < p.capacity) (other : Nat) :
    (p.claim index).refcount other = if other = index then 1 else p.refcount other := by
  -- The claimed slot is cleared with a count of one, and no other slot is touched.
  have found : p.slots[index]? = some p.slots[index] := Array.getElem?_eq_getElem inside
  have changed := p.refcount_modifySlot index other
    fun s => { s.cleared p.headroom with refcount := 1 }
  by_cases same : index = other
  · subst same
    simpa [claim, refcount, found] using changed
  · rw [if_neg same] at changed
    rw [if_neg (Ne.symm same)]
    exact changed

/-- Handing a slot out does not release any. -/
@[simp] theorem generation?_claim (p : Pool) (index other : Nat) :
    (p.claim index).generation? other = p.generation? other := by
  -- A cleared slot keeps its generation.
  have changed := p.generation?_modifySlot index other
    fun s => { s.cleared p.headroom with refcount := 1 }
  by_cases same : index = other
  · subst same
    rw [if_pos rfl] at changed
    exact changed
  · rw [if_neg same] at changed
    exact changed

/-- One reference more counts once, as long as the count does not wrap. -/
theorem refcount_addRef {p : Pool} {index : Nat} (held : 0 < p.refcount index)
    (small : p.refcount index + 1 < UInt32.size) (other : Nat) :
    (p.addRef index).refcount other = p.refcount other + if other = index then 1 else 0 := by
  -- The count is a 32-bit number, so the sum is exact as long as it stays below the wrap.
  obtain ⟨s, found, count⟩ := exists_of_refcount_pos held
  rw [addRef, refcount_modifySlot]
  by_cases same : index = other
  · subst same
    rw [if_pos rfl, if_pos rfl, found, ← count]
    rw [← count] at small
    simp only [Option.map_some, Option.getD_some, UInt32.toNat_add, UInt32.toNat_one]
    exact Nat.mod_eq_of_lt small
  · rw [if_neg same, if_neg (Ne.symm same)]
    rfl

/-- Sharing a slot does not release any. -/
@[simp] theorem generation?_addRef (p : Pool) (index other : Nat) :
    (p.addRef index).generation? other = p.generation? other := by
  -- Only the count of the slot is raised.
  rw [addRef, generation?_modifySlot]
  by_cases same : index = other
  · rw [if_pos same]
    rfl
  · rw [if_neg same]

/-- A reference that is given back is told to be the last when there was only one. -/
theorem unref_fst {p : Pool} {index : Nat} (held : 0 < p.refcount index) :
    (p.unref index).1 = decide (p.refcount index = 1) := by
  -- A slot that is held has a count above zero, and it is compared with one.
  obtain ⟨s, found, count⟩ := exists_of_refcount_pos held
  have one : s.refcount = 1 ↔ s.refcount.toNat = 1 := by
    rw [← UInt32.toNat_inj, UInt32.toNat_one]
  simp [unref, found, ← count, ← one, Bool.beq_eq_decide_eq]

/-- A reference that is given back counts once, and the count does not go below zero. -/
theorem refcount_unref {p : Pool} {index : Nat} (held : 0 < p.refcount index) (other : Nat) :
    (p.unref index).2.refcount other + (if other = index then 1 else 0) = p.refcount other := by
  -- A slot that is held has at least one to subtract from.
  obtain ⟨s, found, count⟩ := exists_of_refcount_pos held
  rw [unref, refcount_modifySlot]
  by_cases same : index = other
  · subst same
    have : (s.refcount - 1).toNat = s.refcount.toNat - 1 := by
      apply UInt32.toNat_sub_of_le
      rw [UInt32.le_iff_toNat_le, UInt32.toNat_one]
      omega
    rw [if_pos rfl, if_pos rfl, found, ← count, Option.map_some, Option.getD_some, this]
    omega
  · rw [if_neg same, if_neg (Ne.symm same)]
    rfl

/-- Giving a reference back does not by itself release a slot. -/
@[simp] theorem generation?_unref (p : Pool) (index other : Nat) :
    (p.unref index).2.generation? other = p.generation? other := by
  -- Only the count of the slot is lowered.
  rw [unref, generation?_modifySlot]
  by_cases same : index = other
  · rw [if_pos same]
    rfl
  · rw [if_neg same]

/-- Retiring a slot does not change its references. -/
@[simp] theorem refcount_retire (p : Pool) (index other : Nat) :
    (p.retire index).refcount other = p.refcount other := by
  -- Only the generation of the slot is raised.
  have changed := p.refcount_modifySlot index other
    fun s => { s with generation := s.generation + 1 }
  by_cases same : index = other
  · rw [if_pos same] at changed
    exact changed
  · rw [if_neg same] at changed
    exact changed

/-- Retiring a slot releases no other one. -/
theorem generation?_retire_of_ne (p : Pool) {index other : Nat} (apart : other ≠ index) :
    (p.retire index).generation? other = p.generation? other := by
  -- Another slot is not touched.
  have changed := p.generation?_modifySlot index other
    fun s => { s with generation := s.generation + 1 }
  rw [if_neg (Ne.symm apart)] at changed
  exact changed

namespace Balanced

variable {p : Pool} {free moving : List Nat} {index : Nat}

/-- Slots that nothing holds are no more than there are slots. -/
theorem length_le (balanced : p.Balanced free moving) :
    free.length + moving.length ≤ p.capacity := by
  -- Slots that nothing holds and those that are held make up all slots.
  have := balanced.counted
  rw [List.length_append] at this
  omega

/-- Balance sees only the free ring, the counts of references, and the counter of held slots. -/
theorem congr {q : Pool} (balanced : p.Balanced free moving) (ring : q.free = p.free)
    (size : q.capacity = p.capacity) (inUse : q.inUse = p.inUse)
    (counts : ∀ i, q.refcount i = p.refcount i) : q.Balanced free moving where
  -- No other part of the pool is mentioned in a balance.
  listed := ring ▸ balanced.listed
  distinct := balanced.distinct
  unheld i := by rw [balanced.unheld, size, counts]
  counted := by rw [inUse, size, balanced.counted]
  room := by rw [size, ring]; exact balanced.room

/-- Slots may go from the free ring to those on their way and back, as long as none is lost. -/
theorem shelve (balanced : p.Balanced free moving) {ring : Ring Nat} {free' moving' : List Nat}
    (listed : ring.Holds free') (size : ring.capacity = p.free.capacity)
    (perm : (free' ++ moving').Perm (free ++ moving)) :
    ({ p with free := ring } : Pool).Balanced free' moving' where
  -- Which slots nothing holds is what matters, not where they are.
  listed := listed
  distinct := perm.nodup_iff.mpr balanced.distinct
  unheld i := by rw [perm.mem_iff, balanced.unheld]; rfl
  counted := by
    rw [perm.length_eq]
    exact balanced.counted
  room := by
    rw [size]
    exact balanced.room

/-- A slot on its way from the ring may be handed out. -/
theorem claim (balanced : p.Balanced free (index :: moving)) :
    (p.claim index).Balanced free moving := by
  -- Handing it out takes it from the slots that nothing holds.
  have order : (free ++ index :: moving).Perm (index :: (free ++ moving)) := List.perm_middle
  have distinct := order.nodup_iff.mp balanced.distinct
  have listed : index ∈ free ++ index :: moving := order.mem_iff.mpr (List.mem_cons_self ..)
  have inside := ((balanced.unheld index).mp listed).1
  have size : (p.claim index).capacity = p.capacity := p.capacity_modifySlot index _
  refine ⟨balanced.listed, (List.nodup_cons.mp distinct).2, ?_, ?_, ?_⟩
  · intro i
    have others := balanced.unheld i
    rw [order.mem_iff, List.mem_cons] at others
    rw [refcount_claim inside, size]
    by_cases same : i = index
    · subst same
      simpa using (List.nodup_cons.mp distinct).1
    · rw [if_neg same, ← others]
      simp [same]
  · have counted := balanced.counted
    rw [order.length_eq, List.length_cons] at counted
    have : (p.claim index).inUse = p.inUse + 1 := rfl
    omega
  · rw [size]
    exact balanced.room

/-- A slot that is held may be shared. -/
theorem addRef (balanced : p.Balanced free moving) (held : 0 < p.refcount index)
    (small : p.refcount index + 1 < UInt32.size) : (p.addRef index).Balanced free moving := by
  -- A slot that is held stays held.
  have size : (p.addRef index).capacity = p.capacity := p.capacity_modifySlot index _
  refine ⟨balanced.listed, balanced.distinct, ?_, ?_, ?_⟩
  · intro i
    rw [balanced.unheld, size, refcount_addRef held small]
    by_cases same : i = index
    · subst same
      simp [Nat.ne_of_gt held]
    · simp [same]
  · rw [size]
    exact balanced.counted
  · rw [size]
    exact balanced.room

/-- A slot that is held more than once stays held when one reference is given back. -/
theorem unref (balanced : p.Balanced free moving) (shared : 1 < p.refcount index) :
    (p.unref index).2.Balanced free moving := by
  -- The count stays above zero, so the same slots are held as before.
  have held : 0 < p.refcount index := Nat.zero_lt_of_lt shared
  have size : (p.unref index).2.capacity = p.capacity := p.capacity_modifySlot index _
  refine ⟨balanced.listed, balanced.distinct, ?_, ?_, ?_⟩
  · intro i
    have count := refcount_unref held i
    rw [balanced.unheld, size]
    by_cases same : i = index
    · subst same
      rw [if_pos rfl] at count
      omega
    · rw [if_neg same, Nat.add_zero] at count
      rw [count]
  · rw [size]
    exact balanced.counted
  · rw [size]
    exact balanced.room

/-- A slot that lost its last reference is on its way to the ring. -/
theorem retire (balanced : p.Balanced free moving) (last : p.refcount index = 1) :
    ((p.unref index).2.retire index).Balanced free (index :: moving) := by
  -- It was held, so it was neither on the ring nor on its way.
  have held : 0 < p.refcount index := by omega
  have order : (free ++ index :: moving).Perm (index :: (free ++ moving)) := List.perm_middle
  have fresh : index ∉ free ++ moving := by
    intro member
    have := ((balanced.unheld index).mp member).2
    omega
  have distinct : (index :: (free ++ moving)).Nodup :=
    List.nodup_cons.mpr ⟨fresh, balanced.distinct⟩
  have inside := lt_of_refcount_pos held
  have size : ((p.unref index).2.retire index).capacity = p.capacity := by
    have := (p.unref index).2.capacity_modifySlot index
      fun s => { s with generation := s.generation + 1 }
    exact this.trans (p.capacity_modifySlot index _)
  refine ⟨balanced.listed, order.nodup_iff.mpr distinct, ?_, ?_, ?_⟩
  · intro i
    have count := refcount_unref held i
    rw [order.mem_iff, List.mem_cons, balanced.unheld, size, refcount_retire]
    by_cases same : i = index
    · subst same
      rw [if_pos rfl] at count
      simp only [true_or, true_iff]
      omega
    · rw [if_neg same, Nat.add_zero] at count
      rw [count]
      simp [same]
  · -- Some slot was held, so the counter does not stop at zero.
    have counted := balanced.counted
    have bound : (index :: (free ++ moving)).length ≤ p.capacity := by
      have within : index :: (free ++ moving) ⊆ List.range p.capacity := by
        intro i member
        rw [List.mem_range]
        rcases List.mem_cons.mp member with rfl | member
        · exact inside
        · exact ((balanced.unheld i).mp member).1
      have := (List.subperm_of_subset distinct within).length_le
      rwa [List.length_range] at this
    have : ((p.unref index).2.retire index).inUse = p.inUse - 1 := rfl
    rw [order.length_eq, size, this]
    rw [List.length_cons] at bound ⊢
    omega
  · rw [size]
    exact balanced.room

/-- The ring has room for a slot on its way to it, which is listed last from then on. -/
theorem enqueue (balanced : p.Balanced free (index :: moving)) :
    ∃ ring, p.free.enqueue index = .ok ring ∧
      ({ p with free := ring } : Pool).Balanced (free ++ [index]) moving := by
  -- All slots fit on the ring together, so there is room for one that is not on it.
  have room := balanced.room
  have bound := balanced.length_le
  rw [List.length_cons] at bound
  obtain ⟨ring, put, listed⟩ := balanced.listed.enqueue_ok index (by omega)
  refine ⟨ring, put, balanced.shelve listed (Ring.capacity_enqueue put) ?_⟩
  rw [List.append_assoc]
  exact List.Perm.refl _

/-- The ring has room for all slots on their way to it at once. -/
theorem enqueueWhole (balanced : p.Balanced free moving) {recycled : List Nat}
    (perm : recycled.Perm moving) :
    ∃ ring, p.free.enqueueWhole recycled = .ok ring ∧
      ({ p with free := ring } : Pool).Balanced (free ++ recycled) [] := by
  -- All slots fit on the ring together, so there is room for those that are not on it.
  have room := balanced.room
  have bound := balanced.length_le
  obtain ⟨ring, put, listed⟩ := balanced.listed.enqueueWhole_ok recycled (by
    rw [perm.length_eq]
    omega)
  refine ⟨ring, put, balanced.shelve listed (Ring.capacity_enqueueWhole put) ?_⟩
  rw [List.append_nil]
  exact List.Perm.append_left free perm

/-- A reference that is given back is counted once, and the last one puts the slot on the ring. -/
theorem release (balanced : p.Balanced free moving) (held : 0 < p.refcount index) :
    (∃ free', (p.release index).Balanced free' moving) ∧
      ∀ other, (p.release index).refcount other + (if other = index then 1 else 0)
        = p.refcount other := by
  -- The last reference retires the slot and puts it on the ring, and any other one only counts.
  have told := unref_fst held
  have counts := refcount_unref held
  rw [Pool.release]
  by_cases last : p.refcount index = 1
  · -- The retired slot finds room on the ring.
    rw [decide_eq_true last] at told
    have retired := balanced.retire last
    obtain ⟨ring, put, after⟩ := retired.enqueue
    rw [show p.unref index = (true, (p.unref index).2) from Prod.ext told rfl]
    simp only [recycle, put]
    refine ⟨⟨_, after⟩, ?_⟩
    intro other
    rw [← counts other]
    show ((p.unref index).2.retire index).refcount other + _ = _
    rw [refcount_retire]
  · rw [decide_eq_false last] at told
    rw [show p.unref index = (false, (p.unref index).2) from Prod.ext told rfl]
    exact ⟨⟨free, balanced.unref (by omega)⟩, counts⟩

/-- Giving a reference back releases no slot that is still held. -/
theorem generation?_release (balanced : p.Balanced free moving) (held : 0 < p.refcount index)
    {other : Nat} (kept : 0 < (p.release index).refcount other) :
    (p.release index).generation? other = p.generation? other := by
  -- Only a slot that loses its last reference is retired, and that is not held any more.
  have counts := (balanced.release held).2 other
  have told := unref_fst held
  rw [Pool.release] at counts kept ⊢
  by_cases last : p.refcount index = 1
  · rw [decide_eq_true last] at told
    obtain ⟨ring, put, -⟩ := (balanced.retire last).enqueue
    rw [show p.unref index = (true, (p.unref index).2) from Prod.ext told rfl] at counts kept ⊢
    simp only [recycle, put] at counts kept ⊢
    have apart : other ≠ index := by
      rintro rfl
      rw [if_pos rfl] at counts
      omega
    have retired := generation?_retire_of_ne (p.unref index).2 apart
    rw [generation?_unref] at retired
    exact retired
  · rw [decide_eq_false last] at told
    rw [show p.unref index = (false, (p.unref index).2) from Prod.ext told rfl]
    exact generation?_unref p index other

/-- The slot that has been free for longest is handed out first. -/
theorem alloc_cons (balanced : p.Balanced (index :: free) moving) :
    ∃ q, p.alloc = .ok (index, q) ∧ q.Balanced free moving ∧
      (∀ other, q.refcount other = if other = index then 1 else p.refcount other) ∧
      ∀ other, q.generation? other = p.generation? other := by
  -- The ring gives its oldest slot, which is claimed at once.
  obtain ⟨ring, taken, listed⟩ := balanced.listed.dequeue_cons
  have size := Ring.capacity_dequeue taken
  have order : (free ++ index :: moving).Perm (index :: free ++ moving) := List.perm_middle
  have inside := ((balanced.unheld index).mp (by simp)).1
  refine ⟨({ p with free := ring } : Pool).claim index, ?_, ?_, ?_, ?_⟩
  · rw [Pool.alloc, taken]
  · exact (balanced.shelve listed size order).claim
  · exact refcount_claim (p := { p with free := ring }) inside
  · exact generation?_claim { p with free := ring } index

/-- A pool without free slots hands out nothing. -/
theorem alloc_nil (balanced : p.Balanced [] moving) : p.alloc = .error .poolExhausted := by
  -- Nothing is on the ring.
  rw [Pool.alloc, balanced.listed.dequeue_nil]

/-- Slots on their way from the ring may be handed out one after another. -/
theorem claimAll {indices : List Nat} (balanced : p.Balanced free (indices ++ moving)) :
    (p.claimAll indices).Balanced free moving ∧
      (∀ other, (p.claimAll indices).refcount other =
        if other ∈ indices then 1 else p.refcount other) ∧
      ∀ other, (p.claimAll indices).generation? other = p.generation? other := by
  -- Each slot leaves those on their way as it is handed out.
  induction indices generalizing p with
  | nil => exact ⟨balanced, fun other => by simp [Pool.claimAll], fun other => rfl⟩
  | cons index rest ih =>
    rw [List.cons_append] at balanced
    have inside := ((balanced.unheld index).mp (by simp)).1
    obtain ⟨after, counts, generations⟩ := ih balanced.claim
    refine ⟨after, ?_, ?_⟩
    · intro other
      show ((p.claim index).claimAll rest).refcount other = _
      rw [counts, refcount_claim inside]
      by_cases later : other ∈ rest
      · simp [later]
      · simp [later]
    · intro other
      show ((p.claim index).claimAll rest).generation? other = _
      rw [generations, generation?_claim]

/-- As many slots as are asked for are handed out when that many are free. -/
theorem allocBulk_ok (balanced : p.Balanced free moving) {count : Nat}
    (enough : count ≤ free.length) :
    ∃ q, p.allocBulk count = .ok (free.take count, q) ∧ q.Balanced (free.drop count) moving ∧
      (∀ other, q.refcount other = if other ∈ free.take count then 1 else p.refcount other) ∧
      ∀ other, q.generation? other = p.generation? other := by
  -- The ring gives as many slots as are asked for, its oldest first, and all of them are claimed.
  obtain ⟨ring, taken, listed⟩ := balanced.listed.dequeueWhole_ok count enough
  have size := Ring.capacity_dequeueWhole taken
  have bound := balanced.length_le
  have order : (free.drop count ++ (free.take count ++ moving)).Perm (free ++ moving) := by
    rw [← List.append_assoc]
    apply List.Perm.append_right
    exact List.perm_append_comm.trans (by rw [List.take_append_drop])
  refine ⟨({ p with free := ring } : Pool).claimAll (free.take count), ?_,
    (balanced.shelve listed size order).claimAll⟩
  rw [Pool.allocBulk, if_neg (by omega), taken]

/-- Nothing is handed out when more is asked for than is free. -/
theorem allocBulk_error (balanced : p.Balanced free moving) {count : Nat}
    (short : free.length < count) : p.allocBulk count = .error .poolExhausted := by
  -- A ring that is asked for all or nothing gives nothing.
  rw [Pool.allocBulk]
  split
  · rfl
  · rw [balanced.listed.dequeueWhole_empty count short]

/-- The counter of held slots is the number of slots that something holds. -/
theorem inUse_eq (balanced : p.Balanced free []) :
    p.inUse = p.slots.countP (fun s => s.refcount ≠ 0) := by
  -- The free ring lists the other slots, each once.
  have counted := balanced.counted
  have distinct := balanced.distinct
  have unheld := balanced.unheld
  rw [List.append_nil] at counted distinct unheld
  let idle := (List.range p.capacity).filter fun i => p.refcount i = 0
  have perm : free.Perm idle := by
    rw [List.perm_ext_iff_of_nodup distinct (List.nodup_range.filter _)]
    intro i
    simp [unheld]
  -- Counting slots by their own field is counting indices by their refcount.
  have slots : p.slots.toList.map (fun s => s.refcount.toNat) =
      (List.range p.capacity).map p.refcount := by
    apply List.ext_getElem
    · simp [capacity]
    · intro i inside _
      have inside : i < p.slots.size := by simpa using inside
      simp [refcount, Array.getElem?_eq_getElem inside]
  have zero : (fun s : Slot => decide (s.refcount = 0)) =
      (fun n : Nat => decide (n = 0)) ∘ fun s : Slot => s.refcount.toNat := by
    funext s
    simp [← UInt32.toNat_inj]
  have count : p.slots.toList.countP (fun s => s.refcount = 0) = free.length := by
    rw [perm.length_eq, ← List.countP_eq_length_filter, zero, ← List.countP_map, slots,
      List.countP_map]
    rfl
  -- What is not idle is the rest of all slots.
  have split := p.slots.toList.length_eq_countP_add_countP fun s => s.refcount = 0
  have size : p.slots.toList.length = p.capacity := by simp [capacity]
  have rest : p.slots.countP (fun s => s.refcount ≠ 0) =
      p.slots.toList.countP fun s => ¬ decide (s.refcount = 0) = true := by
    rw [← Array.countP_toList]
    simp
  omega

/-- As many slots are free as nothing holds. -/
theorem available_eq (balanced : p.Balanced free moving) : p.available = free.length := by
  -- What is available is what the ring counts.
  exact balanced.listed.count_eq

end Balanced

/-- A pool whose slots are all unused is balanced when its free ring lists all of them. -/
theorem balanced_of_unused {p : Pool} {s : Slot} (slots : p.slots = Array.replicate p.capacity s)
    (unused : s.refcount = 0) (listed : p.free.Holds (List.range p.capacity))
    (inUse : p.inUse = 0) (room : p.capacity ≤ p.free.capacity) :
    p.Balanced (List.range p.capacity) [] ∧ ∀ i, p.refcount i = 0 := by
  -- Every slot is on the ring, and none is held.
  have zero : ∀ i, p.refcount i = 0 := by
    intro i
    rw [refcount, slots, Array.getElem?_replicate]
    split
    · simp [unused]
    · rfl
  refine ⟨⟨listed, ?_, ?_, ?_, room⟩, zero⟩
  · simpa using List.nodup_range
  · intro i
    simp [zero]
  · simp [inUse]

/-- A new pool lists all of its slots as free, and nothing holds any of them. -/
theorem balanced_make {name : String} {s : PoolSettings}
    {reserve : Nat → Option UInt32 → Except Fault Region} {p : Pool}
    (made : make name s reserve = .ok p) :
    p.Balanced (List.range p.capacity) [] ∧ ∀ i, p.refcount i = 0 := by
  -- Of the checks, only the last matters here: all slots found room on the free ring.
  unfold make at made
  split at made
  · cases made
  · dsimp only at made
    split at made
    · cases made
    · split at made
      · cases made
      · rename_i ring fresh
        have empty := Ring.holds_make fresh
        split at made
        · cases made
        · rename_i free put
          cases made
          -- A ring too small for all indices would have refused them.
          have room : s.capacity.toNat ≤ ring.capacity := by
            by_contra narrow
            rw [empty.enqueueWhole_full _ (by simpa using narrow)] at put
            cases put
          obtain ⟨after, put', listed⟩ :=
            empty.enqueueWhole_ok (List.range s.capacity.toNat) (by simpa using room)
          rw [put, Except.ok.injEq] at put'
          subst put'
          have size := Ring.capacity_enqueueWhole put
          apply balanced_of_unused
          · simp only [capacity, Array.size_replicate]
            rfl
          · rfl
          · simpa [capacity] using listed
          · rfl
          · simpa [capacity, size] using room

/-- A pool can be made of settings without fault when its region is reserved and its free ring is
not too large. -/
theorem make_ok {name : String} {s : PoolSettings}
    {reserve : Nat → Option UInt32 → Except Fault Region} {region : Region}
    (fine : s.fault? = none)
    (reserved : reserve (s.capacity.toNat * alignUp s.dataRoom.toNat) s.numaNode = .ok region)
    (small : s.capacity.toNat.nextPowerOfTwo ≤ maxRingCapacity)
    (wide : s.capacity.toNat ≤ s.capacity.toNat.nextPowerOfTwo) :
    ∃ p, make name s reserve = .ok p ∧ p.capacity = s.capacity.toNat := by
  -- The only steps left that can fail are the free ring and filling it.
  have power := Nat.isPowerOfTwo_nextPowerOfTwo s.capacity.toNat
  have made : ∃ ring : Ring Nat,
      Ring.make s!"{name}-free" s.capacity.toNat.nextPowerOfTwo = .ok ring :=
    Ring.make_ok_iff.mpr ⟨power, small⟩
  obtain ⟨ring, fresh⟩ := made
  have size : ring.capacity = s.capacity.toNat.nextPowerOfTwo := Ring.capacity_make fresh
  obtain ⟨free, put, -⟩ := (Ring.holds_make fresh).enqueueWhole_ok (List.range s.capacity.toNat)
    (by simpa [size] using wide)
  simp only [make, fine, reserved, fresh, put]
  exact ⟨_, rfl, by simp [capacity]⟩

end Pool

end PacketPlane
