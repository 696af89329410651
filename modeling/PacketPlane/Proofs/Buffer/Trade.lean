import Mathlib.Data.List.Nodup
import Mathlib.Data.List.Count
import PacketPlane.Proofs.Buffer.Balance

/-! Trades: which references each operation on the buffers of a data plane gains and gives back. -/

namespace PacketPlane

namespace Buffers

/-- How often a packet's slot has been released. -/
def generation? (b : Buffers) (packet : Packet) : Option UInt32 :=
  -- A slot that does not exist is never released.
  (b.slot? packet).map Slot.generation

/-- Pools that are balanced, with slots of one of them on their way to or from its free ring. -/
def Balanced (b : Buffers) (pool : Nat) (moving : List Nat) : Prop :=
  -- Every other pool is at rest.
  ∀ (k : Nat) (p : Pool), b.pools[k]? = some p →
    ∃ free, p.Balanced free (if k = pool then moving else [])

/-- Pools that are balanced and at rest. -/
def Settled (b : Buffers) : Prop :=
  ∀ (k : Nat) (p : Pool), b.pools[k]? = some p → ∃ free, p.Balanced free []

/-- What became of the references to slots between two states of the buffers. A slot that is still
held has not been released meanwhile. -/
structure Trades (before after : Buffers) (gained lost : List Packet) : Prop where
  counted : ∀ packet,
    after.refcount packet + lost.count packet = before.refcount packet + gained.count packet
  kept : ∀ packet, 0 < after.refcount packet → after.generation? packet = before.generation? packet

/-- The references of a packet are those that its pool counts. -/
theorem refcount_eq (b : Buffers) (packet : Packet) :
    b.refcount packet = ((b.pools[packet.pool]?).map (·.refcount packet.index)).getD 0 := by
  -- Without the pool or without the slot, nothing is counted on either side.
  cases found : b.pools[packet.pool]? with
  | none => simp [refcount, slot?, found]
  | some p => cases inner : p.slots[packet.index]? <;>
      simp [refcount, slot?, found, inner, Pool.refcount]

/-- The releases of a packet's slot are those that its pool counts. -/
theorem generation?_eq (b : Buffers) (packet : Packet) :
    b.generation? packet = (b.pools[packet.pool]?).bind (·.generation? packet.index) := by
  -- Without the pool or without the slot, there is no generation on either side.
  cases found : b.pools[packet.pool]? with
  | none => simp [generation?, slot?, found]
  | some p => cases inner : p.slots[packet.index]? <;>
      simp [generation?, slot?, found, inner, Pool.generation?]

/-- A packet that something holds has its slot in a pool. -/
theorem pool_of_refcount_pos {b : Buffers} {packet : Packet} (held : 0 < b.refcount packet) :
    ∃ p, b.pools[packet.pool]? = some p ∧ p.refcount packet.index = b.refcount packet := by
  -- Nothing is counted for a packet of a pool that does not exist.
  rw [refcount_eq] at held ⊢
  cases found : b.pools[packet.pool]? with
  | none => simp [found] at held
  | some p => exact ⟨p, rfl, rfl⟩

/-- Pools at rest are balanced with nothing on its way. -/
theorem balanced_nil {b : Buffers} {pool : Nat} : b.Balanced pool [] ↔ b.Settled := by
  -- With nothing on its way, no pool is an exception.
  simp [Balanced, Settled]

/-- One pool replaced by a later state of itself. -/
def setPool (b : Buffers) (pool : Nat) (p : Pool) : Buffers :=
  { b with pools := b.pools.setIfInBounds pool p }

/-- A pool that exists is changed by replacing it. -/
theorem modifyPool_eq {b : Buffers} {pool : Nat} {p : Pool} (found : b.pools[pool]? = some p)
    (change : Pool → Pool) : b.modifyPool pool change = b.setPool pool (change p) := by
  -- Both agree at every number.
  rw [modifyPool, setPool, Buffers.mk.injEq]
  apply Array.ext_getElem?
  intro i
  rw [Array.getElem?_modify, Array.getElem?_setIfInBounds]
  by_cases same : pool = i
  · subst same
    have inside := (Array.getElem?_eq_some_iff.mp found).1
    rw [if_pos rfl, if_pos rfl, if_pos inside, found, Option.map_some]
  · simp [same]

/-- A pool that does not exist is not changed. -/
theorem modifyPool_none {b : Buffers} {pool : Nat} (absent : b.pools[pool]? = none)
    (change : Pool → Pool) : b.modifyPool pool change = b := by
  -- Pool by pool, and the one that would be changed is not among them.
  have same : b.pools.modify pool change = b.pools := by
    apply Array.ext_getElem?
    intro i
    rw [Array.getElem?_modify]
    by_cases same : pool = i
    · subst same
      simp [absent]
    · simp [same]
  rw [modifyPool, same]

/-- Replacing a pool that exists leaves the other pools as they are. -/
theorem pools_setPool {b : Buffers} {pool : Nat} {p : Pool} (found : b.pools[pool]? = some p)
    (q : Pool) (k : Nat) :
    (b.setPool pool q).pools[k]? = if k = pool then some q else b.pools[k]? := by
  -- The place exists, so what is put there is found there.
  have inside := (Array.getElem?_eq_some_iff.mp found).1
  simp only [setPool, Array.getElem?_setIfInBounds, inside, if_true]
  by_cases same : k = pool
  · simp [same]
  · simp [same, Ne.symm same]

section Replaced

variable {b : Buffers} {pool k : Nat} {moving : List Nat} {p q : Pool}

/-- References after one pool was replaced. -/
theorem refcount_setPool (found : b.pools[k]? = some p) (packet : Packet) :
    (b.setPool k q).refcount packet =
      if packet.pool = k then q.refcount packet.index else b.refcount packet := by
  -- Packets of other pools are counted by their own pools.
  rw [refcount_eq, pools_setPool found]
  by_cases same : packet.pool = k
  · simp [same]
  · rw [if_neg same, if_neg same, ← refcount_eq]

/-- Releases after one pool was replaced. -/
theorem generation?_setPool (found : b.pools[k]? = some p) (packet : Packet) :
    (b.setPool k q).generation? packet =
      if packet.pool = k then q.generation? packet.index else b.generation? packet := by
  -- Packets of other pools have their generations in their own pools.
  rw [generation?_eq, pools_setPool found]
  by_cases same : packet.pool = k
  · simp [same]
  · rw [if_neg same, if_neg same, ← generation?_eq]

/-- Balance is kept by a pool that keeps its own, with the same slots on their way. -/
theorem Balanced.setPool (balanced : b.Balanced pool moving) (found : b.pools[k]? = some p)
    (after : ∃ free, q.Balanced free (if k = pool then moving else [])) :
    (b.setPool k q).Balanced pool moving := by
  -- Pool by pool, and the one that was replaced is balanced by assumption.
  intro i r here
  rw [pools_setPool found] at here
  by_cases same : i = k
  · rw [if_pos same, Option.some.injEq] at here
    rw [← here, same]
    exact after
  · rw [if_neg same] at here
    exact balanced i r here

/-- Balance is kept by the pool whose slots are on their way, with other slots on their way. -/
theorem Balanced.setMoving (balanced : b.Balanced pool moving) (found : b.pools[pool]? = some p)
    {moving' : List Nat} (after : ∃ free, q.Balanced free moving') :
    (b.setPool pool q).Balanced pool moving' := by
  -- The slots on their way are those of the replaced pool, so no other pool has an exception to lose.
  intro i r here
  rw [pools_setPool found] at here
  by_cases same : i = pool
  · rw [if_pos same, Option.some.injEq] at here
    rw [← here, if_pos same]
    exact after
  · rw [if_neg same] at here ⊢
    have other := balanced i r here
    rwa [if_neg same] at other

/-- What one pool gained and lost is what all of them together did. -/
theorem Trades.setPool (found : b.pools[k]? = some p) {gained lost : List Packet}
    (own : ∀ packet ∈ gained ++ lost, packet.pool = k)
    (counted : ∀ i, q.refcount i + lost.count ⟨k, i⟩ = p.refcount i + gained.count ⟨k, i⟩)
    (kept : ∀ i, 0 < q.refcount i → q.generation? i = p.generation? i) :
    Trades b (b.setPool k q) gained lost := by
  -- Packets of the pool are counted there, and packets of others are neither gained nor lost.
  constructor
  · intro packet
    rw [refcount_setPool found]
    by_cases same : packet.pool = k
    · subst same
      rw [if_pos rfl, counted packet.index, refcount_eq, found]
      rfl
    · have absent : packet ∉ gained ++ lost := fun member => same (own packet member)
      rw [List.mem_append, not_or] at absent
      rw [if_neg same, List.count_eq_zero_of_not_mem absent.1,
        List.count_eq_zero_of_not_mem absent.2]
  · intro packet held
    rw [refcount_setPool found] at held
    rw [generation?_setPool found]
    by_cases same : packet.pool = k
    · subst same
      rw [if_pos rfl] at held ⊢
      rw [kept packet.index held, generation?_eq, found]
      rfl
    · rw [if_neg same]

end Replaced

/-- Nothing gained and nothing lost. -/
theorem Trades.refl (b : Buffers) : Trades b b [] [] :=
  ⟨fun _ => rfl, fun _ _ => rfl⟩

/-- References may be given back after others were. -/
theorem Trades.lose {b middle after : Buffers} {gained lost more : List Packet}
    (first : Trades b middle gained lost) (second : Trades middle after [] more) :
    Trades b after gained (lost ++ more) := by
  -- What is still held at the end was held in the middle.
  constructor
  · intro packet
    have one := first.counted packet
    have two := second.counted packet
    rw [List.count_nil] at two
    rw [List.count_append]
    omega
  · intro packet held
    have two := second.counted packet
    rw [List.count_nil] at two
    rw [second.kept packet held, first.kept packet (by omega)]

/-- A packet alone counts once at its own slot. -/
theorem count_singleton_packet (packet : Packet) (i : Nat) :
    [packet].count ⟨packet.pool, i⟩ = if i = packet.index then 1 else 0 := by
  -- Packets of one pool differ just if their indices do.
  by_cases same : i = packet.index
  · subst same
    simp
  · rw [if_neg same, List.count_eq_zero_of_not_mem]
    intro member
    exact same (congrArg Packet.index (List.mem_singleton.mp member))

section Operations

variable {b : Buffers} {pool : Nat} {moving : List Nat}

/-- A reference that is given back is lost once. -/
theorem release_trades (balanced : b.Balanced pool moving) {packet : Packet}
    (held : 0 < b.refcount packet) :
    (b.release packet).Balanced pool moving ∧ Trades b (b.release packet) [] [packet] := by
  -- The pool of the packet stays balanced, and its count of this one index goes down by one.
  obtain ⟨p, found, count⟩ := pool_of_refcount_pos held
  rw [← count] at held
  obtain ⟨free, own⟩ := balanced packet.pool p found
  obtain ⟨after, counts⟩ := own.release held
  rw [release, modifyPool_eq found]
  refine ⟨balanced.setPool found after, Trades.setPool found ?_ ?_ ?_⟩
  · simp
  · intro i
    rw [count_singleton_packet, counts]
    rfl
  · intro i kept
    exact own.generation?_release held kept

/-- A packet that is shared gains one reference. -/
theorem addRef_trades (balanced : b.Balanced pool moving) {packet : Packet}
    (held : 0 < b.refcount packet) (small : b.refcount packet + 1 < UInt32.size) :
    (b.addRef packet).Balanced pool moving ∧ Trades b (b.addRef packet) [packet] [] := by
  -- The pool of the packet stays balanced, since its count stays below what 32 bits hold.
  obtain ⟨p, found, count⟩ := pool_of_refcount_pos held
  rw [← count] at held small
  obtain ⟨free, own⟩ := balanced packet.pool p found
  rw [addRef, modifyPool_eq found]
  refine ⟨balanced.setPool found ⟨free, own.addRef held small⟩, Trades.setPool found ?_ ?_ ?_⟩
  · simp
  · intro i
    rw [count_singleton_packet, Pool.refcount_addRef held small]
    rfl
  · intro i _
    exact p.generation?_addRef packet.index i

/-- A packet that is handed out had no references, and has one from then on. -/
theorem alloc_trades (balanced : b.Balanced pool moving) {k : Nat} {packet : Packet}
    {after : Buffers} (handed : b.alloc k = .ok (packet, after)) :
    b.refcount packet = 0 ∧ after.Balanced pool moving ∧ Trades b after [packet] [] := by
  -- By cases on the free list: its first index is handed out, and an empty list refuses.
  unfold alloc tryPool at handed
  cases found : b.pools[k]? with
  | none => simp [found] at handed
  | some p =>
    obtain ⟨free, own⟩ := balanced k p found
    cases free with
    | nil => simp [found, own.alloc_nil] at handed
    | cons index free =>
      obtain ⟨q, taken, rest, counts, generations⟩ := own.alloc_cons
      simp only [found, taken, Except.ok.injEq, Prod.mk.injEq] at handed
      obtain ⟨rfl, rfl⟩ := handed
      have idle : p.refcount index = 0 := ((own.unheld index).mp (by simp)).2
      refine ⟨by rw [refcount_eq]; simp [found, idle], balanced.setPool found ⟨free, rest⟩,
        Trades.setPool found (by simp) ?_ (fun i _ => generations i)⟩
      intro i
      rw [count_singleton_packet ⟨k, index⟩, counts]
      by_cases same : i = index
      · simp [same, idle]
      · simp [same]

/-- An index is listed as often among packets of one pool as it is among their indices. -/
theorem count_map_packet (k i : Nat) (indices : List Nat) :
    (indices.map fun index => (⟨k, index⟩ : Packet)).count ⟨k, i⟩ = indices.count i := by
  -- Packets of one pool differ just if their indices do.
  refine List.count_map_of_injective indices (fun index => (⟨k, index⟩ : Packet)) ?_ i
  intro first second same
  simpa using same

/-- Packets that are handed out together are different ones, had no references, and have one each
from then on. -/
theorem allocBulk_trades (balanced : b.Balanced pool moving) {k count : Nat}
    {packets : List Packet} {after : Buffers}
    (handed : b.allocBulk k count = .ok (packets, after)) :
    packets.Nodup ∧ (∀ packet ∈ packets, b.refcount packet = 0) ∧
      after.Balanced pool moving ∧ Trades b after packets [] := by
  -- The free list holds enough or refuses, and it lists no index twice.
  unfold allocBulk tryPool at handed
  cases found : b.pools[k]? with
  | none => simp [found] at handed
  | some p =>
    obtain ⟨free, own⟩ := balanced k p found
    by_cases short : free.length < count
    · simp [found, own.allocBulk_error short] at handed
    · obtain ⟨q, taken, rest, counts, generations⟩ := own.allocBulk_ok (Nat.not_lt.mp short)
      simp only [found, taken, Except.ok.injEq, Prod.mk.injEq] at handed
      obtain ⟨rfl, rfl⟩ := handed
      -- The indices handed out are the front of the free list.
      have distinct : (free.take count).Nodup :=
        (List.take_sublist count free).nodup (List.nodup_append.mp own.distinct).1
      have idle : ∀ i ∈ free.take count, p.refcount i = 0 := by
        intro i member
        exact ((own.unheld i).mp (List.mem_append_left _ (List.mem_of_mem_take member))).2
      refine ⟨?_, ?_, balanced.setPool found ⟨free.drop count, rest⟩,
        Trades.setPool found ?_ ?_ (fun i _ => generations i)⟩
      · refine List.Nodup.map ?_ distinct
        intro first second same
        simpa using same
      · intro packet member
        obtain ⟨index, listed, rfl⟩ := List.mem_map.mp member
        rw [refcount_eq]
        simp [found, idle index listed]
      · intro packet member
        rw [List.append_nil] at member
        obtain ⟨index, -, rfl⟩ := List.mem_map.mp member
        rfl
      · intro i
        rw [count_map_packet, counts, List.count_nil, Nat.add_zero]
        -- A listed index had no references and has one now. Another keeps what it had.
        by_cases listed : i ∈ free.take count
        · rw [if_pos listed, idle i listed, List.count_eq_one_of_mem distinct listed]
        · rw [if_neg listed, List.count_eq_zero_of_not_mem listed, Nat.add_zero]

end Operations

/-- A pool added that nothing holds any slot of. -/
theorem addPool_trades {b : Buffers} (settled : b.Settled) {p : Pool} {free : List Nat}
    (own : p.Balanced free []) (unused : ∀ i, p.refcount i = 0) :
    (b.addPool p).2.Settled ∧ Trades b (b.addPool p).2 [] [] := by
  -- The new pool comes last, and packets of older pools are still counted where they were.
  refine ⟨?_, ?_, ?_⟩
  · intro k q found
    rw [addPool, Array.getElem?_push] at found
    split at found
    · cases found
      exact ⟨free, own⟩
    · exact settled k q found
  · intro packet
    rw [refcount_eq, refcount_eq, addPool, Array.getElem?_push]
    split
    · rename_i last
      simp [last, unused]
    · rfl
  · intro packet held
    rw [refcount_eq, addPool, Array.getElem?_push] at held
    rw [generation?_eq, generation?_eq, addPool, Array.getElem?_push]
    split at held
    · simp [unused] at held
    · rename_i older
      rw [if_neg older]

section Bulk

variable {b : Buffers} {pool : Nat}

/-- What becomes of one packet that is given back among others through a pool: a foreign one is
released at once, and a slot of the pool that lost its last reference is on its way to the free
ring. -/
inductive Returns (b : Buffers) (pool : Nat) (recycled : List Nat) (packet : Packet) :
    List Nat → Buffers → Prop
  | foreign (apart : packet.pool ≠ pool) :
    Returns b pool recycled packet recycled (b.release packet)
  | last {p : Pool} (own : packet.pool = pool) (found : b.pools[pool]? = some p)
    (one : p.refcount packet.index = 1) :
    Returns b pool recycled packet (packet.index :: recycled)
      (b.setPool pool ((p.unref packet.index).2.retire packet.index))
  | shared {p : Pool} (own : packet.pool = pool) (found : b.pools[pool]? = some p)
    (several : 1 < p.refcount packet.index) :
    Returns b pool recycled packet recycled (b.setPool pool (p.unref packet.index).2)

/-- Packets that somebody holds are given back front first. -/
theorem freeEach_cons {packet : Packet} (held : 0 < b.refcount packet) (recycled : List Nat)
    (foreign : Option Nat) (rest : List Packet) :
    ∃ recycled' after, Returns b pool recycled packet recycled' after ∧
      freeEach pool recycled foreign b (packet :: rest) = freeEach pool recycled'
        (if packet.pool = pool then foreign else foreign <|> some packet.index) after rest := by
  -- By cases on the packet: it is foreign, or its last reference goes, or another one stays.
  rw [freeEach]
  by_cases own : packet.pool = pool
  · subst own
    obtain ⟨p, found, count⟩ := pool_of_refcount_pos held
    rw [← count] at held
    have told := Pool.unref_fst held
    rw [if_neg (not_not_intro rfl), if_pos rfl]
    simp only [found]
    by_cases last : p.refcount packet.index = 1
    · rw [decide_eq_true last] at told
      rw [show p.unref packet.index = (true, (p.unref packet.index).2) from Prod.ext told rfl]
      exact ⟨_, _, .last rfl found last, rfl⟩
    · rw [decide_eq_false last] at told
      rw [show p.unref packet.index = (false, (p.unref packet.index).2) from Prod.ext told rfl]
      exact ⟨_, _, .shared rfl found (by omega), rfl⟩
  · rw [if_pos own, if_neg own]
    exact ⟨_, _, .foreign own, rfl⟩

/-- A packet that is given back among others is lost once. -/
theorem Returns.trades {recycled recycled' : List Nat} {packet : Packet} {after : Buffers}
    (returns : Returns b pool recycled packet recycled' after) (balanced : b.Balanced pool recycled)
    (held : 0 < b.refcount packet) :
    after.Balanced pool recycled' ∧ Trades b after [] [packet] := by
  -- By cases on how the packet went back: only a last reference leaves an index on its way.
  cases returns with
  | foreign apart => exact release_trades balanced held
  | @last p own found one =>
    subst own
    obtain ⟨free, atRest⟩ := balanced packet.pool p found
    rw [if_pos rfl] at atRest
    have counts := Pool.refcount_unref (one ▸ Nat.one_pos : 0 < p.refcount packet.index)
    refine ⟨balanced.setMoving found ⟨free, atRest.retire one⟩, Trades.setPool found ?_ ?_ ?_⟩
    · simp
    · intro i
      rw [count_singleton_packet, Pool.refcount_retire, counts]
      rfl
    · intro i kept
      have count := counts i
      rw [Pool.refcount_retire] at kept
      -- An index that is still held is not the one that went.
      have apart : i ≠ packet.index := by
        rintro rfl
        rw [if_pos rfl] at count
        omega
      rw [Pool.generation?_retire_of_ne _ apart, Pool.generation?_unref]
  | @shared p own found several =>
    subst own
    obtain ⟨free, atRest⟩ := balanced packet.pool p found
    rw [if_pos rfl] at atRest
    have counts := Pool.refcount_unref (Nat.zero_lt_of_lt several)
    refine ⟨balanced.setMoving found ⟨free, atRest.unref several⟩, Trades.setPool found ?_ ?_ ?_⟩
    · simp
    · intro i
      rw [count_singleton_packet, counts]
      rfl
    · intro i _
      exact p.generation?_unref packet.index i

/-- What is left to give back stays owned when the packet before it has been given back. -/
theorem Trades.left {packet : Packet} {rest : List Packet} {after : Buffers}
    (traded : Trades b after [] [packet])
    (owned : ∀ other, (packet :: rest).count other ≤ b.refcount other) (other : Packet) :
    rest.count other ≤ after.refcount other := by
  -- The packet that was given back had one reference more than the others need.
  have owns := owned other
  have count := traded.counted other
  rw [List.count_cons] at owns
  rw [List.count_singleton, List.count_nil] at count
  omega

/-- References given back one by one are each lost once, and the slots that lost their last one are
on their way to the free ring of their pool. -/
theorem freeEach_trades {recycled : List Nat} (foreign : Option Nat) {packets : List Packet}
    (balanced : b.Balanced pool recycled)
    (owned : ∀ packet, packets.count packet ≤ b.refcount packet) :
    (freeEach pool recycled foreign b packets).2.2.Balanced pool
        (freeEach pool recycled foreign b packets).1.reverse ∧
      Trades b (freeEach pool recycled foreign b packets).2.2 [] packets := by
  -- What is left to give back stays owned while the packets before it are given back.
  induction packets generalizing b recycled foreign with
  | nil =>
    rw [freeEach, List.reverse_reverse]
    exact ⟨balanced, Trades.refl b⟩
  | cons packet rest ih =>
    have held : 0 < b.refcount packet := by
      have := owned packet
      rw [List.count_cons_self] at this
      omega
    obtain ⟨recycled', after, returns, step⟩ := freeEach_cons held recycled foreign rest
    obtain ⟨balanced', traded⟩ := returns.trades balanced held
    rw [step]
    obtain ⟨settled, others⟩ := ih _ balanced' (traded.left owned)
    exact ⟨settled, traded.lose others⟩

/-- The free ring has room for all slots on their way to it at once. -/
theorem Balanced.enqueueWhole {recycled : List Nat} (balanced : b.Balanced pool recycled.reverse)
    {p : Pool} (found : b.pools[pool]? = some p) :
    ∃ ring, p.free.enqueueWhole recycled = .ok ring ∧
      (b.setPool pool { p with free := ring }).Settled ∧
      Trades b (b.setPool pool { p with free := ring }) [] [] := by
  -- Slots on their way are not on the free ring, so together they are at most all slots.
  obtain ⟨free, own⟩ := balanced pool p found
  rw [if_pos rfl] at own
  obtain ⟨ring, put, after⟩ := own.enqueueWhole recycled.reverse_perm.symm
  refine ⟨ring, put, ?_, Trades.setPool found (by simp) (fun i => rfl) (fun i _ => rfl)⟩
  exact balanced_nil.mp (balanced.setMoving found ⟨_, after⟩)

/-- References given back in bulk are each lost once. -/
theorem freeBulk_trades (pool : Nat) (settled : b.Settled) {packets : List Packet}
    (owned : ∀ packet, packets.count packet ≤ b.refcount packet) :
    (b.freeBulk pool packets).2.Settled ∧ Trades b (b.freeBulk pool packets).2 [] packets := by
  have atRest : b.Balanced pool [] := balanced_nil.mpr settled
  obtain ⟨balanced, traded⟩ := freeEach_trades none atRest owned
  -- The pool changes as soon as its free ring takes the slots.
  obtain ⟨change, changed, stored⟩ : ∃ change : Pool → Pool,
      (∀ p free, p.free.enqueueWhole (freeEach pool [] none b packets).1 = .ok free →
        change p = { p with free }) ∧
      (b.freeBulk pool packets).2 =
        (freeEach pool [] none b packets).2.2.modifyPool pool change := by
    simp only [freeBulk]
    refine ⟨_, ?_, by cases (freeEach pool [] none b packets).2.1 <;> rfl⟩
    intro p free put
    simp only [put]
  rw [stored]
  cases found : (freeEach pool [] none b packets).2.2.pools[pool]? with
  | none =>
    rw [modifyPool_none found]
    refine ⟨?_, traded⟩
    intro k p here
    have apart : k ≠ pool := by
      rintro rfl
      rw [found] at here
      cases here
    simpa [apart] using balanced k p here
  | some p =>
    obtain ⟨ring, put, after, nothing⟩ := balanced.enqueueWhole found
    rw [modifyPool_eq found, changed p ring put]
    refine ⟨after, ?_⟩
    have := traded.lose nothing
    rwa [List.append_nil] at this

end Bulk

end Buffers

end PacketPlane
