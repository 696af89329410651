import PacketPlane.Proofs.Buffer.Isolation
import PacketPlane.Proofs.Ring.Bulk

/-! Bulk calls on pools: packets that are handed out or given back together leave the same pools as
one after another. -/

namespace PacketPlane

/-- Packets handed out one after another. -/
def Buffers.allocEach (b : Buffers) (pool : Nat) : Nat → Except Fault (List Packet × Buffers)
  -- The first refusal ends it.
  | 0 => .ok ([], b)
  | count + 1 =>
    match b.alloc pool with
    | .error fault => .error fault
    | .ok (packet, b) =>
      match b.allocEach pool count with
      | .error fault => .error fault
      | .ok (packets, b) => .ok (packet :: packets, b)

/-- Packets given back one after another through a pool. -/
def Buffers.freeAll (b : Buffers) (pool : Nat) (packets : List Packet) : Buffers :=
  -- What the pool says about each of them is not looked at.
  packets.foldl (fun b packet => (b.free pool packet).2) b

namespace Pool

variable {p : Pool} {free moving : List Nat}

/-- Slots put back on the free ring together, when it has room for them. -/
def restock (p : Pool) (recycled : List Nat) : Pool :=
  match p.free.enqueueWhole recycled with
  | .ok free => { p with free }
  | .error _ => p

/-- Handing several slots out at once is handing out the one that is free for longest and then the
others. -/
theorem Balanced.allocBulk_succ (balanced : p.Balanced free moving) {count : Nat}
    (enough : count < free.length) :
    ∃ index first rest after, p.alloc = .ok (index, first) ∧ first.available + 1 = p.available ∧
      first.allocBulk count = .ok (rest, after) ∧
      p.allocBulk (count + 1) = .ok (index :: rest, after) := by
  -- The ring gives its first slot and then the others, whether it is asked once or twice.
  have bound := balanced.length_le
  obtain ⟨index, ring, rest, last, one, others, whole⟩ := balanced.listed.dequeueWhole_succ enough
  let first := ({ p with free := ring } : Pool).claim index
  have size : first.capacity = p.capacity := p.capacity_modifySlot index _
  have handed : p.alloc = .ok (index, first) := by
    rw [alloc, one]
  refine ⟨index, first, rest, ({ first with free := last } : Pool).claimAll rest, handed,
    ?_, ?_, ?_⟩
  · cases free with
    | nil => simp at enough
    | cons oldest others =>
      obtain ⟨q, same, after, -⟩ := balanced.alloc_cons
      rw [handed, Except.ok.injEq, Prod.mk.injEq] at same
      rw [same.2, after.available_eq, balanced.available_eq, List.length_cons]
  · have taken : first.free.dequeueWhole count = .ok (rest, last) := others
    rw [allocBulk, if_neg (by omega), taken]
  · rw [allocBulk, if_neg (by omega), whole]
    rfl

/-- A pool whose free ring has room for slots on their way to it takes them there. -/
theorem Balanced.restock_eq {recycled : List Nat} (balanced : p.Balanced free recycled) :
    ∃ ring, p.free.enqueueWhole recycled.reverse = .ok ring ∧
      p.restock recycled.reverse = { p with free := ring } := by
  -- A balance leaves room on the ring for all slots that are on their way to it.
  obtain ⟨ring, put, -⟩ := balanced.enqueueWhole recycled.reverse_perm
  exact ⟨ring, put, by rw [restock, put]⟩

/-- A slot that lost its last reference goes to the free ring behind those that are on their way
already. -/
theorem Balanced.restock_retire {index : Nat} {recycled : List Nat}
    (balanced : p.Balanced free recycled) (one : p.refcount index = 1) :
    ((p.unref index).2.retire index).restock (index :: recycled).reverse =
      (p.restock recycled.reverse).release index := by
  -- The slot on its way has a place on the free ring, behind the others.
  have retired := balanced.retire one
  have bound := retired.length_le
  have room := retired.room
  rw [List.length_cons] at bound
  have told := unref_fst (one ▸ Nat.one_pos : 0 < p.refcount index)
  rw [decide_eq_true one] at told
  obtain ⟨ring, last, others, single, whole⟩ := retired.listed.enqueueWhole_append recycled.reverse
    index (by rw [List.length_reverse]; omega)
  have others : p.free.enqueueWhole recycled.reverse = .ok ring := others
  have counted : ({ p with free := ring } : Pool).unref index =
      (true, { (p.unref index).2 with free := ring }) := Prod.ext told rfl
  have stored : (({ (p.unref index).2 with free := ring } : Pool).retire index).free.enqueue index =
      .ok last := single
  rw [List.reverse_cons, restock, whole, restock, others, Pool.release, counted]
  dsimp only
  rw [recycle, stored]
  rfl

/-- A slot that is still held stays off the free ring. -/
theorem Balanced.restock_unref {index : Nat} {recycled : List Nat}
    (balanced : p.Balanced free recycled) (several : 1 < p.refcount index) :
    (p.unref index).2.restock recycled.reverse = (p.restock recycled.reverse).release index := by
  -- A slot with a reference left is not among those that go to the ring.
  obtain ⟨ring, others, stocked⟩ := balanced.restock_eq
  obtain ⟨ring', others', stocked'⟩ := (balanced.unref several).restock_eq
  obtain rfl : ring = ring' := by
    have same : (p.unref index).2.free.enqueueWhole recycled.reverse = .ok ring := others
    rw [others', Except.ok.injEq] at same
    exact same.symm
  have told := unref_fst (Nat.zero_lt_of_lt several)
  rw [decide_eq_false (Nat.ne_of_gt several)] at told
  have counted : ({ p with free := ring } : Pool).unref index =
      (false, { (p.unref index).2 with free := ring }) := Prod.ext told rfl
  rw [stocked, stocked', Pool.release, counted]

end Pool

namespace Buffers

variable {b after : Buffers} {pool : Nat} {p q : Pool} {packet : Packet}
variable {recycled recycled' : List Nat}

/-- Handing several packets out at once is handing out one and then the others. -/
theorem allocBulk_succ (found : b.pools[pool]? = some p) {free moving : List Nat}
    (balanced : p.Balanced free moving) {count : Nat} (enough : count < free.length) :
    ∃ packet first q packets after, b.alloc pool = .ok (packet, first) ∧
      first.pools[pool]? = some q ∧ q.available + 1 = p.available ∧
      first.allocBulk pool count = .ok (packets, after) ∧
      b.allocBulk pool (count + 1) = .ok (packet :: packets, after) := by
  -- What one pool does is done in its place, and a pool that is put back twice is there once.
  obtain ⟨index, q, rest, r, one, fewer, others, whole⟩ := balanced.allocBulk_succ enough
  have found' : (b.setPool pool q).pools[pool]? = some q := by
    rw [pools_setPool found, if_pos rfl]
  have again : (b.setPool pool q).setPool pool r = b.setPool pool r := by
    simp [setPool]
  refine ⟨⟨pool, index⟩, b.setPool pool q, q, rest.map fun index => ⟨pool, index⟩,
    b.setPool pool r, ?_, found', fewer, ?_, ?_⟩
  · simp only [alloc, tryPool, found, one]
    rfl
  · rw [← again]
    simp only [allocBulk, tryPool, found', others]
    rfl
  · simp only [allocBulk, tryPool, found, whole]
    rfl

/-- As many packets as are free are the same ones, and leave the same pools, handed out at once or
one after another. -/
theorem allocBulk_eq (settled : b.Settled) (found : b.pools[pool]? = some p) {count : Nat}
    (enough : count ≤ p.available) :
    ∃ packets after, b.allocBulk pool count = .ok (packets, after) ∧
      b.allocEach pool count = .ok (packets, after) := by
  -- The one that is handed out first leaves one fewer to hand out.
  induction count generalizing b p with
  | zero =>
    refine ⟨[], b, ?_, rfl⟩
    have none : p.allocBulk 0 = .ok ([], p) := rfl
    simp only [allocBulk, tryPool, found, none]
    rw [show ({ b with pools := b.pools.setIfInBounds pool p } : Buffers) = b from
      setPool_self found]
    rfl
  | succ count ih =>
    obtain ⟨free, own⟩ := settled pool p found
    obtain ⟨packet, first, q, packets, after, one, found', fewer, others, whole⟩ :=
      allocBulk_succ found own (own.available_eq ▸ enough)
    obtain ⟨-, settled', -⟩ := alloc_trades (balanced_nil.mpr settled : b.Balanced 0 []) one
    obtain ⟨packets', after', same, each⟩ :=
      ih (balanced_nil.mp settled') found' (by omega)
    rw [others, Except.ok.injEq, Prod.mk.injEq] at same
    obtain ⟨rfl, rfl⟩ := same
    exact ⟨packet :: packets, after, whole, by simp only [allocEach, one, each]⟩

/-- Two different pools may be changed in either order. -/
theorem modifyPool_comm (b : Buffers) {k j : Nat} (apart : k ≠ j) (f g : Pool → Pool) :
    (b.modifyPool k f).modifyPool j g = (b.modifyPool j g).modifyPool k f := by
  -- Each change finds its pool as the other one left it.
  rw [modifyPool, modifyPool, modifyPool, modifyPool, Buffers.mk.injEq]
  apply Array.ext_getElem?
  intro i
  simp only [Array.getElem?_modify]
  by_cases here : j = i
  · subst here
    simp [apart]
  · simp [here]

/-- A pool that was put in place of another is changed there. -/
theorem modifyPool_setPool (found : b.pools[pool]? = some p) (q : Pool) (change : Pool → Pool) :
    (b.setPool pool q).modifyPool pool change = b.setPool pool (change q) := by
  -- A pool that exists is put in place, so it is found there.
  have found' : (b.setPool pool q).pools[pool]? = some q := by
    rw [pools_setPool found, if_pos rfl]
  rw [modifyPool_eq found']
  simp [setPool]

/-- Slots that go to the free ring after a packet was given back may go there before it as well. -/
theorem Returns.restock (returns : Returns b pool recycled packet recycled' after)
    (balanced : b.Balanced pool recycled) :
    after.modifyPool pool (·.restock recycled'.reverse) =
      (b.modifyPool pool (·.restock recycled.reverse)).release packet := by
  -- A foreign packet is none of the pool's business, and one of its own is retired or still held.
  cases returns with
  | foreign apart => exact modifyPool_comm b apart _ _
  | @last p own found one =>
    subst own
    obtain ⟨free, atRest⟩ := balanced packet.pool p found
    rw [if_pos rfl] at atRest
    rw [modifyPool_setPool found, atRest.restock_retire one, modifyPool_eq found, release,
      modifyPool_setPool found]
  | @shared p own found several =>
    subst own
    obtain ⟨free, atRest⟩ := balanced packet.pool p found
    rw [if_pos rfl] at atRest
    rw [modifyPool_setPool found, atRest.restock_unref several, modifyPool_eq found, release,
      modifyPool_setPool found]

/-- Slots that are held back until all packets have been given back go to the free ring as if each
packet had been released by itself. -/
theorem freeEach_restock (foreign : Option Nat) {packets : List Packet}
    (balanced : b.Balanced pool recycled)
    (owned : ∀ packet, packets.count packet ≤ b.refcount packet) :
    (freeEach pool recycled foreign b packets).2.2.modifyPool pool
        (·.restock (freeEach pool recycled foreign b packets).1) =
      (b.modifyPool pool (·.restock recycled.reverse)).releaseAll packets := by
  -- What is left to give back stays owned while the packets before it are given back.
  induction packets generalizing b recycled foreign with
  | nil => rfl
  | cons packet rest ih =>
    have held : 0 < b.refcount packet := by
      have := owned packet
      rw [List.count_cons_self] at this
      omega
    obtain ⟨recycled', after, returns, step⟩ := freeEach_cons held recycled foreign rest
    obtain ⟨balanced', traded⟩ := returns.trades balanced held
    rw [step, ih _ balanced' (traded.left owned), returns.restock balanced]
    rfl

/-- The first foreign packet is the one that is remembered. -/
theorem freeEach_foreign (pool : Nat) (recycled : List Nat) (foreign : Option Nat) (b : Buffers)
    (packets : List Packet) :
    (freeEach pool recycled foreign b packets).2.1 =
      (foreign <|> (packets.find? fun packet => packet.pool ≠ pool).map Packet.index) := by
  -- By induction on the packets, where one that was remembered before stays the first.
  induction packets generalizing b recycled foreign with
  | nil => cases foreign <;> rfl
  | cons packet rest ih =>
    rw [freeEach, List.find?_cons]
    split
    · rename_i apart
      rw [ih]
      cases foreign <;> simp [apart]
    · rename_i own
      have passed : decide (packet.pool ≠ pool) = false := decide_eq_false own
      rw [passed]
      split
      · exact ih _ _ _
      · split <;> exact ih _ _ _

/-- What is said about packets that are given back in bulk. -/
theorem freeBulk_fst (b : Buffers) (pool : Nat) (packets : List Packet) :
    (b.freeBulk pool packets).1 =
      match packets.find? fun packet => packet.pool ≠ pool with
      | none => .ok ()
      | some packet => .error (.invalidHandle packet.index .foreign) := by
  -- Nothing is remembered before the first packet.
  have told := freeEach_foreign pool [] none b packets
  simp only [freeBulk, told]
  cases packets.find? fun packet => packet.pool ≠ pool <;> rfl

/-- What packets that are given back in bulk leave. -/
theorem freeBulk_snd (b : Buffers) (pool : Nat) (packets : List Packet) :
    (b.freeBulk pool packets).2 = (freeEach pool [] none b packets).2.2.modifyPool pool
      (·.restock (freeEach pool [] none b packets).1) := by
  -- The verdict depends on a foreign packet, and the pools do not.
  simp only [freeBulk]
  split <;> rfl

/-- Packets that are given back in bulk leave the same pools as one after another. -/
theorem freeBulk_eq (settled : b.Settled) {packets : List Packet}
    (owned : ∀ packet, packets.count packet ≤ b.refcount packet) :
    (b.freeBulk pool packets).2 = b.freeAll pool packets := by
  -- Nothing is on its way to a free ring before, and everything is there afterwards.
  have nothing : b.modifyPool pool (·.restock []) = b := by
    cases found : b.pools[pool]? with
    | none => rw [modifyPool_none found]
    | some p => rw [modifyPool_eq found]; exact setPool_self found
  rw [freeBulk_snd, freeEach_restock none (balanced_nil.mpr settled) owned, List.reverse_nil,
    nothing]
  rfl

end Buffers

namespace Ledger

variable {l : Ledger}

/-- Whatever pools were made and whatever permitted calls followed: a pool hands out several packets
at once exactly when that many are free, and then they are the same packets and leave the same pools
as one after another. Packets that are given back through a pool in bulk, some of them several times
and some of other pools, leave the same pools as one after another, and the first foreign one of
them is the one that is reported. -/
theorem bulk_single (run : l.Reachable) :
    (∀ (pool : Nat) (p : Pool), l.buffers.pools[pool]? = some p → ∀ count,
      (p.available < count → l.buffers.allocBulk pool count = .error .poolExhausted ∧
        l.call (.allocBulk pool count) = l) ∧
      (count ≤ p.available → ∃ packets after,
        l.buffers.allocBulk pool count = .ok (packets, after) ∧
        l.buffers.allocEach pool count = .ok (packets, after))) ∧
    ∀ pool packets, packets.Subperm l.packets →
      (l.buffers.freeBulk pool packets).2 = l.buffers.freeAll pool packets ∧
      (l.buffers.freeBulk pool packets).1 =
        match packets.find? fun packet => packet.pool ≠ pool with
        | none => .ok ()
        | some packet => .error (.invalidHandle packet.index .foreign) := by
  -- Pools that calls lead to are balanced, so that the free ring decides about each request.
  refine ⟨?_, ?_⟩
  · intro pool p found count
    refine ⟨?_, Buffers.allocBulk_eq run.sound.settled found⟩
    intro short
    obtain ⟨free, own⟩ := run.sound.settled pool p found
    have refused : l.buffers.allocBulk pool count = .error .poolExhausted := by
      simp only [Buffers.allocBulk, Buffers.tryPool, found,
        own.allocBulk_error (own.available_eq ▸ short)]
    exact ⟨refused, by simp only [call, refused]⟩
  · intro pool packets owned
    exact ⟨Buffers.freeBulk_eq run.sound.settled (run.sound.owned owned),
      l.buffers.freeBulk_fst pool packets⟩

/-- Two references to one packet are given back together, through their pool or through another
one. -/
theorem bulk_single_pair :
    ∃ l : Ledger, l.Reachable ∧ l.packets = [⟨0, 0⟩, ⟨0, 0⟩] ∧
      (l.buffers.freeBulk 0 l.packets).2 = l.buffers.freeAll 0 l.packets ∧
      (l.buffers.freeBulk 0 l.packets).1 = .ok () ∧
      (l.buffers.freeBulk 1 l.packets).1 = .error (.invalidHandle 0 .foreign) ∧
      ∃ p, l.buffers.pools[0]? = some p ∧
        l.buffers.allocBulk 0 (p.available + 1) = .error .poolExhausted ∧
        ∃ packets after, l.buffers.allocBulk 0 p.available = .ok (packets, after) ∧
          l.buffers.allocEach 0 p.available = .ok (packets, after) := by
  -- A packet that is shared is given back twice, where both references are on record.
  obtain ⟨p, q, -, -, run⟩ := exists_lone_packet
  let l : Ledger := { buffers := ⟨#[q]⟩, packets := [⟨0, 0⟩] }
  have single : l.references ⟨0, 0⟩ = 1 := rfl
  have shared := run.call (.clone ⟨0, 0⟩) ⟨List.mem_cons_self, by rw [single]; decide⟩
  have found : (l.call (.clone ⟨0, 0⟩)).buffers.pools[0]? = some (q.addRef 0) := by
    simp [Ledger.call, Buffers.addRef, Buffers.modifyPool, l]
  obtain ⟨handed, given⟩ := bulk_single shared
  obtain ⟨same, accepted⟩ := given 0 _ (List.Subperm.refl _)
  obtain ⟨-, reported⟩ := given 1 _ (List.Subperm.refl _)
  obtain ⟨short, -⟩ := handed 0 _ found ((q.addRef 0).available + 1)
  obtain ⟨-, enough⟩ := handed 0 _ found (q.addRef 0).available
  exact ⟨_, shared, rfl, same, accepted, reported, _, found, (short (Nat.lt_succ_self _)).1,
    enough (Nat.le_refl _)⟩

end Ledger

end PacketPlane
