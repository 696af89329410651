import PacketPlane.Proofs.Buffer.Ledger

/-! Conservation of buffers: whatever calls were made, each slot is either free or held, exactly the
live references hold it, and no call finds a free ring full or a count at zero. -/

namespace PacketPlane

namespace Buffers

/-- A reference that can be given back: it is counted, and if it is the last, its slot finds room on
the free ring. -/
def Returnable (b : Buffers) (packet : Packet) : Prop :=
  ∃ p, b.pools[packet.pool]? = some p ∧ 0 < p.refcount packet.index ∧
    (p.refcount packet.index = 1 → ∃ ring,
      ((p.unref packet.index).2.retire packet.index).free.enqueue packet.index = .ok ring)

/-- References that can be given back together: each is still counted when its turn comes, and the
slots held back until the end find room on the free ring. -/
structure BulkReturnable (b : Buffers) (pool : Nat) (packets : List Packet) : Prop where
  each : ∀ done packet rest, packets = done ++ packet :: rest →
    (freeEach pool [] none b done).2.2.Returnable packet
  whole : ∀ p, (freeEach pool [] none b packets).2.2.pools[pool]? = some p →
    ∃ ring, p.free.enqueueWhole (freeEach pool [] none b packets).1 = .ok ring

variable {b : Buffers} {pool : Nat} {moving : List Nat}

/-- A packet of balanced pools can be given back as soon as something holds it. -/
theorem Balanced.returnable (balanced : b.Balanced pool moving) {packet : Packet}
    (held : 0 < b.refcount packet) : b.Returnable packet := by
  -- The last reference retires the slot, and a balanced pool has room on its ring for that.
  obtain ⟨p, found, count⟩ := pool_of_refcount_pos held
  rw [← count] at held
  obtain ⟨free, own⟩ := balanced packet.pool p found
  refine ⟨p, found, held, ?_⟩
  intro last
  obtain ⟨ring, put, -⟩ := (own.retire last).enqueue
  exact ⟨ring, put⟩

/-- Packets of pools at rest can be given back together when each is held often enough. -/
theorem Settled.bulkReturnable (settled : b.Settled) {packets : List Packet}
    (owned : ∀ packet, packets.count packet ≤ b.refcount packet) :
    b.BulkReturnable pool packets := by
  -- Giving back one packet after another keeps the balance, and the ring takes all at the end.
  have atRest : b.Balanced pool [] := balanced_nil.mpr settled
  constructor
  · -- The references before a packet leave it at least its own.
    intro done packet rest split
    have before : ∀ other, done.count other ≤ b.refcount other := by
      intro other
      have owns := owned other
      rw [split, List.count_append] at owns
      omega
    obtain ⟨balanced, traded⟩ := freeEach_trades none atRest before
    apply balanced.returnable
    have owns := owned packet
    have count := traded.counted packet
    rw [split, List.count_append, List.count_cons_self] at owns
    rw [List.count_nil] at count
    omega
  · intro p found
    obtain ⟨balanced, -⟩ := freeEach_trades none atRest owned
    obtain ⟨ring, put, -⟩ := balanced.enqueueWhole found
    exact ⟨ring, put⟩

end Buffers

/-- A pool that keeps its buffers: the free ring and the references split its slots, and the counter
of held slots agrees. -/
structure Pool.Conserved (p : Pool) (references : Nat → Nat) : Prop where
  distinct : p.free.toList.Nodup
  inside : ∀ i ∈ p.free.toList, i < p.capacity
  unheld : ∀ i < p.capacity, i ∈ p.free.toList ↔ p.refcount i = 0
  counted : ∀ i, p.refcount i = references i
  inUse : p.inUse = p.slots.countP fun s => s.refcount ≠ 0
  total : p.available + p.inUse = p.capacity

/-- A pool at rest keeps its buffers. -/
theorem Pool.Balanced.conserved {p : Pool} {free : List Nat} (balanced : p.Balanced free [])
    {references : Nat → Nat} (counted : ∀ i, p.refcount i = references i) :
    p.Conserved references := by
  -- With nothing on its way, each slot is either on the ring or held.
  have distinct := balanced.distinct
  have unheld := balanced.unheld
  have total := balanced.counted
  rw [List.append_nil] at distinct unheld total
  have listed : p.free.toList = free := balanced.listed.toList_eq
  refine ⟨?_, ?_, ?_, counted, balanced.inUse_eq, ?_⟩
  · rw [listed]
    exact distinct
  · intro i member
    rw [listed] at member
    exact ((unheld i).mp member).1
  · intro i inside
    rw [listed, unheld]
    simp [inside]
  · rw [balanced.available_eq]
    omega

namespace Ledger

/-- A ledger whose pools keep their buffers, where every live reference can be given back, alone or
in bulk, and every buffer that a pool hands out is one that nothing referred to. -/
structure Conserved (l : Ledger) : Prop where
  pools : ∀ (k : Nat) (p : Pool), l.buffers.pools[k]? = some p →
    p.Conserved fun i => l.references ⟨k, i⟩
  returnable : ∀ packet ∈ l.live, l.buffers.Returnable packet
  bulk : ∀ pool packets, packets.Subperm l.packets → l.buffers.BulkReturnable pool packets
  redeemable : ∀ handle ∈ l.loose, l.buffers.ofRaw handle.pool handle.raw = .ok handle.packet
  fresh : ∀ pool packet buffers, l.buffers.alloc pool = .ok (packet, buffers) →
    l.references packet = 0
  freshBulk : ∀ pool count packets buffers,
    l.buffers.allocBulk pool count = .ok (packets, buffers) →
    packets.Nodup ∧ ∀ packet ∈ packets, l.references packet = 0

/-- A ledger that agrees with its pools conserves them. -/
theorem Sound.conserved {l : Ledger} (sound : l.Sound) : l.Conserved := by
  -- Every part is read off the balance of the pools and the count of references.
  have atRest : l.buffers.Balanced 0 [] := Buffers.balanced_nil.mpr sound.settled
  refine ⟨?_, ?_, ?_, ?_, ?_, ?_⟩
  · intro k p found
    obtain ⟨free, own⟩ := sound.settled k p found
    apply own.conserved
    intro i
    rw [← sound.counted, Buffers.refcount_eq, found]
    rfl
  · intro packet listed
    exact atRest.returnable (sound.refcount_pos listed)
  · intro pool packets owns
    exact sound.settled.bulkReturnable (sound.owned owns)
  · intro handle listed
    obtain ⟨p, found, accepted⟩ := sound.checkRaw_ok listed
    rw [Buffers.ofRaw, found]
    simp only [accepted]
    rfl
  · intro pool packet buffers handed
    obtain ⟨idle, -⟩ := Buffers.alloc_trades atRest handed
    rw [← sound.counted, idle]
  · intro pool count packets buffers handed
    obtain ⟨distinct, idle, -⟩ := Buffers.allocBulk_trades atRest handed
    refine ⟨distinct, ?_⟩
    intro packet member
    rw [← sound.counted, idle packet member]

/-- Whatever pools were made and whatever permitted calls followed in whatever order, the buffers of
every pool are conserved. -/
theorem conserved_of_reachable {l : Ledger} (run : l.Reachable) : l.Conserved := by
  -- Every permitted call keeps a ledger sound.
  exact run.sound.conserved

/-- A pool of two buffers hands one out, which is then shared: the buffers are conserved while two
references hold the same slot. -/
theorem conserved_shared_pair :
    ∃ l : Ledger, l.Reachable ∧ l.references ⟨0, 0⟩ = 2 ∧ l.Conserved := by
  -- The only packet is shared once, so its slot has two references.
  let settings : PoolSettings := { capacity := 2 }
  let reserve := fun (size : Nat) (node : Option UInt32) =>
    (.ok { size, node } : Except Fault Region)
  have two : settings.capacity.toNat.nextPowerOfTwo = 2 := by decide +kernel
  have small : settings.capacity.toNat.nextPowerOfTwo ≤ maxRingCapacity := by
    rw [two]
    decide
  have wide : settings.capacity.toNat ≤ settings.capacity.toNat.nextPowerOfTwo := by
    rw [two]
    decide
  obtain ⟨p, made, size⟩ : ∃ p, Pool.make "pair" settings reserve = .ok p ∧ p.capacity = 2 :=
    Pool.make_ok (by decide) rfl small wide
  obtain ⟨balanced, -⟩ := Pool.balanced_make made
  have balanced : p.Balanced [0, 1] [] := by
    rw [size] at balanced
    exact balanced
  obtain ⟨q, handed, -⟩ := balanced.alloc_cons
  let first : Ledger := { buffers := ⟨#[p]⟩ }
  let second : Ledger := { buffers := ⟨#[q]⟩, packets := [⟨0, 0⟩] }
  have one : first.Reachable := by
    have step := Reachable.start.call (.make "pair" settings reserve) trivial
    simpa [Ledger.call, made, Buffers.addPool] using step
  have run : second.Reachable := by
    have step := one.call (.alloc 0) trivial
    simpa [Ledger.call, Buffers.alloc, Buffers.tryPool, first, handed] using step
  have single : second.references ⟨0, 0⟩ = 1 := rfl
  have shared := run.call (.clone ⟨0, 0⟩) ⟨by simp [second], by rw [single]; decide⟩
  exact ⟨second.call (.clone ⟨0, 0⟩), shared, rfl, conserved_of_reachable shared⟩

end Ledger

end PacketPlane
