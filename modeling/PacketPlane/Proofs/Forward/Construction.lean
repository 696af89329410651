import PacketPlane.Proofs.Forward.Order

/-! Construction: which settings without fault the ends of a pipeline can be made from, given memory,
and that nothing but the size of a ring stands against the others. -/

namespace PacketPlane

open private Nat.nextPowerOfTwo.go from Init.Data.Nat.Power2.Basic

/-- The search for a power of two ends at or above its target. -/
theorem le_nextPowerOfTwo_go (target power : Nat) (positive : 0 < power) :
    target ≤ Nat.nextPowerOfTwo.go target power positive := by
  -- By induction on the search, which stops only when it has reached the target.
  fun_induction Nat.nextPowerOfTwo.go target power positive with
  | case1 power positive below later => exact later
  | case2 power positive reached => exact Nat.le_of_not_lt reached

/-- The search for a power of two does not pass one that its target does not pass. -/
theorem nextPowerOfTwo_go_le {target limit : Nat} (below : target ≤ 2 ^ limit) (exponent : Nat)
    (before : exponent ≤ limit) (positive : 0 < 2 ^ exponent) :
    Nat.nextPowerOfTwo.go target (2 ^ exponent) positive ≤ 2 ^ limit := by
  -- By induction on how far the exponent is from the limit, where the search would have to stop.
  induction left : limit - exponent generalizing exponent with
  | zero =>
    have last : exponent = limit := by omega
    subst last
    rw [Nat.nextPowerOfTwo.go, if_neg (Nat.not_lt.mpr below)]
  | succ left later =>
    rw [Nat.nextPowerOfTwo.go]
    split
    · simp only [← Nat.pow_succ]
      exact later (exponent + 1) (by omega) (Nat.two_pow_pos _) (by omega)
    · exact Nat.pow_le_pow_right Nat.two_pos before

/-- Rounding up to a power of two stays within the largest capacity of a ring, or goes beyond it, just
as the number does that is rounded. -/
theorem nextPowerOfTwo_le_maxRingCapacity (n : Nat) :
    n.nextPowerOfTwo ≤ maxRingCapacity ↔ n ≤ maxRingCapacity := by
  -- The limit is itself a power of two, so rounding up does not pass it.
  constructor
  · intro small
    exact (le_nextPowerOfTwo_go n 1 Nat.one_pos).trans small
  · intro small
    have limit : maxRingCapacity = 2 ^ 28 := rfl
    rw [limit] at small ⊢
    exact nextPowerOfTwo_go_le small 0 (Nat.zero_le _) _

/-- The outcome of making something that only the size of a ring can prevent: it is made as wanted and
all its rings fit, or one of them is refused for its size. -/
def Limited {α : Type} (fits : Prop) (wanted : α → Prop) (outcome : Except Fault α) : Prop :=
  -- Which ring is refused depends on the order of things.
  (∃ value, outcome = .ok value ∧ wanted value ∧ fits) ∨
    ∃ ring capacity,
      outcome = .error (.setting (.ringTooLarge ring capacity maxRingCapacity)) ∧ ¬ fits

namespace Limited

variable {α β : Type} {fits fits' : Prop} {wanted : α → Prop} {wanted' : β → Prop}
  {first : Except Fault α} {next : α → Except Fault β}

/-- What is made as wanted is limited by what fits. -/
theorem made {value : α} (good : wanted value) (fit : fits) :
    Limited fits wanted (.ok value : Except Fault α) :=
  .inl ⟨value, rfl, good, fit⟩

/-- What is refused for a ring that is too large is limited by what does not fit. -/
theorem tooLarge {ring : String} {capacity : Nat} (narrow : ¬ fits) :
    Limited fits wanted (.error (.setting (.ringTooLarge ring capacity maxRingCapacity))) :=
  .inr ⟨ring, capacity, rfl, narrow⟩

/-- What is made in two steps is limited by both. -/
theorem bind (limited : Limited fits wanted first)
    (later : ∀ value, wanted value → Limited fits' wanted' (next value)) :
    Limited (fits ∧ fits') wanted' (first >>= next) := by
  -- By cases on whether the first step fails, since its fault is then the one reported.
  obtain ⟨value, rfl, good, fit⟩ | ⟨ring, capacity, rfl, narrow⟩ := limited
  · obtain ⟨result, done, good', fit'⟩ | ⟨ring, capacity, refused, narrow⟩ := later value good
    · exact .inl ⟨result, done, good', fit, fit'⟩
    · exact .inr ⟨ring, capacity, refused, fun both => narrow both.2⟩
  · exact .inr ⟨ring, capacity, rfl, fun both => narrow both.1⟩

end Limited

/-- A ring of a power of two is limited by its size alone. -/
theorem Ring.limited_make {α : Type} (name : String) {capacity : Nat}
    (power : capacity.isPowerOfTwo) :
    Limited (capacity ≤ maxRingCapacity)
      (fun ring : Ring α => ring.Holds [] ∧ ring.capacity = capacity) (Ring.make name capacity) := by
  -- The size is a power of two, so of the two checks only the one of the limit can fail.
  cases made : (Ring.make name capacity : Except Fault (Ring α)) with
  | ok ring =>
    exact .made ⟨Ring.holds_make made, Ring.capacity_make made⟩
      (Ring.make_ok_iff.mp ⟨ring, made⟩).2
  | error fault =>
    rw [Ring.make, dif_pos power] at made
    split at made
    · cases made
    · cases made
      exact .tooLarge ‹_›

/-- A pool whose region is reserved is limited by its free ring, and so by its number of buffers. -/
theorem Pool.limited_make (name : String) {s : PoolSettings}
    {reserve : Nat → Option UInt32 → Except Fault Region} {region : Region}
    (fine : s.fault? = none)
    (reserved : reserve (s.capacity.toNat * alignUp s.dataRoom.toNat) s.numaNode = .ok region) :
    Limited (s.capacity.toNat ≤ maxRingCapacity) (fun _ => True) (Pool.make name s reserve) := by
  -- By cases on the size: the region is there, so only the free ring can be refused.
  have wide : s.capacity.toNat ≤ s.capacity.toNat.nextPowerOfTwo :=
    le_nextPowerOfTwo_go _ _ Nat.one_pos
  by_cases fit : s.capacity.toNat ≤ maxRingCapacity
  · have small := (nextPowerOfTwo_le_maxRingCapacity _).mpr fit
    obtain ⟨p, made, -⟩ : ∃ p, Pool.make name s reserve = .ok p ∧ p.capacity = s.capacity.toNat :=
      Pool.make_ok fine reserved small wide
    rw [made]
    exact .made trivial fit
  · have large := mt (nextPowerOfTwo_le_maxRingCapacity _).mp fit
    have refused : (Ring.make s!"{name}-free" s.capacity.toNat.nextPowerOfTwo :
        Except Fault (Ring Nat)) = .error (.setting (.ringTooLarge s!"{name}-free"
          s.capacity.toNat.nextPowerOfTwo maxRingCapacity)) := by
      rw [Ring.make, dif_pos (Nat.isPowerOfTwo_nextPowerOfTwo _), dif_neg large]
    simp only [Pool.make, fine, reserved, refused]
    exact .tooLarge fit

namespace Device

variable {d : Device} {id other : PortId}

/-- A queue pair that is there and not in use. -/
def Closed (d : Device) (id : PortId) : Prop :=
  -- Opening such a queue can fail by its rings alone.
  ∃ nic queue, d.queue id = .ok (nic, queue) ∧ queue.rings = none

/-- All queues of a new device that has their network port are closed. -/
theorem closed_make (pool : Nat) {s : DeviceSettings} (fine : s.fault? = none) :
    ∃ d, Device.make pool s = .ok d ∧
      ∀ device : UInt16, device.toNat < s.ports.toNat → d.Closed ⟨device, 0⟩ := by
  -- Both kinds of queues are there at least once.
  have queues : 0 < max s.rxQueues.toNat s.txQueues.toNat := by
    have some : s.rxQueues ≠ 0 := by
      rintro none
      simp [DeviceSettings.fault?, none] at fine
    have positive : 0 < s.rxQueues.toNat :=
      Nat.pos_of_ne_zero fun zero => some (UInt16.toNat_inj.mp zero)
    exact lt_of_lt_of_le positive (Nat.le_max_left ..)
  rw [Device.make, fine]
  refine ⟨_, rfl, fun device inside => ?_⟩
  refine ⟨{ queues := Array.replicate (max s.rxQueues.toNat s.txQueues.toNat) {} }, {}, ?_, rfl⟩
  simp only [Device.queue, Device.nic, Array.getElem?_replicate, if_pos inside, UInt16.toNat_zero,
    if_pos queues]

/-- A queue on another network port stays closed. -/
theorem Closed.setQueue (closed : d.Closed other) (apart : other.device ≠ id.device) {nic : Nic}
    {queue : Queue} : (d.setQueue id nic queue).Closed other := by
  -- Numbers that differ as words differ as naturals.
  have elsewhere : id.device.toNat ≠ other.device.toNat := fun same =>
    apart (UInt16.toNat_inj.mp same.symm)
  obtain ⟨nic', queue', found, shut⟩ := closed
  refine ⟨nic', queue', ?_, shut⟩
  rw [← found, Device.queue, Device.queue, Device.nic, Device.nic, Device.setQueue, setNic,
    Array.getElem?_setIfInBounds, if_neg elsewhere]

/-- Opening a closed queue is limited by its two rings, and leaves other network ports alone. -/
theorem Closed.limited_openPort (closed : d.Closed id) (number : Nat)
    {rxDescriptors txDescriptors : Nat} (rxPower : rxDescriptors.isPowerOfTwo)
    (txPower : txDescriptors.isPowerOfTwo) :
    Limited (rxDescriptors ≤ maxRingCapacity ∧ txDescriptors ≤ maxRingCapacity)
      (fun opened : Port × Device =>
        ∀ other : PortId, other.device ≠ id.device → d.Closed other → opened.2.Closed other)
      (d.openPort number id rxDescriptors txDescriptors) := by
  -- The receive ring is made first, so it decides which of two rings is named.
  obtain ⟨nic, queue, found, shut⟩ := closed
  simp only [Device.openPort, found, shut, Option.isSome_none, Bool.false_eq_true, if_false]
  obtain ⟨rx, madeRx, -, rxFits⟩ | ⟨ring, capacity, refused, narrow⟩ :=
    Ring.limited_make (α := Packet) s!"vdev{id.device.toNat}-rx{id.queue.toNat}" rxPower
  · obtain ⟨tx, madeTx, -, txFits⟩ | ⟨ring, capacity, refused, narrow⟩ :=
      Ring.limited_make (α := Packet) s!"vdev{id.device.toNat}-tx{id.queue.toNat}" txPower
    · simp only [madeRx, madeTx]
      exact .made (fun other apart still => still.setQueue apart) ⟨rxFits, txFits⟩
    · simp only [madeRx, refused]
      exact .tooLarge fun both => narrow both.2
  · simp only [refused]
    exact .tooLarge fun both => narrow both.1

end Device

/-- Opening a closed queue on a plane is limited by its two rings. -/
theorem Plane.limited_openPort {p : Plane} {number : Nat} {d : Device}
    (there : p.device? number = some d) {id : PortId} (closed : d.Closed id)
    {rxDescriptors txDescriptors : Nat} (rxPower : rxDescriptors.isPowerOfTwo)
    (txPower : txDescriptors.isPowerOfTwo) :
    Limited (rxDescriptors ≤ maxRingCapacity ∧ txDescriptors ≤ maxRingCapacity)
      (fun opened : Port × Plane => ∃ d', opened.2.device? number = some d' ∧
        ∀ other : PortId, other.device ≠ id.device → d.Closed other → d'.Closed other)
      (p.openPort number id rxDescriptors txDescriptors) := by
  -- The device is there, so only the queue's rings can be refused.
  simp only [Plane.openPort, Plane.onDevice, there]
  obtain ⟨opened, done, still, fit⟩ | ⟨ring, capacity, refused, narrow⟩ :=
    closed.limited_openPort number rxPower txPower
  · simp only [done]
    refine .made ⟨opened.2, ?_, still⟩ fit
    rw [device?_setDevice there, if_pos rfl]
  · simp only [refused]
    exact .tooLarge narrow

/-- Settings that have room for every ring that is made from them. -/
structure Settings.Fits (s : Settings) : Prop where
  buffers : s.pool.capacity.toNat ≤ maxRingCapacity
  received : s.device.rxDescriptors.toNat ≤ maxRingCapacity
  sent : s.device.txDescriptors.toNat ≤ maxRingCapacity

/-- Settings without fault have no fault in any section, and their rings are powers of two. -/
theorem Settings.validate_ok {s : Settings} (accepted : s.validate = .ok s) :
    s.pool.fault? = none ∧ s.device.fault? = none ∧ s.ringCapacity.toNat.isPowerOfTwo ∧
      s.ringCapacity.toNat ≤ maxRingCapacity := by
  -- Each section is checked in turn, and the ring by itself.
  have fine : s.fault? = none := by
    rw [Settings.validate] at accepted
    split at accepted
    · cases accepted
    · assumption
  rw [Settings.fault?] at fine
  split at fine
  · cases fine
  · rename_i pool
    split at fine
    · cases fine
    · rename_i device
      split at fine
      · cases fine
      · split at fine
        · cases fine
        · rename_i ring
          rw [not_or, not_not, not_lt] at ring
          exact ⟨pool, device, ring⟩

/-- Descriptor counts without fault are powers of two. -/
theorem DeviceSettings.powers {s : DeviceSettings} (fine : s.fault? = none) :
    s.rxDescriptors.toNat.isPowerOfTwo ∧ s.txDescriptors.toNat.isPowerOfTwo := by
  -- Both counts are among the checks that the settings have passed.
  rw [DeviceSettings.fault?] at fine
  split at fine
  · cases fine
  · split at fine
    · cases fine
    · split at fine
      · cases fine
      · exact ⟨not_not.mp ‹¬ ¬ s.rxDescriptors.toNat.isPowerOfTwo›,
          not_not.mp ‹¬ ¬ s.txDescriptors.toNat.isPowerOfTwo›⟩

namespace Forward

variable {s : Settings} {reserve : Nat → Option UInt32 → Except Fault Region}

/-- The ends of a pipeline with two ports and memory are limited by their rings alone. -/
theorem limited_makeEnds (accepted : s.validate = .ok s) (ports : 2 ≤ s.device.ports.toNat)
    (granted : ∀ size node, ∃ region, reserve size node = .ok region) :
    Limited s.Fits (fun _ => True) (makeEnds s reserve) := by
  obtain ⟨pool, device, power, small⟩ := Settings.validate_ok accepted
  obtain ⟨rxPower, txPower⟩ := DeviceSettings.powers device
  obtain ⟨region, reserved⟩ := granted (s.pool.capacity.toNat * alignUp s.pool.dataRoom.toNat)
    s.pool.numaNode
  -- The limits of all parts together are what it takes to fit.
  have whole : s.Fits ↔ s.pool.capacity.toNat ≤ maxRingCapacity ∧ True ∧
      (s.device.rxDescriptors.toNat ≤ maxRingCapacity ∧
        s.device.txDescriptors.toNat ≤ maxRingCapacity) ∧
      (s.device.rxDescriptors.toNat ≤ maxRingCapacity ∧
        s.device.txDescriptors.toNat ≤ maxRingCapacity) ∧
      s.ringCapacity.toNat ≤ maxRingCapacity ∧ s.ringCapacity.toNat ≤ maxRingCapacity ∧ True :=
    ⟨fun fit => ⟨fit.buffers, trivial, ⟨fit.received, fit.sent⟩, ⟨fit.received, fit.sent⟩, small,
      small, trivial⟩, fun ⟨buffers, _, rings, _⟩ => ⟨buffers, rings.1, rings.2⟩⟩
  rw [whole, makeEnds]
  -- Each part is limited by its own rings, once those before it have been made.
  refine (Pool.limited_make _ pool reserved).bind fun made _ => ?_
  obtain ⟨d, madeDevice, closed⟩ :=
    Device.closed_make (({} : Plane).buffers.addPool made).1 device
  have limitedDevice : Limited True (d = ·) 
      (Device.make (({} : Plane).buffers.addPool made).1 s.device) := by
    rw [madeDevice]
    exact .made rfl trivial
  refine limitedDevice.bind fun _ same => ?_
  subst same
  have there (plane : Plane) : (plane.addDevice d).2.device? (plane.addDevice d).1 = some d :=
    Array.getElem?_push_size
  have first := closed 0 (lt_of_lt_of_le Nat.two_pos ports)
  refine (Plane.limited_openPort (there _) first rxPower txPower).bind ?_
  -- Opening the first port leaves the second closed.
  rintro ⟨rx, first⟩ ⟨d', there, still⟩
  have other := still txPort (by decide) (closed 1 (lt_of_lt_of_le (by decide) ports))
  refine (Plane.limited_openPort there other rxPower txPower).bind ?_
  rintro ⟨tx, second⟩ -
  refine (Ring.limited_make "rx" power).bind fun rxRing _ => ?_
  refine (Ring.limited_make "tx" power).bind fun txRing _ => ?_
  exact .made trivial trivial

/-- With two ports and memory, settings without fault are enough for the ends of a pipeline exactly
when no ring is asked to be larger than rings may be, and nothing else is ever reported. -/
theorem makeEnds_ok_iff_fits (accepted : s.validate = .ok s) (ports : 2 ≤ s.device.ports.toNat)
    (granted : ∀ size node, ∃ region, reserve size node = .ok region) :
    ((∃ ends, makeEnds s reserve = .ok ends) ↔ s.Fits) ∧
      ∀ fault, makeEnds s reserve = .error fault →
        ∃ ring capacity, fault = .setting (.ringTooLarge ring capacity maxRingCapacity) := by
  -- By cases on how making the ends turned out, either of which settles both halves.
  obtain ⟨ends, made, -, fit⟩ | ⟨ring, capacity, refused, narrow⟩ :=
    limited_makeEnds accepted ports granted
  · refine ⟨⟨fun _ => fit, fun _ => ⟨ends, made⟩⟩, fun fault failed => ?_⟩
    rw [made] at failed
    cases failed
  · refine ⟨⟨?_, fun fit => absurd fit narrow⟩, fun fault failed => ⟨ring, capacity, ?_⟩⟩
    · rintro ⟨ends, made⟩
      rw [refused] at made
      cases made
    · rw [refused] at failed
      exact (Except.error.inj failed).symm

/-- Memory without end. -/
def plenty (size : Nat) (node : Option UInt32) : Except Fault Region :=
  -- Every size is granted.
  .ok { size, node }

/-- The ends of a pipeline can be made from the defaults. -/
theorem makeEnds_ok_default : ∃ ends, makeEnds {} plenty = .ok ends := by
  have accepted : ({} : Settings).validate = .ok {} := by decide
  exact (makeEnds_ok_iff_fits accepted (by decide) fun _ _ => ⟨_, rfl⟩).1.mpr
    ⟨by decide, by decide, by decide⟩

/-- Settings that ask for a receive ring larger than rings may be, and for nothing else unusual. -/
def deepReceive : Settings := { device := { rxDescriptors := 0x20000000 } }

/-- Settings without fault that no ends can be made from, for all their ports and memory. -/
theorem deepReceive_refused : deepReceive.validate = .ok deepReceive ∧
    2 ≤ deepReceive.device.ports.toNat ∧
    (∀ size node, ∃ region, plenty size node = .ok region) ∧
    ∀ ends, makeEnds deepReceive plenty ≠ .ok ends := by
  -- The ends are limited by what fits, and the receive ring does not.
  have accepted : deepReceive.validate = .ok deepReceive := by decide
  have granted : ∀ size node, ∃ region, plenty size node = .ok region := fun _ _ => ⟨_, rfl⟩
  refine ⟨accepted, by decide, granted, ?_⟩
  intro ends made
  obtain ⟨_, -, -, fit⟩ | ⟨ring, capacity, refused, -⟩ :=
    limited_makeEnds accepted (by decide) granted
  · have large : ¬ deepReceive.device.rxDescriptors.toNat ≤ maxRingCapacity := by decide
    exact large fit.received
  · rw [made] at refused
    cases refused

end Forward

end PacketPlane
