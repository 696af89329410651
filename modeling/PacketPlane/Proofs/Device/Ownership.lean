import PacketPlane.Proofs.Device.Failures

/-! Ownership of queues: a queue belongs to the port that opened it and to no other, until that port is
closed and its packets are given back. -/

namespace PacketPlane

/-- Whether devices with these settings have a queue pair. -/
def DeviceSettings.Has (s : DeviceSettings) (id : PortId) : Prop :=
  id.device.toNat < s.ports.toNat ∧ id.queue.toNat < max s.rxQueues.toNat s.txQueues.toNat

/-- Both numbers are compared with how many there are. -/
instance (s : DeviceSettings) (id : PortId) : Decidable (s.Has id) :=
  inferInstanceAs (Decidable (_ ∧ _))

/-- Whether a ring of so many descriptors can be made. -/
def DescriptorsFit (descriptors : Nat) : Prop :=
  descriptors.isPowerOfTwo ∧ descriptors ≤ maxRingCapacity

namespace Device

/-- The opening that a queue pair is in use by: nothing for a queue pair that does not exist, and no
opening for one that is closed. -/
def opening? (d : Device) (id : PortId) : Option (Option Nat) :=
  (d.queue id).toOption.map fun (_, queue) => queue.rings.map QueueRings.opening

variable {d : Device} {device : UInt16} {id : PortId} {nic nic' : Nic} {queue : Queue}

/-- The opening of a queue that exists is the one of its rings. -/
theorem opening?_eq (found : d.queue id = .ok (nic, queue)) :
    d.opening? id = some (queue.rings.map QueueRings.opening) := by
  rw [opening?, found]
  rfl

/-- Openings are looked up by network port and queue. -/
theorem opening?_eq_bind (d : Device) (id : PortId) :
    d.opening? id = (d.nics[id.device.toNat]?.bind fun nic => nic.queues[id.queue.toNat]?).map
      fun queue => queue.rings.map QueueRings.opening := by
  -- By cases on the network port and on the queue, either of which may not exist.
  rw [opening?, Device.queue, Device.nic]
  cases d.nics[id.device.toNat]? with
  | none => rfl
  | some nic =>
    simp only [Option.bind_some]
    cases nic.queues[id.queue.toNat]? <;> rfl

/-- A network port that keeps its queues keeps their openings. -/
theorem opening?_setNic (found : d.nic device = .ok nic) (kept : nic'.queues = nic.queues)
    (other : PortId) : (d.setNic device nic').opening? other = d.opening? other := by
  -- Openings are looked up through queues, which stay.
  have there := nic_eq_ok found
  have inside := (Array.getElem?_eq_some_iff.mp there).1
  rw [opening?_eq_bind, opening?_eq_bind, setNic, Array.getElem?_setIfInBounds]
  by_cases same : device.toNat = other.device.toNat
  · rw [if_pos same, if_pos inside, ← same, there, Option.bind_some, Option.bind_some, kept]
  · rw [if_neg same]

/-- A queue that is replaced has the opening of its new rings, and all others keep theirs. -/
theorem opening?_setQueue (found : d.queue id = .ok (nic, queue)) (kept : nic'.queues = nic.queues)
    (queue' : Queue) (other : PortId) :
    (d.setQueue id nic' queue').opening? other =
      if other = id then some (queue'.rings.map QueueRings.opening) else d.opening? other := by
  -- A queue is looked up by network port and number, so another queue differs in one of them.
  obtain ⟨there, inner⟩ := queue_eq_ok found
  have first := (Array.getElem?_eq_some_iff.mp there).1
  have second := (Array.getElem?_eq_some_iff.mp inner).1
  rw [opening?_eq_bind, opening?_eq_bind, setQueue, setNic, Array.getElem?_setIfInBounds]
  by_cases sameDevice : id.device.toNat = other.device.toNat
  · rw [if_pos sameDevice, if_pos first, ← sameDevice, there, Option.bind_some, Option.bind_some,
      Array.getElem?_setIfInBounds, kept]
    by_cases sameQueue : id.queue.toNat = other.queue.toNat
    · obtain rfl := PortId.eq_of_toNat sameDevice sameQueue
      rw [if_pos rfl, if_pos second, if_pos rfl, Option.map_some]
    · have apart : other ≠ id := by
        rintro rfl
        exact sameQueue rfl
      rw [if_neg sameQueue, if_neg apart]
  · have apart : other ≠ id := by
      rintro rfl
      exact sameDevice rfl
    rw [if_neg sameDevice, if_neg apart]

/-- A queue that keeps its opening leaves those of all. -/
theorem opening?_setQueue_same (found : d.queue id = .ok (nic, queue))
    (kept : nic'.queues = nic.queues) {queue' : Queue}
    (same : queue'.rings.map QueueRings.opening = queue.rings.map QueueRings.opening)
    (other : PortId) : (d.setQueue id nic' queue').opening? other = d.opening? other := by
  -- For the queue in question its new opening is the old one.
  rw [opening?_setQueue found kept]
  split
  · rename_i here
    rw [here, opening?_eq found, same]
  · rfl

/-- A device that was made has the queue pairs of its settings, all closed. -/
theorem opening?_make {pool : Nat} {settings : DeviceSettings}
    (made : Device.make pool settings = .ok d) (id : PortId) :
    d.opening? id = if settings.Has id then some none else none := by
  -- Every queue of the device is closed, and there are as many as the settings ask for.
  rw [Device.make] at made
  split at made
  · cases made
  · cases made
    rw [opening?_eq_bind]
    simp only [DeviceSettings.Has, Array.getElem?_replicate]
    by_cases device : id.device.toNat < settings.ports.toNat
    · by_cases queue : id.queue.toNat < max settings.rxQueues.toNat settings.txQueues.toNat
      · simp [device, queue]
      · simp [device, queue]
    · simp [device]

/-- A queue pair can be opened exactly when it exists, is closed, and both rings can be made. -/
theorem openPort_ok_iff {number rxDescriptors txDescriptors : Nat} :
    (∃ port after, d.openPort number id rxDescriptors txDescriptors = .ok (port, after)) ↔
      d.opening? id = some none ∧ DescriptorsFit rxDescriptors ∧ DescriptorsFit txDescriptors := by
  cases found : d.queue id with
  | error fault => simp [openPort, opening?, found, Except.toOption]
  | ok pair =>
    obtain ⟨nic, queue⟩ := pair
    rw [opening?_eq found]
    cases opened : queue.rings with
    | some rings => simp [openPort, found, opened]
    | none =>
      simp only [openPort, found, opened, Option.isSome_none, Bool.false_eq_true, if_false,
        Option.map_none, true_and]
      -- Each ring is made of its own number of descriptors.
      have fits : ∀ name count, DescriptorsFit count ↔
          ∃ r, (Ring.make name count : Except Fault (Ring Packet)) = .ok r :=
        fun _ _ => Ring.make_ok_iff.symm
      rw [fits s!"vdev{id.device.toNat}-rx{id.queue.toNat}" rxDescriptors,
        fits s!"vdev{id.device.toNat}-tx{id.queue.toNat}" txDescriptors]
      cases (Ring.make s!"vdev{id.device.toNat}-rx{id.queue.toNat}" rxDescriptors :
          Except Fault (Ring Packet)) <;>
        cases (Ring.make s!"vdev{id.device.toNat}-tx{id.queue.toNat}" txDescriptors :
          Except Fault (Ring Packet)) <;> simp

end Device

namespace Traffic

variable {t : Traffic} {settings : DeviceSettings} {c : TrafficCall} {id : PortId} {port : Port}

/-- Traffic that permitted calls lead to, on a device that was made with these settings. -/
inductive RunsOn (settings : DeviceSettings) : Traffic → Prop
  | start {l : Ledger} {pool : Nat} {d : Device} (run : l.Reachable)
    (made : Device.make pool settings = .ok d) : RunsOn settings { ledger := l, device := d }
  | call {t : Traffic} (run : RunsOn settings t) (c : TrafficCall) (permitted : t.Permits c) :
    RunsOn settings (t.call c)

/-- Traffic on a device of known settings is traffic on some device. -/
theorem RunsOn.reachable (run : t.RunsOn settings) : t.Reachable := by
  -- By induction on the calls, which are the same in both.
  induction run with
  | start run made => exact .start run made
  | call run c permitted ih => exact ih.call c permitted

/-- Whether a queue pair can be opened with so many descriptors. -/
def Opens (t : Traffic) (id : PortId) (rxDescriptors txDescriptors : Nat) : Prop :=
  ∃ port after, t.device.openPort 0 id rxDescriptors txDescriptors = .ok (port, after)

/-- Calls other than opening and closing leave every opening as it is. -/
theorem opening?_call (opens : ∀ id rxDescriptors txDescriptors,
    c ≠ .openPort id rxDescriptors txDescriptors) (closes : ∀ port, c ≠ .close port) (id : PortId) :
    (t.call c).device.opening? id = t.device.opening? id := by
  -- By what the call alters: a queue that is replaced keeps its opening.
  have altered := t.alters_call c
  generalize (t.call c).device = after at altered ⊢
  cases altered with
  | kept => rfl
  | nic found queues => exact Device.opening?_setNic found queues id
  | queue found queues opening =>
    exact Device.opening?_setQueue_same found queues (opening opens closes) id

/-- Calls other than opening and closing leave the open ports as they are. -/
theorem ports_call (opens : ∀ id rxDescriptors txDescriptors,
    c ≠ .openPort id rxDescriptors txDescriptors) (closes : ∀ port, c ≠ .close port) :
    (t.call c).ports = t.ports := by
  -- By cases on the call, and what answers with a fault changes no port either.
  cases c with
  | openPort id rxDescriptors txDescriptors => exact absurd rfl (opens _ _ _)
  | close port => exact absurd rfl (closes _)
  | pool c => rfl
  | rxBurst other limit => rfl
  | txBurst other packets => rfl
  | inject id frame | drainTx id limit | setBudget id budget | setLink device up
  | raise device code =>
    simp only [Traffic.call]
    split <;> rfl

/-- A queue pair that is closed has no opening, and all others keep theirs. -/
theorem Sound.opening?_close (sound : t.Sound) (listed : port ∈ t.ports) (id : PortId) :
    (t.call (.close port)).device.opening? id =
      if id = port.id then some none else t.device.opening? id := by
  -- The queue of the port is found, and is left without rings.
  obtain ⟨nic, queue, rings, owned, found, -⟩ := sound.there listed
  simp only [Traffic.call, Device.closePort, owned]
  exact Device.opening?_setQueue found rfl _ id

/-- An open port has the opening of its queue pair. -/
theorem Sound.opening?_port (sound : t.Sound) (listed : port ∈ t.ports) :
    ∃ opening, t.device.opening? port.id = some (some opening) := by
  -- An open port has rings, and these were opened.
  obtain ⟨nic, queue, rings, -, found, opened⟩ := sound.there listed
  refine ⟨rings.opening, ?_⟩
  rw [Device.opening?_eq found, opened, Option.map_some]

/-- A device with the queue pairs of its settings, of which every open one has its port. -/
structure Attended (t : Traffic) (settings : DeviceSettings) : Prop where
  built : ∀ id, (t.device.opening? id).isSome = true ↔ settings.Has id
  taken : ∀ id opening, t.device.opening? id = some (some opening) → id ∈ t.ports.map Port.id

/-- Opening a queue pair gives it a port. -/
theorem Attended.openPort (attended : t.Attended settings) (id : PortId)
    (rxDescriptors txDescriptors : Nat) :
    (t.call (.openPort id rxDescriptors txDescriptors)).Attended settings := by
  -- The queue was closed, so the new port is the only one of it.
  simp only [Traffic.call]
  split
  · exact attended
  · rename_i opened
    obtain ⟨nic, queue, rings, found, closed, -, -, rfl, rfl⟩ := Device.openPort_cases opened
    have before := Device.opening?_eq found
    have openings := Device.opening?_setQueue found (rfl : nic.queues = nic.queues)
      { queue with rings := some rings, openings := rings.opening }
    refine ⟨?_, ?_⟩
    · intro other
      rw [← attended.built other, openings other]
      split
      · rename_i same
        rw [same, before]
        rfl
      · rfl
    · intro other opening there
      rw [openings other] at there
      rw [List.map_cons, List.mem_cons]
      split at there
      · exact .inl ‹_›
      · exact .inr (attended.taken other opening there)

/-- Closing a queue pair takes away no other port. -/
theorem Attended.close (attended : t.Attended settings) (sound : t.Sound) (listed : port ∈ t.ports) :
    (t.call (.close port)).Attended settings := by
  -- The queue of the port is closed with it, and every other open queue keeps its port.
  have openings := sound.opening?_close listed
  refine ⟨?_, ?_⟩
  · intro id
    rw [← attended.built id, openings]
    split
    · rename_i same
      obtain ⟨opening, before⟩ := sound.opening?_port listed
      rw [same, before]
      rfl
    · rfl
  · intro id opening there
    rw [openings] at there
    split at there
    · cases there
    · rename_i apart
      obtain ⟨other, older, rfl⟩ := List.mem_map.mp (attended.taken id opening there)
      have differs : other ≠ port := fun same => apart (congrArg Port.id same)
      exact List.mem_map_of_mem ((List.mem_erase_of_ne differs).mpr older)

/-- Every permitted call keeps a device attended. -/
theorem Attended.call (attended : t.Attended settings) (sound : t.Sound) (permitted : t.Permits c) :
    (t.call c).Attended settings := by
  -- Opening and closing are looked at by themselves, since only they change openings or ports.
  by_cases opens : ∃ id rxDescriptors txDescriptors, c = .openPort id rxDescriptors txDescriptors
  · obtain ⟨id, rxDescriptors, txDescriptors, rfl⟩ := opens
    exact attended.openPort id rxDescriptors txDescriptors
  · by_cases closes : ∃ port, c = .close port
    · obtain ⟨port, rfl⟩ := closes
      exact attended.close sound permitted
    · -- What is left changes neither openings nor ports.
      push Not at opens closes
      refine ⟨?_, ?_⟩
      · intro id
        rw [opening?_call opens closes, attended.built]
      · intro id opening there
        rw [opening?_call opens closes] at there
        rw [ports_call opens closes]
        exact attended.taken id opening there

/-- Whatever permitted calls were made, the device has its queue pairs, and every open one a port. -/
theorem RunsOn.attended (run : t.RunsOn settings) : t.Attended settings := by
  -- At first every queue pair is closed.
  induction run with
  | start run made =>
    have openings := Device.opening?_make made
    refine ⟨?_, ?_⟩
    · intro id
      show (Device.opening? _ id).isSome = true ↔ _
      rw [openings]
      split <;> simp_all
    · intro id opening there
      have idle : (if settings.Has id then some none else none) = some (some opening) :=
        (openings id).symm.trans there
      split at idle <;> cases idle
  | call run c permitted ih => exact ih.call run.reachable.sound permitted

/-- A queue pair can be opened exactly when it exists, no open port is one of it, and both rings can be
made. -/
theorem Attended.opens_iff (attended : t.Attended settings) (sound : t.Sound) (id : PortId)
    (rxDescriptors txDescriptors : Nat) :
    t.Opens id rxDescriptors txDescriptors ↔
      settings.Has id ∧ (∀ port ∈ t.ports, port.id ≠ id) ∧
        DescriptorsFit rxDescriptors ∧ DescriptorsFit txDescriptors := by
  -- That no port is one of the queue and that the queue is closed is the same while the device is
  -- attended.
  rw [Opens, Device.openPort_ok_iff, ← attended.built id]
  constructor
  · rintro ⟨closed, fit⟩
    refine ⟨by rw [closed]; rfl, ?_, fit⟩
    rintro port listed rfl
    obtain ⟨opening, there⟩ := sound.opening?_port listed
    rw [closed] at there
    cases there
  · rintro ⟨there, free, fit⟩
    refine ⟨?_, fit⟩
    cases found : t.device.opening? id with
    | none => simp [found] at there
    | some opening? =>
      cases opening? with
      | none => rfl
      | some opening =>
        obtain ⟨port, listed, same⟩ := List.mem_map.mp (attended.taken id opening found)
        exact absurd same (free port listed)

/-- Whether a plane has the device of some traffic under a number, and its buffers. -/
structure HostedBy (t : Traffic) (p : Plane) (number : Nat) : Prop where
  device : p.device? number = some t.device
  buffers : p.buffers = t.ledger.buffers

/-- What closing a port does: every packet on its two rings is given back once, so that all pools are at
rest; the port is gone and the others keep their rings; its queue pair, and no other, can be opened that
could not be before; and it does all this in every plane that has the device, whichever device the port
is closed through and whatever that one answers, and nothing to other devices. -/
structure Closes (t : Traffic) (port : Port) : Prop where
  released : ∀ packet,
    (t.call (.close port)).ledger.buffers.refcount packet +
      (t.device.receivedOn port ++ t.device.sendingOn port).count packet =
        t.ledger.buffers.refcount packet
  settled : (t.call (.close port)).ledger.buffers.Settled
  gone : port ∉ (t.call (.close port)).ports
  others : ∀ other ∈ t.ports, other ≠ port → other ∈ (t.call (.close port)).ports ∧
    (t.call (.close port)).device.rings? other = t.device.rings? other
  opens : ∀ id rxDescriptors txDescriptors,
    (t.call (.close port)).Opens id rxDescriptors txDescriptors ↔
      t.Opens id rxDescriptors txDescriptors ∨
        (id = port.id ∧ DescriptorsFit rxDescriptors ∧ DescriptorsFit txDescriptors)
  anyhow : ∀ p number, t.HostedBy p number → ∀ through,
    let after := (p.closePortThrough through { port with device := number }).2
    (t.call (.close port)).HostedBy after number ∧
      ∀ other, other ≠ number → after.device? other = p.device? other

/-- A port is closed alike in every plane that has its device, whatever it is closed through. -/
theorem hostedBy_close {p : Plane} {number : Nat} (hosted : t.HostedBy p number) (port : Port)
    (through : Nat) :
    let after := (p.closePortThrough through { port with device := number }).2
    (t.call (.close port)).HostedBy after number ∧
      ∀ other, other ≠ number → after.device? other = p.device? other := by
  obtain ⟨device, buffers⟩ := hosted
  have inside := (Array.getElem?_eq_some_iff.mp device).1
  -- Closing looks at the queue pair and the opening of a port, not at the number of its device.
  have same : t.device.closePort { port with device := number } = t.device.closePort port := rfl
  simp only [Plane.closePortThrough, Plane.closePort, device, same]
  refine ⟨⟨?_, ?_⟩, ?_⟩
  · simp [Traffic.call, Plane.releaseAll, Plane.mapBuffers, Plane.setDevice, Plane.device?, inside]
  · simp [Traffic.call, Plane.releaseAll, Plane.mapBuffers, Plane.setDevice, buffers]
  · intro other apart
    simp [Plane.releaseAll, Plane.mapBuffers, Plane.setDevice, Plane.device?, apart.symm]

/-- Every packet on the rings of a port that is closed is given back once. -/
theorem Sound.released (sound : t.Sound) (listed : port ∈ t.ports) (packet : Packet) :
    (t.call (.close port)).ledger.buffers.refcount packet +
      (t.device.receivedOn port ++ t.device.sendingOn port).count packet =
        t.ledger.buffers.refcount packet := by
  obtain ⟨nic, queue, rings, owned, found, opened⟩ := sound.there listed
  obtain ⟨rx, tx⟩ := sound.holds found opened
  have left : t.device.rings? port = some rings := by rw [Device.rings?, owned, Option.map_some]
  have own : t.device.receivedOn port ++ t.device.sendingOn port = queue.waiting := by
    rw [Device.receivedOn, Device.sendingOn, left, Option.map_some, Option.map_some,
      Option.getD_some, Option.getD_some, rx.toList_eq, tx.toList_eq, Queue.waiting]
  have moved :=
    Device.waiting_setQueue found (rfl : nic.queues = nic.queues) { queue with rings := none }
  have closed : (t.call (.close port)).device =
      t.device.setQueue port.id nic { queue with rings := none } := by
    simp only [Traffic.call, Device.closePort, owned]
  obtain ⟨-, noneReceived, noneSending⟩ := Queue.of_closed (q := { queue with rings := none }) rfl
  rw [Queue.waiting.eq_1 { queue with rings := none }, noneReceived, noneSending, List.append_nil,
    List.append_nil, ← closed] at moved
  -- Slots count what is on record before and after, and only these packets left the record.
  have before : t.ledger.buffers.refcount packet = (t.ledger.packets ++ t.device.waiting ++
      t.ledger.loose.map LooseHandle.packet).count packet := sound.whole.counted packet
  have after : (t.call (.close port)).ledger.buffers.refcount packet =
      (t.ledger.packets ++ (t.call (.close port)).device.waiting ++
        t.ledger.loose.map LooseHandle.packet).count packet :=
    (sound.close listed).whole.counted packet
  have trade := moved.count_eq packet
  rw [List.count_append] at trade
  rw [own, before, after]
  simp only [List.count_append]
  omega

/-- Closing an open port does all that closing has to do. -/
theorem Sound.closes (sound : t.Sound) (listed : port ∈ t.ports) : t.Closes port := by
  -- The released packets are those of the queue, and no other port is one of it.
  have distinct := sound.distinct.of_map
  refine ⟨sound.released listed, (sound.close listed).whole.settled, ?_, ?_, ?_, ?_⟩
  · exact fun still => ((List.Nodup.mem_erase_iff distinct).mp still).1 rfl
  · intro other older differs
    refine ⟨(List.mem_erase_of_ne differs).mpr older, ?_⟩
    obtain ⟨nic, queue, rings, owned, found, -⟩ := sound.there listed
    simp only [Traffic.call, Device.closePort, owned]
    exact Device.rings?_setQueue_of_ne found rfl (sound.apart_of_ne older listed differs)
  · intro id rxDescriptors txDescriptors
    rw [Opens, Opens, Device.openPort_ok_iff, Device.openPort_ok_iff, sound.opening?_close listed]
    obtain ⟨opening, taken⟩ := sound.opening?_port listed
    by_cases same : id = port.id
    · subst same
      simp [taken]
    · simp [same]
  · intro p number hosted through
    exact hostedBy_close hosted port through

/-- A port that was just opened finds its rings empty, and the others keep theirs. -/
theorem Sound.opened (sound : t.Sound) {rxDescriptors txDescriptors : Nat} {after : Device}
    (opened : t.device.openPort 0 id rxDescriptors txDescriptors = .ok (port, after)) :
    port.id = id ∧ after.receivedOn port = [] ∧ after.sendingOn port = [] ∧
      ∀ other ∈ t.ports, after.rings? other = t.device.rings? other := by
  -- The queue gets new rings, which hold nothing, and the other queues keep theirs.
  obtain ⟨nic, queue, rings, found, closed, rx, tx, rfl, rfl⟩ := Device.openPort_cases opened
  let filled : Queue := { queue with rings := some rings, openings := rings.opening }
  have here := (Device.rings?_setQueue_cases found (rfl : filled.rings = some rings)).1 0
  refine ⟨rfl, ?_, ?_, ?_⟩
  · rw [Device.receivedOn, here, Option.map_some, Option.getD_some, rx.toList_eq]
  · rw [Device.sendingOn, here, Option.map_some, Option.getD_some, tx.toList_eq]
  · intro other listed
    exact Device.rings?_setQueue_of_ne found rfl (sound.apart_of_closed found closed listed)

/-- Whatever permitted calls were made on a device: no two open ports are ones of the same queue pair;
a queue pair can be opened exactly when it exists, has no open port, and both rings can be made; an
opening that is refused changes nothing, and one that is not finds empty rings and leaves the others
theirs; and closing a port does all that closing has to do. -/
theorem queues_owned (run : t.RunsOn settings) :
    (t.ports.map Port.id).Nodup ∧
    (∀ port ∈ t.ports, (t.device.rings? port).isSome) ∧
    (∀ id rxDescriptors txDescriptors, t.Opens id rxDescriptors txDescriptors ↔
      settings.Has id ∧ (∀ port ∈ t.ports, port.id ≠ id) ∧
        DescriptorsFit rxDescriptors ∧ DescriptorsFit txDescriptors) ∧
    (∀ id rxDescriptors txDescriptors, ¬ t.Opens id rxDescriptors txDescriptors →
      t.call (.openPort id rxDescriptors txDescriptors) = t) ∧
    (∀ id rxDescriptors txDescriptors port after,
      t.device.openPort 0 id rxDescriptors txDescriptors = .ok (port, after) →
      port.id = id ∧ after.receivedOn port = [] ∧ after.sendingOn port = [] ∧
        ∀ other ∈ t.ports, after.rings? other = t.device.rings? other) ∧
    ∀ port ∈ t.ports, t.Closes port := by
  -- That the device is attended gives when a queue pair opens, and that it is sound the rest.
  have sound := run.reachable.sound
  have attended := run.attended
  refine ⟨sound.distinct, sound.owned, attended.opens_iff sound, ?_, ?_, ?_⟩
  · intro id rxDescriptors txDescriptors refused
    simp only [Traffic.call]
    split
    · rfl
    · rename_i opened
      exact absurd ⟨_, _, opened⟩ refused
  · intro id rxDescriptors txDescriptors port after opened
    exact sound.opened opened
  · exact fun port listed => sound.closes listed

/-- A queue pair of the second network port of a device. -/
def secondId : PortId := ⟨1, 0⟩

/-- The port that its first opening gives. -/
def twinPort : Port := ⟨0, secondId, 1⟩

/-- A device of two network ports over a pool of two buffers. -/
def twinMade : Traffic :=
  { pairMade with device := (Device.make 0 { ports := 2 }).toOption.getD ⟨0, #[]⟩ }

/-- The device once the second of these was opened and two frames were delivered to it. -/
def twinFed : Traffic :=
  ((twinMade.call (.openPort secondId 4 4)).call (.inject secondId [1])).call (.inject secondId [2])

/-- The device once the first packet was received and sent. -/
def twinSent : Traffic :=
  (twinFed.call (.rxBurst twinPort 1)).call (.txBurst twinPort [⟨0, 0⟩])

/-- A plane with this device, and with one that has a single network port. -/
def twinPlane : Plane :=
  { buffers := twinSent.ledger.buffers, devices := #[twinSent.device, pairMade.device] }

/-- A port with a packet on either ring is closed through a device that has no such queue pair and
refuses: both packets are back in their pool, and the queue pair can be opened again. -/
theorem queues_owned_refused :
    twinSent.RunsOn { ports := 2 } ∧ twinSent.ports = [twinPort] ∧
    (twinPlane.closePortThrough 1 twinPort).1 = .error (.device 1 .noSuchDevice) ∧
    ¬ twinSent.Opens secondId 4 4 ∧
    twinSent.device.receivedOn twinPort ++ twinSent.device.sendingOn twinPort =
      [⟨0, 1⟩, ⟨0, 0⟩] ∧
    let closed := twinSent.call (.close twinPort)
    closed.Opens secondId 4 4 ∧ closed.ledger.buffers.Settled ∧
      (∀ packet ∈ [(⟨0, 1⟩ : Packet), ⟨0, 0⟩], closed.ledger.buffers.refcount packet = 0) ∧
      closed.HostedBy (twinPlane.closePortThrough 1 twinPort).2 0 := by
  -- The refusal is met by closing through another device, which has the port but no such queue pair.
  have pools : Ledger.Reachable pairMade.ledger := Ledger.Reachable.start.call (.make ..) trivial
  have start : twinMade.RunsOn { ports := 2 } :=
    .start pools (by cbv : Device.make 0 { ports := 2 } = .ok twinMade.device)
  have fed : twinFed.RunsOn { ports := 2 } :=
    ((start.call (.openPort ..) trivial).call (.inject ..) trivial).call (.inject ..) trivial
  have ports : twinFed.ports = [twinPort] := by cbv
  have listed : twinPort ∈ twinFed.ports := ports ▸ List.mem_cons_self
  have taken : (twinFed.call (.rxBurst twinPort 1)).ledger.packets = [⟨0, 0⟩] := by cbv
  have run : twinSent.RunsOn { ports := 2 } :=
    (fed.call (.rxBurst twinPort 1) listed).call (.txBurst twinPort [⟨0, 0⟩])
      ⟨listed, taken ▸ List.Subperm.refl _⟩
  -- One packet was received and not taken, the other waits to be sent.
  have left : twinSent.device.receivedOn twinPort ++ twinSent.device.sendingOn twinPort =
      [⟨0, 1⟩, ⟨0, 0⟩] := by cbv
  obtain ⟨-, -, opens, -, -, closes⟩ := queues_owned run
  obtain ⟨released, settled, -, -, openable, anyhow⟩ := closes twinPort listed
  refine ⟨run, ports, by cbv, ?_, left, ?_, settled, ?_, ?_⟩
  · intro again
    exact ((opens _ _ _).mp again).2.1 twinPort listed rfl
  · have fits : DescriptorsFit 4 := ⟨⟨2, rfl⟩, by decide⟩
    exact (openable _ _ _).mpr (.inr ⟨rfl, fits, fits⟩)
  · intro packet waits
    -- Closing releases each of the two once, and each was held once.
    have back := released packet
    rw [left] at back
    simp only [List.mem_cons, List.not_mem_nil, or_false] at waits
    obtain rfl | rfl := waits
    · have held : twinSent.ledger.buffers.refcount ⟨0, 1⟩ = 1 := by cbv
      have once : List.count (⟨0, 1⟩ : Packet) [⟨0, 1⟩, ⟨0, 0⟩] = 1 := by decide
      omega
    · have held : twinSent.ledger.buffers.refcount ⟨0, 0⟩ = 1 := by cbv
      have once : List.count (⟨0, 0⟩ : Packet) [⟨0, 1⟩, ⟨0, 0⟩] = 1 := by decide
      omega
  · exact (anyhow twinPlane 0 ⟨rfl, rfl⟩ 1).1

end Traffic

end PacketPlane
