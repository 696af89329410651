import Mathlib.Data.List.Permutation
import PacketPlane.Proofs.Device.Accounting

/-! Failures on a device: a frame that is lost costs no buffer, and a link that goes down and comes up
again costs no queued packet. -/

namespace PacketPlane

/-- As many slots are free and held in two balanced pools of one size where the same slots are held. -/
theorem Pool.Balanced.counts_eq {p q : Pool} {free freeLater : List Nat}
    (balanced : p.Balanced free []) (later : q.Balanced freeLater [])
    (size : q.capacity = p.capacity) (same : ∀ i, q.refcount i = p.refcount i) :
    q.available = p.available ∧ q.inUse = p.inUse := by
  have listed := balanced.unheld
  have listedLater := later.unheld
  have distinct := balanced.distinct
  have distinctLater := later.distinct
  have counted := balanced.counted
  have countedLater := later.counted
  rw [List.append_nil] at listed listedLater distinct distinctLater counted countedLater
  -- Both free rings list exactly the slots that nothing holds.
  have perm : freeLater.Perm free := by
    rw [List.perm_ext_iff_of_nodup distinctLater distinct]
    intro i
    rw [listed, listedLater, size, same]
  rw [later.available_eq, balanced.available_eq]
  have length := perm.length_eq
  omega

namespace Buffers

/-- How many buffers of a pool are free, and how many are held. -/
def counts? (b : Buffers) (pool : Nat) : Option (Nat × Nat) :=
  b.pools[pool]?.map fun p => (p.available, p.inUse)

/-- How many buffers a pool has. -/
def capacity? (b : Buffers) (pool : Nat) : Option Nat :=
  b.pools[pool]?.map Pool.capacity

variable {b after : Buffers} {packet : Packet} {k : Nat}

/-- Pools at rest that have the same buffers held count the same. -/
theorem Settled.counts?_eq (settled : b.Settled) (later : after.Settled)
    (same : ∀ packet, after.refcount packet = b.refcount packet)
    (sizes : ∀ pool, after.capacity? pool = b.capacity? pool) (pool : Nat) :
    after.counts? pool = b.counts? pool := by
  -- In a pool at rest, the free buffers are as many as its references leave.
  have size := sizes pool
  rw [capacity?, capacity?] at size
  rw [counts?, counts?]
  cases found : b.pools[pool]? with
  | none =>
    rw [found, Option.map_none, Option.map_eq_none_iff] at size
    rw [size]
  | some p =>
    rw [found, Option.map_some, Option.map_eq_some_iff] at size
    obtain ⟨q, there, size⟩ := size
    obtain ⟨free, own⟩ := settled pool p found
    obtain ⟨freeLater, ownLater⟩ := later pool q there
    have counts : ∀ i, q.refcount i = p.refcount i := by
      intro i
      have held := same ⟨pool, i⟩
      rwa [refcount_eq, refcount_eq, there, found] at held
    obtain ⟨available, inUse⟩ := own.counts_eq ownLater size counts
    rw [there, Option.map_some, Option.map_some, available, inUse]

/-- A pool that was replaced by one of the same size leaves the sizes of all. -/
theorem capacity?_setPool {p q : Pool} (found : b.pools[k]? = some p)
    (size : q.capacity = p.capacity) (pool : Nat) :
    (b.setPool k q).capacity? pool = b.capacity? pool := by
  -- Pool by pool, and only the one in question is another.
  rw [capacity?, capacity?, pools_setPool found]
  split
  · rename_i same
    rw [same, found, Option.map_some, Option.map_some, size]
  · rfl

/-- Handing out a packet leaves the sizes of all pools. -/
theorem capacity?_alloc (handed : b.alloc k = .ok (packet, after)) (pool : Nat) :
    after.capacity? pool = b.capacity? pool := by
  -- A pool that hands a packet out touches none, and so keeps its size.
  unfold alloc tryPool at handed
  cases found : b.pools[k]? with
  | none => simp [found] at handed
  | some p =>
    cases taken : p.alloc with
    | error fault => simp [found, taken] at handed
    | ok outcome =>
      simp only [found, taken, Except.ok.injEq, Prod.mk.injEq] at handed
      obtain ⟨rfl, rfl⟩ := handed
      exact capacity?_setPool found (Pool.alloc_touches taken).capacity pool

/-- Buffers that differ in packets alone have pools of the same sizes. -/
theorem Alike.capacity? (alike : b.Alike after) (pool : Nat) :
    after.capacity? pool = b.capacity? pool := by
  -- The buffers are the same or differ in one pool of the same size.
  cases alike with
  | same => rfl
  | setPool found alike => exact capacity?_setPool found alike.size pool

/-- Whatever is done to a packet leaves the sizes of all pools. -/
theorem capacity?_performAll (b : Buffers) (packet : Packet) (edits : List Edit) (pool : Nat) :
    (b.performAll packet edits).capacity? pool = b.capacity? pool := by
  -- By induction on the edits, over all buffers, since each edit leaves other buffers behind.
  induction edits generalizing b with
  | nil => rfl
  | cons edit rest ih =>
    exact (ih (b.perform packet edit)).trans ((perform_alike packet edit).capacity? pool)

/-- Giving a packet back leaves the sizes of all pools. -/
theorem capacity?_release (b : Buffers) (packet : Packet) (pool : Nat) :
    (b.release packet).capacity? pool = b.capacity? pool := by
  -- A pool that does not exist is not changed, and one that does keeps its size.
  rw [release]
  cases found : b.pools[packet.pool]? with
  | none => rw [modifyPool_none found]
  | some p =>
    rw [modifyPool_eq found]
    exact capacity?_setPool found (p.release_touches packet.index).capacity pool

end Buffers

namespace Traffic

variable {t : Traffic}

/-- A frame that was not received leaves every pool with as many free and held buffers as before. -/
theorem Sound.counts?_inject (sound : t.Sound) {id : PortId} {frame : List UInt8}
    (lost : ∀ d b, t.device.inject t.ledger.buffers id frame ≠ .ok (true, d, b)) (pool : Nat) :
    (t.call (.inject id frame)).ledger.buffers.counts? pool = t.ledger.buffers.counts? pool := by
  simp only [Traffic.call]
  cases delivered : t.device.inject t.ledger.buffers id frame with
  | error fault => rfl
  | ok outcome =>
    obtain ⟨received, d, b⟩ := outcome
    obtain ⟨nic, queue, found, ends⟩ := Device.inject_cases delivered
    cases ends with
    | missed => rfl
    | starved => rfl
    | @dropped packet after edits fed handed =>
      -- The buffer that was handed out is back, so the same buffers are held as before.
      have later := sound.whole.later (.allocated_given (l := t.whole) handed edits)
      refine sound.whole.settled.counts?_eq later.settled ?_ ?_ pool
      · intro packet
        rw [later.counted, sound.whole.counted]
        rfl
      · intro pool
        calc ((after.performAll packet edits).release packet).capacity? pool
            = (after.performAll packet edits).capacity? pool := Buffers.capacity?_release ..
          _ = after.capacity? pool := Buffers.capacity?_performAll ..
          _ = t.ledger.buffers.capacity? pool := Buffers.capacity?_alloc handed pool
    | received => exact absurd delivered (lost _ _)

end Traffic

namespace Device

/-- Received packets that the owner of a port has not taken yet. -/
def receivedOn (d : Device) (port : Port) : List Packet :=
  ((d.rings? port).map (·.rx.toList)).getD []

/-- Packets sent by the owner of a port that the wire has not taken yet. -/
def sendingOn (d : Device) (port : Port) : List Packet :=
  ((d.rings? port).map (·.tx.toList)).getD []

/-- What a call takes off the wire of a queue pair. -/
def drained (d : Device) (id : PortId) : TrafficCall → List Packet
  | .drainTx other limit =>
    if other = id then ((d.drainTx other limit).toOption.map (·.1)).getD [] else []
  | _ => []

/-- A later state of a device, in which a port has the same rings and its network port the same link. -/
structure Steady (before after : Device) (port : Port) : Prop where
  rings : after.rings? port = before.rings? port
  link : after.linkless port.id.device = before.linkless port.id.device

variable {d : Device} {device : UInt16} {id : PortId} {port : Port} {nic nic' : Nic} {queue : Queue}

/-- A device that stays as it is. -/
theorem Steady.refl (d : Device) (port : Port) : d.Steady d port :=
  ⟨rfl, rfl⟩

/-- A network port that keeps its link leaves the links of all. -/
theorem linkless_setNic (found : d.nic device = .ok nic) (link : nic'.linkUp = nic.linkUp)
    (other : UInt16) : (d.setNic device nic').linkless other = d.linkless other := by
  -- The network port is the one that was replaced, or is found as before.
  by_cases same : other = device
  · subst same
    rw [linkless_eq found, linkless_eq ((nic_setNic found other).trans (if_pos rfl)), link]
  · rw [linkless, linkless, nic_setNic found, if_neg same]

/-- A network port that only counts or reports something leaves every port as it is. -/
theorem Steady.setNic (found : d.nic device = .ok nic) (kept : nic'.queues = nic.queues)
    (link : nic'.linkUp = nic.linkUp) (port : Port) : d.Steady (d.setNic device nic') port :=
  ⟨rings?_setNic (nic_eq_ok found) kept port, linkless_setNic found link _⟩

/-- A link that was set is up or down as it was set, and the others are as before. -/
theorem linkless_setLink {d' : Device} {up : Bool} (done : d.setLink device up = .ok d')
    (other : UInt16) :
    d'.linkless other = if other = device then !up else d.linkless other := by
  -- The network port is the one whose link was set, or is found as before.
  rw [setLink] at done
  split at done
  · cases done
  · rename_i nic found
    cases done
    by_cases same : other = device
    · subst same
      rw [if_pos rfl, linkless_eq ((nic_setNic found other).trans (if_pos rfl))]
      cases up <;> rfl
    · rw [linkless, linkless, nic_setNic found, if_neg same, if_neg same]

/-- A queue that is replaced leaves the ports of others as they are. -/
theorem Steady.setQueue (found : d.queue id = .ok (nic, queue)) (kept : nic'.queues = nic.queues)
    (link : nic'.linkUp = nic.linkUp) {queue' : Queue} (apart : port.id ≠ id) :
    d.Steady (d.setQueue id nic' queue') port := by
  -- Ports of other queues keep their rings, and the network port keeps its link.
  refine ⟨rings?_setQueue_of_ne found kept apart, ?_⟩
  have same : (nic'.withQueue id.queue queue').linkUp = nic.linkUp := link
  exact linkless_setNic (queue_eq_ok_iff.mp found).1 same _

/-- A queue pair with a link is another one than that of a port without. -/
theorem ne_of_linked (down : d.linkless port.id.device = true) (found : d.queue id = .ok (nic, queue))
    (up : nic.linkUp = true) : port.id ≠ id := by
  -- One queue pair is on one network port, which has a link or not.
  rintro rfl
  rw [linkless_eq (queue_eq_ok_iff.mp found).1, up] at down
  cases down

end Device

namespace Traffic

variable {t later : Traffic} {port : Port} {c : TrafficCall} {drained : List Packet}

/-- Traffic while the link of an open port is down, with what was taken off its wire meanwhile: anything
may be called but to bring the link up or to close the port. -/
inductive Outage (t : Traffic) (port : Port) : Traffic → List Packet → Prop
  | start : Outage t port t []
  | call {later : Traffic} {drained : List Packet} (run : Outage t port later drained)
    (c : TrafficCall) (permitted : later.Permits c) (kept : c ≠ .close port)
    (down : c ≠ .setLink port.id.device true) :
    Outage t port (later.call c) (drained ++ later.device.drained port.id c)

/-- A port stays open until it is closed. -/
theorem mem_ports_call (listed : port ∈ t.ports) (kept : c ≠ .close port) :
    port ∈ (t.call c).ports := by
  -- By cases on the call: ports are only added, but for the one that is closed.
  cases c with
  | openPort id rxDescriptors txDescriptors =>
    simp only [Traffic.call]
    split
    · exact listed
    · exact List.mem_cons_of_mem _ listed
  | close other =>
    have apart : port ≠ other := fun same => kept (same ▸ rfl)
    exact (List.mem_erase_of_ne apart).mpr listed
  | pool c => exact listed
  | rxBurst other limit => exact listed
  | txBurst other packets => exact listed
  | inject id frame | drainTx id limit | setBudget id budget | setLink device up
  | raise device code =>
    simp only [Traffic.call]
    split <;> exact listed

/-- Opening a queue pair leaves every open port as it is. -/
theorem Sound.steady_openPort (sound : t.Sound) (listed : port ∈ t.ports) (id : PortId)
    (rxDescriptors txDescriptors : Nat) :
    t.device.Steady (t.call (.openPort id rxDescriptors txDescriptors)).device port := by
  -- What is opened was closed, so it is not the queue pair of an open port.
  simp only [Traffic.call]
  split
  · exact .refl ..
  · rename_i opened
    obtain ⟨nic, queue, rings, found, closed, -, -, -, rfl⟩ := Device.openPort_cases opened
    exact .setQueue found (by rfl) (by rfl) (sound.apart_of_closed found closed listed)

/-- Closing another port leaves an open port as it is. -/
theorem Sound.steady_close (sound : t.Sound) {other : Port} (permitted : other ∈ t.ports)
    (listed : port ∈ t.ports) (kept : port ≠ other) :
    t.device.Steady (t.call (.close other)).device port := by
  -- Two open ports have two queue pairs.
  obtain ⟨nic, queue, rings, owned, found, -⟩ := sound.there permitted
  simp only [Traffic.call, Device.closePort, owned]
  exact .setQueue found (by rfl) (by rfl) (sound.apart_of_ne listed permitted kept)

/-- A frame that comes in leaves every port without link as it is. -/
theorem steady_inject (down : t.device.linkless port.id.device = true) (id : PortId)
    (frame : List UInt8) : t.device.Steady (t.call (.inject id frame)).device port := by
  -- A frame that is lost is counted at most, and one that is received came over a link.
  simp only [Traffic.call]
  split
  · exact .refl ..
  · rename_i delivered
    obtain ⟨nic, queue, found, ends⟩ := Device.inject_cases delivered
    have there := (Device.queue_eq_ok_iff.mp found).1
    cases ends with
    | missed => exact .setNic there (by rfl) (by rfl) port
    | starved => exact .setNic there (by rfl) (by rfl) port
    | dropped => exact .setNic there (by rfl) (by rfl) port
    | received fed up => exact .setQueue found (by rfl) (by rfl) (Device.ne_of_linked down found up)

/-- Receiving on any port leaves a port without link as it is. -/
theorem Sound.steady_rxBurst (sound : t.Sound) {other : Port} (permitted : other ∈ t.ports)
    (down : t.device.linkless port.id.device = true) (limit : Nat) :
    t.device.Steady (t.call (.rxBurst other limit)).device port := by
  -- Nothing is received without a link.
  obtain ⟨nic, queue, rings, owned, found, -⟩ := sound.there permitted
  simp only [Traffic.call, Device.rxBurst, owned]
  split
  · exact .refl ..
  · rename_i up
    exact .setQueue found (by rfl) (by rfl) (Device.ne_of_linked down found (by simpa using up))

/-- Sending on any port leaves a port without link as it is. -/
theorem Sound.steady_txBurst (sound : t.Sound) {other : Port} (permitted : other ∈ t.ports)
    (down : t.device.linkless port.id.device = true) (packets : List Packet) :
    t.device.Steady (t.call (.txBurst other packets)).device port := by
  -- What is sent without a link is refused and counted.
  obtain ⟨nic, queue, rings, owned, found, -⟩ := sound.there permitted
  simp only [Traffic.call, Device.txBurst, owned]
  split
  · exact .refl ..
  · split
    · exact .setNic (Device.queue_eq_ok_iff.mp found).1 (by rfl) (by rfl) port
    · rename_i up
      exact .setQueue found (by rfl) (by rfl) (Device.ne_of_linked down found (by simpa using up))

/-- Taking packets off the wire of a queue pair leaves the ports of others as they are. -/
theorem steady_drainTx {id : PortId} (apart : port.id ≠ id) (limit : Nat) :
    t.device.Steady (t.call (.drainTx id limit)).device port := by
  -- Only an open queue pair has anything on its wire.
  simp only [Traffic.call, Device.drainTx]
  cases found : t.device.queue id with
  | error fault => exact .refl ..
  | ok pair =>
    obtain ⟨nic, queue⟩ := pair
    cases opened : queue.rings with
    | none =>
      simp only [opened]
      exact .refl ..
    | some rings =>
      simp only [opened]
      exact .setQueue found (by rfl) (by rfl) apart

/-- A budget leaves every port as it is. -/
theorem steady_setBudget (t : Traffic) (port : Port) (id : PortId) (budget : Option UInt64) :
    t.device.Steady (t.call (.setBudget id budget)).device port := by
  -- The queue pair that it is set on keeps its rings.
  simp only [Traffic.call, Device.setBudget]
  cases found : t.device.queue id with
  | error fault => exact .refl ..
  | ok pair =>
    obtain ⟨nic, queue⟩ := pair
    refine ⟨Device.rings?_setQueue_same found (by rfl) port, ?_⟩
    exact Device.linkless_setNic (Device.queue_eq_ok_iff.mp found).1 (by rfl) _

/-- A link that is set leaves a port without link as it is, unless that is what brings its own up. -/
theorem steady_setLink (down : t.device.linkless port.id.device = true) {device : UInt16} {up : Bool}
    (stays : port.id.device = device → up = false) :
    t.device.Steady (t.call (.setLink device up)).device port := by
  -- Its own link was down, and may only be brought down once more.
  cases done : t.device.setLink device up with
  | error fault =>
    simp only [Traffic.call, done]
    exact .refl ..
  | ok after =>
    simp only [Traffic.call, done]
    refine ⟨Device.rings?_setLink done port, ?_⟩
    rw [Device.linkless_setLink done]
    split
    · rename_i same
      rw [down, stays same]
      rfl
    · rfl

/-- An error that is raised leaves every port as it is. -/
theorem steady_raise (t : Traffic) (port : Port) (device : UInt16) (code : DeviceCode) :
    t.device.Steady (t.call (.raise device code)).device port := by
  -- It is reported on its network port and changes nothing else there.
  simp only [Traffic.call, Device.raise]
  cases found : t.device.nic device with
  | error fault => exact .refl ..
  | ok nic => exact .setNic found (by rfl) (by rfl) port

/-- Without link, a port keeps its rings whatever is called, unless packets are taken off its wire. -/
theorem Sound.steady (sound : t.Sound) (permitted : t.Permits c) (listed : port ∈ t.ports)
    (down : t.device.linkless port.id.device = true) (kept : c ≠ .close port)
    (stays : c ≠ .setLink port.id.device true) (wire : ∀ limit, c ≠ .drainTx port.id limit) :
    t.device.Steady (t.call c).device port := by
  -- Each call is closing, draining or bringing up something else, or needs a link.
  cases c with
  | pool c => exact .refl ..
  | openPort id rxDescriptors txDescriptors => exact sound.steady_openPort listed id _ _
  | close other =>
    have differs : port ≠ other := fun same => kept (same ▸ rfl)
    exact sound.steady_close permitted listed differs
  | inject id frame => exact steady_inject down id frame
  | rxBurst other limit => exact sound.steady_rxBurst permitted down limit
  | txBurst other packets => exact sound.steady_txBurst permitted.1 down packets
  | drainTx id limit =>
    have apart : port.id ≠ id := fun same => wire limit (same ▸ rfl)
    exact steady_drainTx apart limit
  | setBudget id budget => exact t.steady_setBudget port id budget
  | setLink device up =>
    refine steady_setLink down fun same => ?_
    subst same
    cases up with
    | true => exact absurd rfl stays
    | false => rfl
  | raise device code => exact t.steady_raise port device code

/-- Nothing is taken off the wire of a queue pair by other calls. -/
theorem drained_eq_nil {d : Device} {id : PortId} (wire : ∀ limit, c ≠ .drainTx id limit) :
    d.drained id c = [] := by
  -- By cases on the call, of which only draining takes packets off a wire.
  cases c with
  | drainTx other limit =>
    have apart : other ≠ id := fun same => wire limit (same ▸ rfl)
    exact if_neg apart
  | _ => rfl

/-- Packets taken off the wire of an open port come from the front of what it sent. -/
theorem Sound.wire (sound : t.Sound) (listed : port ∈ t.ports) (limit : Nat) :
    let after := (t.call (.drainTx port.id limit)).device
    after.receivedOn port = t.device.receivedOn port ∧
      t.device.sendingOn port =
        t.device.drained port.id (.drainTx port.id limit) ++ after.sendingOn port ∧
      after.linkless port.id.device = t.device.linkless port.id.device := by
  -- Packets leave the front of the transmit ring, and the receive ring stays.
  intro after
  obtain ⟨nic, queue, rings, owned, found, opened⟩ := sound.there listed
  obtain ⟨-, tx⟩ := sound.holds found opened
  obtain ⟨taken, -, rest⟩ := tx.dequeueBulk_holds limit
  have before : t.device.rings? port = some rings := by rw [Device.rings?, owned, Option.map_some]
  have now : after.rings? port = some { rings with tx := (rings.tx.dequeueBulk limit).ring } := by
    simp only [after, Traffic.call, Device.drainTx, found, opened]
    rw [Device.rings?_setQueue owned rfl (by rfl) (by rfl), if_pos ⟨rfl, rfl⟩]
  have wire : t.device.drained port.id (.drainTx port.id limit) = queue.sending.take limit := by
    simp only [Device.drained, if_true, Device.drainTx, found, opened, Except.toOption,
      Option.map_some, Option.getD_some, taken]
  refine ⟨?_, ?_, ?_⟩
  · rw [Device.receivedOn, Device.receivedOn, before, now]
    rfl
  · rw [Device.sendingOn, Device.sendingOn, before, now, wire]
    simp only [Option.map_some, Option.getD_some, tx.toList_eq, rest.toList_eq,
      List.take_append_drop]
  · simp only [after, Traffic.call, Device.drainTx, found, opened]
    exact Device.linkless_setNic (Device.queue_eq_ok_iff.mp found).1 (by rfl) _

/-- While the link is down, an open port keeps all that it received, and all that it sent but for what
was taken off the wire. -/
theorem Outage.kept (outage : t.Outage port later drained) (sound : t.Sound)
    (listed : port ∈ t.ports) (down : t.device.linkless port.id.device = true) :
    later.Sound ∧ port ∈ later.ports ∧ later.device.linkless port.id.device = true ∧
      later.device.receivedOn port = t.device.receivedOn port ∧
      t.device.sendingOn port = drained ++ later.device.sendingOn port := by
  -- Each call either leaves the port's rings or takes packets off the front of what it sent.
  induction outage with
  | start => exact ⟨sound, listed, down, rfl, rfl⟩
  | call run c permitted kept stays ih =>
    obtain ⟨soundLater, listedLater, downLater, received, sending⟩ := ih
    refine ⟨soundLater.call permitted, mem_ports_call listedLater kept, ?_⟩
    by_cases wire : ∃ limit, c = .drainTx port.id limit
    · obtain ⟨limit, rfl⟩ := wire
      obtain ⟨same, fewer, link⟩ := soundLater.wire listedLater limit
      refine ⟨link.trans downLater, same.trans received, ?_⟩
      rw [sending, fewer, List.append_assoc]
    · have wire : ∀ limit, c ≠ .drainTx port.id limit := fun limit same => wire ⟨limit, same⟩
      have steady := soundLater.steady permitted listedLater downLater kept stays wire
      refine ⟨steady.link.trans downLater, ?_, ?_⟩
      · rw [Device.receivedOn, steady.rings]
        exact received
      · rw [sending, drained_eq_nil wire, List.append_nil, Device.sendingOn, Device.sendingOn,
          steady.rings]

/-- A link that is brought up or down leaves the rings of every port. -/
theorem rings?_call_setLink (t : Traffic) (device : UInt16) (up : Bool) (port : Port) :
    (t.call (.setLink device up)).device.rings? port = t.device.rings? port := by
  -- A link that cannot be set changes nothing, and one that can is no part of any queue.
  simp only [Traffic.call]
  split
  · rfl
  · rename_i done
    exact Device.rings?_setLink done port

/-- An open port loses nothing while its link goes down and comes up again. -/
theorem Sound.outage (sound : t.Sound) (listed : port ∈ t.ports)
    (outage : (t.call (.setLink port.id.device false)).Outage port later drained) :
    let up := later.call (.setLink port.id.device true)
    port ∈ up.ports ∧ up.device.receivedOn port = t.device.receivedOn port ∧
      t.device.sendingOn port = drained ++ up.device.sendingOn port := by
  -- While the link is down only the wire can take packets, so the outage is a run of such calls.
  intro up
  obtain ⟨nic, queue, rings, -, found, -⟩ := sound.there listed
  have down : (t.call (.setLink port.id.device false)).device.linkless port.id.device = true := by
    have done : t.device.setLink port.id.device false = .ok (t.device.setNic port.id.device
        ({ nic with linkUp := false }.report .linkDown)) := by
      simp only [Device.setLink, (Device.queue_eq_ok_iff.mp found).1, Bool.false_eq_true, if_false]
    simp only [Traffic.call, done]
    rw [Device.linkless_setLink done, if_pos rfl]
    rfl
  obtain ⟨-, listedLater, -, received, sending⟩ := outage.kept (sound.setLink _ _)
    (mem_ports_call listed (by simp)) down
  refine ⟨mem_ports_call listedLater (by simp), ?_, ?_⟩
  · rw [Device.receivedOn, rings?_call_setLink]
    rw [Device.receivedOn, Device.receivedOn, rings?_call_setLink] at received
    exact received
  · rw [Device.sendingOn, Device.sendingOn, rings?_call_setLink]
    rw [Device.sendingOn, Device.sendingOn, rings?_call_setLink] at sending
    exact sending

/-- Whatever pools and ports were made, opened and closed and whatever permitted calls followed: the
counters and errors of every network port balance its books, a frame that is not received leaves every
pool with as many free and held buffers as before, and an open port loses no packet while its link
goes down and comes up again. -/
theorem device_accounted (run : t.Reachable) :
    (∀ device nic, t.device.nic device = .ok nic → nic.Accounts (t.books device)) ∧
    (∀ id frame, (∀ d b, t.device.inject t.ledger.buffers id frame ≠ .ok (true, d, b)) →
      ∀ pool, (t.call (.inject id frame)).ledger.buffers.counts? pool =
        t.ledger.buffers.counts? pool) ∧
    ∀ port ∈ t.ports, ∀ later drained,
      (t.call (.setLink port.id.device false)).Outage port later drained →
      let up := later.call (.setLink port.id.device true)
      port ∈ up.ports ∧ up.device.receivedOn port = t.device.receivedOn port ∧
        t.device.sendingOn port = drained ++ up.device.sendingOn port :=
  ⟨run.sound.accounts, fun _ _ lost => run.sound.counts?_inject lost,
    fun _ listed _ _ outage => run.sound.outage listed outage⟩

/-- The only queue pair of a device. -/
def onlyId : PortId := ⟨0, 0⟩

/-- The port that its first opening gives. -/
def onlyPort : Port := ⟨0, onlyId, 1⟩

/-- A device over a pool of two buffers. -/
def pairMade : Traffic :=
  -- Memory without end is granted.
  { ledger := ({} : Ledger).call (.make "pair" { capacity := 2 } fun size node => .ok { size, node })
    device := (Device.make 0 { ports := 1 }).toOption.getD ⟨0, #[]⟩ }

/-- The device once its port was opened and three frames were delivered, of which the last found no
buffer. -/
def pairFed : Traffic :=
  (((pairMade.call (.openPort onlyId 4 4)).call (.inject onlyId [1])).call (.inject onlyId [2])).call
    (.inject onlyId [3])

/-- The device once the first packet was received and sent. -/
def pairSent : Traffic :=
  (pairFed.call (.rxBurst onlyPort 1)).call (.txBurst onlyPort [⟨0, 0⟩])

/-- The device without link, after both its wire and its owner looked for packets. -/
def pairCut : Traffic :=
  ((pairSent.call (.setLink 0 false)).call (.drainTx onlyId 4)).call (.rxBurst onlyPort 4)

/-- A port that received a packet and sent it is cut off while another packet waits: its books balance,
a frame that finds no buffer changes no pool, and the other packet still waits when the link is up. -/
theorem device_accounted_cut :
    pairSent.Reachable ∧
    (∃ nic, pairSent.device.nic 0 = .ok nic ∧ nic.Accounts (pairSent.books 0) ∧
      nic.counters = { rxPackets := 1, rxNoBuffer := 1, txPackets := 1 }) ∧
    (pairSent.call (.inject onlyId [4])).ledger.buffers.counts? 0 = some (0, 2) ∧
    let up := pairCut.call (.setLink 0 true)
    up.device.receivedOn onlyPort = [⟨0, 1⟩] ∧
      pairSent.device.sendingOn onlyPort = [⟨0, 0⟩] ++ up.device.sendingOn onlyPort := by
  -- The run is built call by call, and each part of the theorem is used where it says something about
  -- it.
  have pools : Ledger.Reachable pairMade.ledger := Ledger.Reachable.start.call (.make ..) trivial
  have start : pairMade.Reachable :=
    .start pools (by cbv : Device.make 0 { ports := 1 } = .ok pairMade.device)
  have reached : pairFed.Reachable :=
    (((start.call (.openPort ..) trivial).call (.inject ..) trivial).call (.inject ..) trivial).call
      (.inject ..) trivial
  have ports : pairFed.ports = [onlyPort] := by cbv
  have listed : onlyPort ∈ pairFed.ports := by
    rw [ports]
    exact List.mem_cons_self
  have taken : (pairFed.call (.rxBurst onlyPort 1)).ledger.packets = [⟨0, 0⟩] := by cbv
  have run : pairSent.Reachable :=
    (reached.call (.rxBurst onlyPort 1) listed).call (.txBurst onlyPort [⟨0, 0⟩])
      ⟨listed, taken ▸ List.Subperm.refl _⟩
  have sent : onlyPort ∈ pairSent.ports := mem_ports_call (mem_ports_call listed (by simp)) (by simp)
  -- The outage begins when the link goes down, and lasts through what is drained and received
  -- meanwhile.
  have began : (pairSent.call (.setLink 0 false)).Outage onlyPort _ [] := .start
  have drained := began.call (.drainTx onlyId 4) trivial (by simp) (by simp)
  have quiet := drained.call (.rxBurst onlyPort 4)
    (mem_ports_call (mem_ports_call sent (by simp)) (by simp)) (by simp) (by simp)
  obtain ⟨accounts, lossless, outage⟩ := device_accounted run
  obtain ⟨-, kept, wire⟩ := outage onlyPort sent pairCut _ quiet
  refine ⟨run, ⟨_, (by cbv), accounts 0 _ (by cbv), by cbv⟩, ?_, kept.trans (by cbv), ?_⟩
  · -- There is no room for another frame, so the injection is the kind that loses nothing else.
    have lost : (pairSent.device.inject pairSent.ledger.buffers onlyId [4]).toOption.map (·.1) =
        some false := by cbv
    rw [lossless onlyId [4] _ 0]
    · cbv
    · intro d b received
      rw [received] at lost
      cases lost
  · exact wire.trans (congrArg (· ++ _) (by cbv))

end Traffic

end PacketPlane
