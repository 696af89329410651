import PacketPlane.Proofs.Device.Budgets
import PacketPlane.Proofs.Transmit.Fates
import PacketPlane.Proofs.Worker.Lookout

/-! Room: what the ends of a worker let through, and what using them changes about that. -/

namespace PacketPlane

namespace Device

variable {d : Device} {port : Port} {nic nic' : Nic} {queue queue' : Queue}
  {rings rings' : QueueRings}

/-- The capacities of the rings that a port has the right to use. -/
def sizes? (d : Device) (port : Port) : Option (Nat × Nat) :=
  (d.rings? port).map fun rings => (rings.rx.capacity, rings.tx.capacity)

/-- A later state of a device, with the same ports open, rings of the same sizes, and the same links. -/
structure Resembles (before after : Device) : Prop where
  sizes : ∀ port, after.sizes? port = before.sizes? port
  links : ∀ device, after.linkless device = before.linkless device

/-- A device resembles itself. -/
theorem Resembles.refl (d : Device) : d.Resembles d :=
  ⟨fun _ => rfl, fun _ => rfl⟩

/-- New rings of the same sizes leave a device much as it was. -/
theorem Resembles.setQueue (owned : d.owned? port = some (nic, queue, rings))
    (kept : nic'.queues = nic.queues) (link : nic'.linkUp = nic.linkUp)
    (now : queue'.rings = some rings') (opening : rings'.opening = rings.opening)
    (received : rings'.rx.capacity = rings.rx.capacity)
    (sending : rings'.tx.capacity = rings.tx.capacity) :
    d.Resembles (d.setQueue port.id nic' queue') := by
  -- The port in question has rings of the same sizes, and every other port has its own.
  constructor
  · intro other
    rw [sizes?, sizes?, rings?_setQueue owned kept now opening]
    split
    · rename_i same
      obtain ⟨id, opening⟩ := same
      have there : d.rings? other = some rings := by
        rw [rings?_eq, id, opening, ← rings?_eq, rings?, owned]
        rfl
      rw [there, Option.map_some, Option.map_some, received, sending]
    · rfl
  · have same : (nic'.withQueue port.id.queue queue').linkUp = nic.linkUp := link
    exact linkless_setNic (queue_eq_ok_iff.mp (queue_of_owned? owned).1).1 same

/-- The errors of network ports after one of them was replaced. -/
theorem errorCount_setNic {device : UInt16} (found : d.nic device = .ok nic) (other : UInt16) :
    (d.setNic device nic').errorCount other =
      if other = device then nic'.errors else d.errorCount other := by
  -- The network port is the one that was replaced, or another.
  rw [errorCount, nic_setNic found]
  by_cases same : other = device
  · rw [if_pos same, if_pos same]
  · rw [if_neg same, if_neg same, errorCount]

/-- A network port that is replaced by one with as many errors leaves the errors of all. -/
theorem errorCount_setNic_same {device : UInt16} (found : d.nic device = .ok nic)
    (same : nic'.errors = nic.errors) (other : UInt16) :
    (d.setNic device nic').errorCount other = d.errorCount other := by
  -- The network port is the one that was replaced, or another.
  rw [errorCount_setNic found]
  split
  · rename_i here
    rw [here, errorCount, found, same]
  · rfl

/-- What receiving changes about a device: neither sizes, links, budgets nor errors. -/
theorem rxBurst_resembles (d : Device) (port : Port) (limit : Nat) :
    let after := (d.rxBurst port limit).2
    d.Resembles after ∧ (∀ id, after.budget? id = d.budget? id) ∧
      ∀ device, after.errorCount device = d.errorCount device := by
  -- A port that owns nothing or has no link leaves the device as it is.
  simp only [rxBurst]
  cases owned : d.owned? port with
  | none => exact ⟨.refl d, fun _ => rfl, fun _ => rfl⟩
  | some held =>
    obtain ⟨nic, queue, rings⟩ := held
    simp only
    split
    · exact ⟨.refl d, fun _ => rfl, fun _ => rfl⟩
    · have found := (queue_of_owned? owned).1
      refine ⟨.setQueue owned (by rfl) (by rfl) (by rfl) (by rfl) ?_ (by rfl),
        budget?_setQueue_same found (by rfl) (by rfl),
        errorCount_setNic_same (queue_eq_ok_iff.mp found).1 (by rfl)⟩
      exact rings.rx.capacity_dequeueBulk limit

/-- A transmit ring keeps its capacity. -/
theorem capacity_sendWithin (tx : Ring Packet) (budget : Nat) (packets : List Packet) :
    (sendWithin tx budget packets).ring.capacity = tx.capacity := by
  -- By cases on the budget, and neither way changes the size of a ring.
  rw [sendWithin]
  split
  · exact tx.capacity_enqueueBulk packets
  · exact tx.capacity_enqueueBulk (packets.take budget)

end Device

/-- Whether handing packets to an output without link is an error of a network port. -/
def Target.blames (target : Target) (source : Nat) (device : UInt16) : Bool :=
  match target with
  | .ring _ => false
  | .port owned => owned.device == source && owned.id.device == device

namespace Plane

/-- Whether the network port of a queue pair has no link. -/
def linkless (p : Plane) (port : Port) : Bool :=
  ((p.device? port.device).map (·.linkless port.id.device)).getD false

/-- How many more packets a queue pair may send. -/
def budget (p : Plane) (port : Port) : Nat :=
  (((p.device? port.device).bind (·.budget? port.id)).map UInt64.toNat).getD 0

/-- How many packets there may be at a place. -/
def capacityAt (p : Plane) (place : Place) : Nat :=
  ((p.ringAt? place).map Ring.capacity).getD 0

/-- How many more packets fit at a place. -/
def vacancy (p : Plane) (place : Place) : Nat :=
  p.capacityAt place - (p.contents place).length

/-- Whether an input hands out what waits there. -/
def listens (p : Plane) : Input → Bool
  | .ring _ => true
  | .port port => (p.ringAt? (.received port)).isSome && !p.linkless port

/-- How many more packets an output is ready to accept. -/
def room (p : Plane) : Target → Nat
  | .ring number => p.vacancy (.ring number)
  | .port port => if p.linkless port then 0 else min (p.budget port) (p.vacancy (.sending port))

/-- Whether handing anything to an output is an error, since its link is down. -/
def severed (p : Plane) : Target → Bool
  | .ring _ => false
  | .port port => (p.ringAt? (.sending port)).isSome && p.linkless port

/-- A later state of a plane, with the same ends open, places of the same sizes, and the same links. -/
structure Resembles (before after : Plane) : Prop where
  listens : ∀ input, after.listens input = before.listens input
  severed : ∀ target, after.severed target = before.severed target
  links : ∀ port, after.linkless port = before.linkless port
  capacities : ∀ target : Target, after.capacityAt target.place = before.capacityAt target.place
  devices : ∀ number, (after.device? number).isSome = (before.device? number).isSome

variable {p q r : Plane} {number : Nat} {d d' : Device} {packets : List Packet}

/-- Planes with rings of the same sizes and devices that resemble each other do so too. -/
theorem Resembles.of_devices
    (rings : ∀ number, (q.ring? number).map Ring.capacity = (p.ring? number).map Ring.capacity)
    (devices : ∀ number, (p.device? number = none ∧ q.device? number = none) ∨
      ∃ d d', p.device? number = some d ∧ q.device? number = some d' ∧ d.Resembles d') :
    p.Resembles q := by
  -- Sizes and links are looked up in rings and in devices, and these resemble each other.
  have links : ∀ port, q.linkless port = p.linkless port := by
    intro port
    rw [Plane.linkless, Plane.linkless]
    obtain ⟨before, after⟩ | ⟨d, d', before, after, same⟩ := devices port.device
    · rw [before, after]
    · rw [before, after, Option.map_some, Option.map_some, same.links]
  have sizes : ∀ port, (q.device? port.device).bind (·.sizes? port) =
      (p.device? port.device).bind (·.sizes? port) := by
    intro port
    obtain ⟨before, after⟩ | ⟨d, d', before, after, same⟩ := devices port.device
    · rw [before, after]
    · rw [before, after, Option.bind_some, Option.bind_some, same.sizes]
  -- How large a port's rings are is asked of its device.
  have received : ∀ (s : Plane) (port : Port), (s.ringAt? (.received port)).map Ring.capacity =
      ((s.device? port.device).bind (·.sizes? port)).map Prod.fst := by
    intro s port
    rw [ringAt?]
    cases s.device? port.device with
    | none => rfl
    | some d =>
      rw [Option.bind_some, Option.bind_some, Device.sizes?]
      cases d.rings? port <;> rfl
  have sending : ∀ (s : Plane) (port : Port), (s.ringAt? (.sending port)).map Ring.capacity =
      ((s.device? port.device).bind (·.sizes? port)).map Prod.snd := by
    intro s port
    rw [ringAt?]
    cases s.device? port.device with
    | none => rfl
    | some d =>
      rw [Option.bind_some, Option.bind_some, Device.sizes?]
      cases d.rings? port <;> rfl
  refine ⟨fun input => ?_, fun target => ?_, links, fun target => ?_, fun number => ?_⟩
  · cases input with
    | ring number => rfl
    | port port =>
      rw [Plane.listens, Plane.listens, links, ← Option.isSome_map (f := Ring.capacity), received,
        sizes, ← received, Option.isSome_map]
  · cases target with
    | ring number => rfl
    | port port =>
      rw [Plane.severed, Plane.severed, links, ← Option.isSome_map (f := Ring.capacity), sending,
        sizes, ← sending, Option.isSome_map]
  · cases target with
    | ring number =>
      show ((q.ring? number).map Ring.capacity).getD 0 = ((p.ring? number).map Ring.capacity).getD 0
      rw [rings]
    | port port =>
      show ((q.ringAt? (.sending port)).map Ring.capacity).getD 0 =
        ((p.ringAt? (.sending port)).map Ring.capacity).getD 0
      rw [sending, sizes, ← sending]
  · obtain ⟨before, after⟩ | ⟨d, d', before, after, -⟩ := devices number <;> rw [before, after]
    rfl

/-- Planes with the same rings and devices resemble each other. -/
theorem Resembles.congr (rings : q.rings = p.rings) (devices : q.devices = p.devices) :
    p.Resembles q := by
  -- Every device resembles itself.
  apply Resembles.of_devices
  · intro number
    rw [ring?, ring?, rings]
  · intro number
    have same : q.device? number = p.device? number := by
      rw [device?, device?, devices]
    cases found : p.device? number with
    | none => exact .inl ⟨rfl, same.trans found⟩
    | some d => exact .inr ⟨d, d, rfl, same.trans found, .refl d⟩

/-- A ring replaced by one of the same size leaves a plane much as it was. -/
theorem Resembles.setRing {old ring : Ring Packet} (found : p.ring? number = some old)
    (size : ring.capacity = old.capacity) : p.Resembles (p.setRing number ring) := by
  -- The ring is the one that was replaced, or another.
  apply Resembles.of_devices
  · intro other
    have replaced := setRing_replaces found ring
    by_cases here : other = number
    · have now : (p.setRing number ring).ring? number = some ring := replaced.here
      rw [here, now, found, Option.map_some, Option.map_some, size]
    · have kept : (p.setRing number ring).ring? other = p.ring? other :=
        replaced.elsewhere (.ring other) fun clash => here (Place.ring.inj clash)
      rw [kept]
  · intro other
    have same : (p.setRing number ring).device? other = p.device? other := rfl
    cases there : p.device? other with
    | none => exact .inl ⟨rfl, same.trans there⟩
    | some d => exact .inr ⟨d, d, rfl, same.trans there, .refl d⟩

/-- A device replaced by one that resembles it leaves a plane much as it was. -/
theorem Resembles.setDevice (found : p.device? number = some d) (like : d.Resembles d') :
    p.Resembles (p.setDevice number d') := by
  -- The device is the one that was replaced, or another.
  apply Resembles.of_devices
  · exact fun _ => rfl
  · intro other
    rw [device?_setDevice found]
    by_cases here : number = other
    · subst here
      exact .inr ⟨d, d', found, if_pos rfl, like⟩
    · rw [if_neg here]
      cases there : p.device? other with
      | none => exact .inl ⟨rfl, rfl⟩
      | some e => exact .inr ⟨e, e, rfl, rfl, .refl e⟩

/-- The errors on a plane after a device was replaced. -/
theorem errorCount_setDevice (found : p.device? number = some d) (source : Nat) (port : UInt16) :
    (p.setDevice number d').errorCount source port =
      if number = source then d'.errorCount port else p.errorCount source port := by
  -- The device is the one that was replaced, or another.
  rw [errorCount, device?_setDevice found]
  by_cases same : number = source
  · rw [if_pos same, if_pos same]
  · rw [if_neg same, if_neg same, errorCount]

/-- The budgets on a plane after a device was replaced. -/
theorem budget_setDevice (found : p.device? number = some d) (port : Port) :
    (p.setDevice number d').budget port =
      if number = port.device then ((d'.budget? port.id).map UInt64.toNat).getD 0
      else p.budget port := by
  -- The device is the one that was replaced, or another.
  rw [budget, device?_setDevice found]
  split <;> rfl

/-- What taking packets off an input changes about a plane: neither sizes, links, budgets nor errors. -/
structure Gives (before after : Plane) : Prop extends Resembles before after where
  budgets : ∀ port, after.budget port = before.budget port
  errors : ∀ source port, after.errorCount source port = before.errorCount source port

/-- Planes with the same rings and devices leave all of that to each other. -/
theorem Gives.congr (rings : q.rings = p.rings) (devices : q.devices = p.devices) :
    p.Gives q := by
  -- Budgets and errors are looked up in devices.
  refine ⟨.congr rings devices, fun port => ?_, fun source port => ?_⟩
  · rw [budget, budget, device?, device?, devices]
  · rw [errorCount_congr devices]

/-- Packets taken off a ring. -/
theorem dequeueBulk_gives (p : Plane) (number limit : Nat) :
    p.Gives (p.dequeueBulk number limit).2.2 := by
  -- A ring that is not there leaves the plane as it is.
  rw [dequeueBulk]
  cases found : p.ring? number with
  | none => exact .congr rfl rfl
  | some ring =>
    exact ⟨.setRing found (ring.capacity_dequeueBulk limit), fun _ => rfl, fun _ _ => rfl⟩

/-- Packets received from a port. -/
theorem rxBurst_gives (p : Plane) (port : Port) (limit : Nat) : p.Gives (p.rxBurst port limit).2 := by
  -- A device that is not there leaves the plane as it is.
  rw [rxBurst]
  cases found : p.device? port.device with
  | none => exact .congr rfl rfl
  | some d =>
    obtain ⟨like, budgets, errors⟩ := d.rxBurst_resembles port limit
    refine ⟨.setDevice found like, fun other => ?_, fun source other => ?_⟩
    · rw [budget_setDevice found]
      split
      · rename_i same
        rw [budgets, budget, ← same, found, Option.bind_some]
      · rfl
    · rw [errorCount_setDevice found]
      split
      · rename_i same
        rw [errors, ← same, errorCount, found]
      · rfl

/-- A port that receives hands out as many packets as are asked for, or all of them. -/
theorem length_rxBurst (atRest : p.AtRest) (port : Port) (limit : Nat) :
    (p.rxBurst port limit).1.length =
      if p.listens (.port port) then min limit (p.contents (.received port)).length else 0 := by
  -- By cases on what may be missing: the device, the queue of the port or its link.
  rw [rxBurst, listens]
  cases found : p.device? port.device with
  | none => simp [ringAt?, found]
  | some d =>
    simp only [Device.rxBurst]
    cases owned : d.owned? port with
    | none => simp [ringAt?, found, Device.rings?, owned]
    | some held =>
      obtain ⟨nic, queue, rings⟩ := held
      have here : p.ringAt? (.received port) = some rings.rx := by
        simp [ringAt?, found, Device.rings?, owned]
      have link : p.linkless port = !nic.linkUp := by
        rw [linkless, found, Option.map_some, Device.linkless_eq
          (Device.queue_eq_ok_iff.mp (Device.queue_of_owned? owned).1).1]
        rfl
      obtain ⟨items, held⟩ := atRest (.received port) rings.rx here
      rw [here, link, contents_eq here held]
      cases up : nic.linkUp with
      | false => simp [up]
      | true => simp [up, (held.dequeueBulk_holds limit).1]

/-- What handing packets to an output changes about a plane: those that were accepted take up room, and an
attempt without link is an error of one network port. -/
structure Takes (before after : Plane) (target : Target) (offered accepted : Nat) : Prop
    extends Resembles before after where
  most : accepted = min offered (before.room target)
  room : after.room target = before.room target - accepted
  errors : ∀ source device, after.errorCount source device = before.errorCount source device +
    if 0 < offered ∧ before.severed target = true ∧ target.blames source device = true then 1 else 0

/-- A place of the same size with the same packets has the same room. -/
theorem Resembles.vacancy (like : p.Resembles q) (target : Target)
    (same : q.contents target.place = p.contents target.place) :
    q.vacancy target.place = p.vacancy target.place := by
  -- Room is what packets leave of the size.
  rw [Plane.vacancy, Plane.vacancy, like.capacities, same]

/-- An output has the same room while as many packets wait there. -/
theorem Gives.room_congr {target : Target} (gives : p.Gives q)
    (same : q.contents target.place = p.contents target.place) : q.room target = p.room target := by
  -- By cases on the output: a port has its link and its budget as well.
  have vacancy := gives.vacancy target same
  cases target with
  | ring number => exact vacancy
  | port port =>
    have vacancy : q.vacancy (.sending port) = p.vacancy (.sending port) := vacancy
    rw [Plane.room, Plane.room, gives.links, gives.budgets, vacancy]

/-- An output that takes nothing, and has no error, has as much room as before. -/
theorem Takes.of_gives {target : Target} {offered : Nat} (gives : p.Gives q)
    (same : q.contents target.place = p.contents target.place)
    (full : offered = 0 ∨ p.room target = 0)
    (quiet : 0 < offered → p.severed target = false) : p.Takes q target offered 0 where
  -- Nothing is counted, since the output is not severed unless nothing is offered.
  toResembles := gives.toResembles
  most := by
    rcases full with none | full <;> simp [*]
  room := by rw [Nat.sub_zero, gives.room_congr same]
  errors source device := by
    rw [gives.errors, if_neg, UInt64.add_zero]
    rintro ⟨some, severed, -⟩
    rw [quiet some] at severed
    cases severed

/-- A ring takes as many packets as there are and as fit. -/
theorem enqueueBulk_takes (atRest : p.AtRest) (number : Nat) (packets : List Packet) :
    let sent := p.enqueueBulk number packets
    p.Takes sent.2.2 (.ring number) packets.length sent.1 := by
  -- A ring that is not there takes nothing, and has no room either.
  have put := (p.enqueueBulk_puts number packets).2.2
  obtain ⟨-, contents, -⟩ := put.places atRest
  revert contents
  rw [enqueueBulk]
  cases found : p.ring? number with
  | none =>
    intro contents
    refine .of_gives (.congr rfl rfl) rfl (.inr ?_) fun _ => rfl
    simp [room, vacancy, capacityAt, ringAt?, found]
  | some ring =>
    intro contents
    have here : p.ringAt? (.ring number) = some ring := found
    obtain ⟨items, held⟩ := atRest (.ring number) ring here
    have like : p.Resembles (p.setRing number (ring.enqueueBulk packets).ring) :=
      .setRing found (ring.capacity_enqueueBulk packets)
    have vacancy : p.room (.ring number) = ring.capacity - items.length := by
      rw [room, Plane.vacancy, capacityAt, here, contents_eq here held]
      rfl
    have accepted := (held.enqueueBulk_holds packets).1
    -- What was accepted is room that there was, and is room no longer.
    have few := (ring.enqueueBulk_rest packets).2
    refine ⟨like, ?_, ?_, fun source device => ?_⟩
    · rw [vacancy]
      exact accepted
    · rw [vacancy, room, Plane.vacancy]
      have size := like.capacities (.ring number)
      have size : (p.setRing number (ring.enqueueBulk packets).ring).capacityAt (.ring number) =
          p.capacityAt (.ring number) := size
      have after : (p.setRing number (ring.enqueueBulk packets).ring).contents (.ring number) =
          p.contents (.ring number) ++ packets.take (ring.enqueueBulk packets).accepted := contents
      rw [size, after, contents_eq here held, capacityAt, here, List.length_append,
        List.length_take, Nat.min_eq_left few, Nat.sub_add_eq]
      rfl
    · rw [if_neg (by simp [severed]), UInt64.add_zero]
      rfl

section Ports

variable {port : Port} {nic : Nic} {queue : Queue} {rings : QueueRings}

/-- A queue pair in use, as its transmit side shows on a plane. -/
theorem sending_of_owned? (found : p.device? port.device = some d)
    (owned : d.owned? port = some (nic, queue, rings)) :
    p.ringAt? (.sending port) = some rings.tx ∧ p.budget port = queue.budget.toNat ∧
      p.linkless port = !nic.linkUp := by
  -- What the port owns is found on its device in each of the three ways.
  obtain ⟨there, -⟩ := Device.queue_of_owned? owned
  refine ⟨?_, ?_, ?_⟩
  · simp [ringAt?, found, Device.rings?, owned]
  · rw [budget, found, Option.bind_some, Device.budget?_eq there]
    rfl
  · rw [linkless, found, Option.map_some,
      Device.linkless_eq (Device.queue_eq_ok_iff.mp there).1]
    rfl

/-- A port without transmit ring has no room and is not severed. -/
theorem room_of_closed (closed : p.ringAt? (.sending port) = none) :
    p.room (.port port) = 0 ∧ p.severed (.port port) = false := by
  -- Without ring there is nothing that a budget could allow.
  have none : p.vacancy (.sending port) = 0 := by
    simp [vacancy, capacityAt, contents, closed]
  rw [room, none, Nat.min_zero, severed, closed]
  exact ⟨ite_self _, rfl⟩

/-- A device that is replaced by itself leaves the plane as it is. -/
theorem setDevice_self (found : p.device? number = some d) : p.setDevice number d = p := by
  -- The entry of an array is put back in its place.
  obtain ⟨inside, here⟩ := Array.getElem?_eq_some_iff.mp found
  rw [setDevice, ← here]
  simp [Array.setIfInBounds, inside]

/-- A port without link takes nothing, and its network port has one more error. -/
theorem severed_takes (found : p.device? port.device = some d)
    (owned : d.owned? port = some (nic, queue, rings)) (down : nic.linkUp = false)
    {offered : Nat} (some : 0 < offered) :
    p.Takes (p.setDevice port.device (d.setNic port.id.device (nic.report .linkDown)))
      (.port port) offered 0 := by
  -- The error is one more for this network port of this device, and for no other.
  obtain ⟨here, -, link⟩ := sending_of_owned? found owned
  have there := (Device.queue_eq_ok_iff.mp (Device.queue_of_owned? owned).1).1
  have like : d.Resembles (d.setNic port.id.device (nic.report .linkDown)) := by
    refine ⟨fun other => ?_, Device.linkless_setNic there (by rfl)⟩
    rw [Device.sizes?, Device.sizes?, Device.rings?_setNic (Device.nic_eq_ok there) (by rfl)]
  have like := Resembles.setDevice found like
  have none : p.room (.port port) = 0 := by
    rw [room, link, down]
    rfl
  refine ⟨like, by rw [none, Nat.min_zero], ?_, fun source device => ?_⟩
  · rw [none, room, like.links, link, down]
    rfl
  · have severed : p.severed (.port port) = true := by
      rw [severed, here, link, down]
      rfl
    rw [errorCount_setDevice found]
    by_cases same : port.device = source
    · rw [if_pos same, Device.errorCount_setNic there, ← same, errorCount, found]
      by_cases mine : device = port.id.device
      · subst mine
        have count : d.errorCount port.id.device = nic.errors := by
          rw [Device.errorCount, there]
        simp [Target.blames, some, severed, count, Nic.report]
      · simp [Target.blames, Ne.symm mine, mine]
    · simp [Target.blames, same]

/-- A port with a link takes as many packets as there are, as its budget allows, and as fit. -/
theorem linked_takes (atRest : p.AtRest) (found : p.device? port.device = some d)
    (owned : d.owned? port = some (nic, queue, rings)) (up : nic.linkUp = true)
    (packets : List Packet) (counters : NicCounters) :
    let sent := Device.sendWithin rings.tx queue.budget.toNat packets
    let budget := if queue.budget = unlimited then unlimited
      else queue.budget - UInt64.ofNat sent.accepted
    p.Takes (p.setDevice port.device (d.setQueue port.id { nic with counters }
      { queue with rings := some { rings with tx := sent.ring }, budget })) (.port port)
      packets.length sent.accepted := by
  -- What was accepted is what both the budget and the ring have less afterwards.
  intro sent budget
  obtain ⟨here, allowed, link⟩ := sending_of_owned? found owned
  obtain ⟨there, -⟩ := Device.queue_of_owned? owned
  obtain ⟨items, held⟩ := atRest (.sending port) rings.tx here
  have like : d.Resembles (d.setQueue port.id { nic with counters }
      { queue with rings := some { rings with tx := sent.ring }, budget }) :=
    .setQueue owned rfl rfl rfl rfl rfl (Device.capacity_sendWithin rings.tx _ packets)
  have like := Resembles.setDevice found like
  generalize after : p.setDevice port.device _ = q at like ⊢
  have free : p.vacancy (.sending port) = rings.tx.capacity - items.length := by
    rw [vacancy, capacityAt, here, contents_eq here held]
    rfl
  have small : rings.tx.capacity ≤ unlimited.toNat :=
    rings.tx.capacity_valid.2.trans (by decide)
  have accepted : sent.accepted =
      min packets.length (min queue.budget.toNat (rings.tx.capacity - items.length)) := by
    have taken := Device.accepted_sendWithin held queue.budget.toNat packets
    rwa [Ring.freeCount, held.count_eq] at taken
  have few : sent.accepted ≤ packets.length := by omega
  have left : q.vacancy (.sending port) = rings.tx.capacity - items.length - sent.accepted := by
    have replaced : p.Replaces q (.sending port) sent.ring := by
      rw [← after]
      exact setQueue_replaces_sending found owned (by rfl) sent.ring (by rfl)
    have holds := Device.sendWithin_taken held queue.budget.toNat packets
    obtain ⟨-, contents, -⟩ := replaced.contents holds atRest
    have size : q.capacityAt (.sending port) = p.capacityAt (.sending port) :=
      like.capacities (.port port)
    rw [vacancy, size, contents, List.length_append, List.length_take, Nat.min_eq_left few,
      Nat.sub_add_eq, capacityAt, here]
    rfl
  have spent : q.budget port = budget.toNat := by
    rw [← after, budget_setDevice found, if_pos rfl, Device.budget?_setQueue there (by rfl), if_pos rfl]
    rfl
  refine ⟨like, ?_, ?_, fun source device => ?_⟩
  · rw [accepted, room, link, up, allowed, free]
    rfl
  · rw [room, room, like.links, link, up, allowed, free, spent, left]
    simp only [Bool.not_true, Bool.false_eq_true, if_false]
    by_cases limited : queue.budget = unlimited
    · -- An unlimited budget is never the smaller of the two.
      simp only [budget, limited, if_true]
      omega
    · simp only [budget, limited, if_false]
      have within : (UInt64.ofNat sent.accepted).toNat = sent.accepted :=
        UInt64.toNat_ofNat_of_lt' (lt_of_le_of_lt (by omega) queue.budget.toNat_lt)
      rw [UInt64.toNat_sub_of_le _ _ (by rw [UInt64.le_iff_toNat_le, within]; omega), within]
      omega
  · rw [if_neg (by simp [severed, link, up]), UInt64.add_zero, ← after, errorCount_setDevice found]
    split
    · rename_i same
      rw [Device.setQueue, Device.errorCount_setNic_same (Device.queue_eq_ok_iff.mp there).1 (by rfl),
        ← same, errorCount, found]
    · rfl

/-- A port takes as many packets as there are and as it has room for. -/
theorem txBurst_takes (atRest : p.AtRest) (port : Port) (packets : List Packet) :
    let sent := p.txBurst port packets
    p.Takes sent.2.2 (.port port) packets.length sent.1 := by
  -- By cases on what may be missing: the device, packets, the queue of the port or its link.
  simp only [txBurst]
  cases found : p.device? port.device with
  | none =>
    have closed : p.ringAt? (.sending port) = none := by
      simp [ringAt?, found]
    obtain ⟨full, quiet⟩ := room_of_closed closed
    exact .of_gives (.congr rfl rfl) rfl (.inr full) fun _ => quiet
  | some d =>
    have same := setDevice_self found
    simp only [Device.txBurst]
    by_cases empty : packets = []
    · simp only [empty, List.isEmpty_nil, if_true, same]
      exact .of_gives (.congr rfl rfl) rfl (.inl rfl) fun some => absurd some (Nat.lt_irrefl 0)
    · -- Of a burst with packets the queue must be the port's own, and its link up.
      have notEmpty : packets.isEmpty = false := by simpa using empty
      simp only [notEmpty, Bool.false_eq_true, if_false]
      cases owned : d.owned? port with
      | none =>
        have closed : p.ringAt? (.sending port) = none := by
          simp [ringAt?, found, Device.rings?, owned]
        obtain ⟨full, quiet⟩ := room_of_closed closed
        simp only [same]
        exact .of_gives (.congr rfl rfl) rfl (.inr full) fun _ => quiet
      | some held =>
        obtain ⟨nic, queue, rings⟩ := held
        simp only
        split
        · rename_i down
          exact severed_takes found owned (by simpa using down) (List.length_pos_iff.mpr empty)
        · rename_i up
          exact linked_takes atRest found owned (by simpa using up) packets _

end Ports

end Plane

/-- An output takes as many packets as there are and as it has room for. -/
theorem Target.sender_takes {p : Plane} (atRest : p.AtRest) (target : Target) (packets : List Packet) :
    let sent := target.sender p packets
    p.Takes sent.plane target packets.length sent.accepted := by
  -- By cases on the output, a port or a ring.
  cases target with
  | port port => exact p.txBurst_takes atRest port packets
  | ring number => exact p.enqueueBulk_takes atRest number packets

/-- Handing packets to an output leaves the taps alone. -/
theorem Target.sender_taps (target : Target) (p : Plane) (packets : List Packet) :
    (target.sender p packets).plane.taps = p.taps := by
  -- By cases on the output, neither of which is a tap.
  cases target with
  | port port =>
    simp only [sender, Plane.txBurst]
    split <;> rfl
  | ring number =>
    simp only [sender, Plane.enqueueBulk]
    split <;> rfl

/-- What an attempt sends are the first packets that wait, as many as the output has room for. -/
theorem Backlog.tryFlush_takes {p : Plane} (atRest : p.AtRest) (target : Target) (b : Backlog) :
    let count := min b.pending.length (p.room target)
    ∃ q, p.Takes q target b.pending.length count ∧ p.Puts q target.place (b.pending.take count) ∧
      q.taps = p.taps ∧
      b.tryFlush target.sender p =
        ({ sent := count, sentBytes := p.buffers.totalLen (b.pending.take count)
           rejected := decide (count < b.pending.length) },
          { b with pending := b.pending.drop count }, q) := by
  -- An empty backlog is looked at by itself, since it makes no attempt.
  intro count
  by_cases empty : b.pending = []
  · have none : count = 0 := by simp [count, empty]
    have stays : p.Takes p target b.pending.length 0 :=
      .of_gives (.congr rfl rfl) rfl (.inl (by rw [empty]; rfl)) fun some => by simp [empty] at some
    refine ⟨p, none ▸ stays, ?_, rfl, ?_⟩
    · rw [none]
      exact Plane.Puts.refl p _
    · rw [tryFlush, if_pos (List.isEmpty_iff.mpr empty), none, empty]
      cases b
      simp_all [Buffers.totalLen]
  · have takes := target.sender_takes atRest b.pending
    obtain ⟨rest, -, put⟩ := target.sender_puts p b.pending
    have bytes := sender_bytes target p b.pending
    have most : (target.sender p b.pending).accepted = count := takes.most
    simp only [most] at takes rest put bytes
    refine ⟨_, takes, put, target.sender_taps p b.pending, ?_⟩
    rw [tryFlush, if_neg (by rwa [List.isEmpty_iff])]
    have refused : (!(b.pending.drop count).isEmpty) = decide (count < b.pending.length) := by
      rw [Bool.eq_iff_iff]
      simp
    simp only [rest, most, refused, bytes, Nat.add_sub_cancel]

end PacketPlane
