import PacketPlane.Buffer.Store

/-! Software devices: network ports whose queues are rings, with the wire played from outside. -/

namespace PacketPlane

/-- A queue pair by its device and its queue there. -/
structure PortId where
  device : UInt16
  queue : UInt16
deriving DecidableEq, Repr, Inhabited

/-- A queue pair's name. -/
def PortId.name (id : PortId) : String :=
  -- The device comes first.
  s!"{id.device.toNat}:{id.queue.toNat}"

/-- The sole right to use a queue pair, from one opening of it to its closing. -/
structure Port where
  device : Nat
  id : PortId
  opening : Nat
deriving DecidableEq, Repr, Inhabited

/-- The rings of an open queue pair, with the opening that made them. -/
structure QueueRings where
  opening : Nat
  rx : Ring Packet
  tx : Ring Packet

/-- A budget that is never used up. -/
def unlimited : UInt64 := 0xffffffffffffffff

/-- A queue pair: its rings while it is open, and how many packets it may still send. -/
structure Queue where
  rings : Option QueueRings := none
  openings : Nat := 0
  budget : UInt64 := unlimited

/-- What a network port has counted. -/
structure NicCounters where
  rxPackets : UInt64 := 0
  rxMissed : UInt64 := 0
  rxNoBuffer : UInt64 := 0
  txPackets : UInt64 := 0
deriving DecidableEq, Repr, Inhabited

/-- A network port: its queues, its link, its errors and its counters. -/
structure Nic where
  queues : Array Queue
  linkUp : Bool := true
  lastError : Option DeviceCode := none
  errors : UInt64 := 0
  counters : NicCounters := {}

/-- A device of several network ports whose receive sides allocate from one pool. -/
structure Device where
  pool : Nat
  nics : Array Nic

namespace Nic

/-- An error reported by a network port. -/
def report (n : Nic) (code : DeviceCode) : Nic :=
  -- The latest code replaces the one before, and every report is counted.
  { n with lastError := some code, errors := n.errors + 1 }

/-- Counters of a network port changed. -/
def count (n : Nic) (change : NicCounters → NicCounters) : Nic :=
  -- Queues and link stay as they are.
  { n with counters := change n.counters }

/-- A frame lost on arrival. -/
def miss (n : Nic) : Nic :=
  -- Lost frames are only counted.
  n.count fun c => { c with rxMissed := c.rxMissed + 1 }

end Nic

namespace Device

/-- A device with all links up and all queues closed. -/
def make (pool : Nat) (s : DeviceSettings) : Except Fault Device :=
  -- A queue pair serves both directions, so the larger count decides.
  match s.fault? with
  | some fault => .error (.setting fault)
  | none =>
    let pairs := max s.rxQueues.toNat s.txQueues.toNat
    .ok { pool, nics := Array.replicate s.ports.toNat { queues := Array.replicate pairs {} } }

/-- How many network ports there are. -/
def portCount (d : Device) : Nat :=
  -- They are never added or removed.
  d.nics.size

/-- A network port by its number. -/
def nic (d : Device) (device : UInt16) : Except Fault Nic :=
  -- Numbers count from zero.
  match d.nics[device.toNat]? with
  | none => .error (.device device .noSuchDevice)
  | some nic => .ok nic

/-- A network port and one of its queues. -/
def queue (d : Device) (id : PortId) : Except Fault (Nic × Queue) :=
  -- A missing device is reported before a missing queue.
  match d.nic id.device with
  | .error fault => .error fault
  | .ok nic =>
    match nic.queues[id.queue.toNat]? with
    | none => .error (.device id.device .noSuchQueue)
    | some queue => .ok (nic, queue)

/-- One network port replaced. -/
def setNic (d : Device) (device : UInt16) (nic : Nic) : Device :=
  -- The others stay as they are.
  { d with nics := d.nics.setIfInBounds device.toNat nic }

/-- One network port and one of its queues replaced. -/
def setQueue (d : Device) (id : PortId) (nic : Nic) (queue : Queue) : Device :=
  -- The other queues stay as they are.
  d.setNic id.device { nic with queues := nic.queues.setIfInBounds id.queue.toNat queue }

/-- A queue pair taken into use, with rings of the given sizes. -/
def openPort (d : Device) (number : Nat) (id : PortId) (rxDescriptors txDescriptors : Nat) :
    Except Fault (Port × Device) :=
  -- A queue that is in use is refused before its rings are looked at.
  match d.queue id with
  | .error fault => .error fault
  | .ok (nic, queue) =>
    if queue.rings.isSome then .error (.device id.device .queueInUse)
    else match Ring.make s!"vdev{id.device.toNat}-rx{id.queue.toNat}" rxDescriptors with
      | .error fault => .error fault
      | .ok rx =>
        match Ring.make s!"vdev{id.device.toNat}-tx{id.queue.toNat}" txDescriptors with
        | .error fault => .error fault
        | .ok tx =>
          let opening := queue.openings + 1
          let queue := { queue with rings := some { opening, rx, tx }, openings := opening }
          .ok (⟨number, id, opening⟩, d.setQueue id nic queue)

/-- The queue pair that a port has the right to use. -/
def owned? (d : Device) (port : Port) : Option (Nic × Queue × QueueRings) :=
  -- A port from an earlier opening has lost its right.
  match d.queue port.id with
  | .error _ => none
  | .ok (nic, queue) =>
    match queue.rings with
    | none => none
    | some rings => if rings.opening = port.opening then some (nic, queue, rings) else none

/-- A queue pair given back, with the packets that were left on its rings. -/
def closePort (d : Device) (port : Port) : List Packet × Device :=
  -- Received packets come before those to be sent.
  match d.owned? port with
  | none => ([], d)
  | some (nic, queue, rings) =>
    (rings.rx.toList ++ rings.tx.toList, d.setQueue port.id nic { queue with rings := none })

/-- A frame delivered by the wire, with whether it was received. -/
def inject (d : Device) (b : Buffers) (id : PortId) (frame : List UInt8) :
    Except Fault (Bool × Device × Buffers) :=
  -- A frame is lost on a closed queue, without link, without buffer, or without room.
  match d.queue id with
  | .error fault => .error fault
  | .ok (nic, queue) =>
    match queue.rings with
    | none => .ok (false, d.setNic id.device nic.miss, b)
    | some rings =>
      if !nic.linkUp then .ok (false, d.setNic id.device nic.miss, b)
      else match b.alloc d.pool with
        | .error _ =>
          let nic := nic.count fun c => { c with rxNoBuffer := c.rxNoBuffer + 1 }
          .ok (false, d.setNic id.device (nic.report .noBuffer), b)
        | .ok (packet, b) =>
          match b.copy packet frame with
          | (false, b) => .ok (false, d.setNic id.device nic.miss, b.release packet)
          | (true, b) =>
            match b.setPort packet id.device with
            | (_, b) =>
              match rings.rx.enqueue packet with
              | .error ⟨packet⟩ => .ok (false, d.setNic id.device nic.miss, b.release packet)
              | .ok rx =>
                let queue := { queue with rings := some { rings with rx } }
                .ok (true, d.setQueue id nic queue, b)

/-- Sent packets taken off the wire. -/
def drainTx (d : Device) (id : PortId) (limit : Nat) : Except Fault (List Packet × Device) :=
  -- A closed queue has sent nothing that is still there.
  match d.queue id with
  | .error fault => .error fault
  | .ok (nic, queue) =>
    match queue.rings with
    | none => .ok ([], d)
    | some rings =>
      let taken := rings.tx.dequeueBulk limit
      let queue := { queue with rings := some { rings with tx := taken.ring } }
      .ok (taken.items, d.setQueue id nic queue)

/-- How many more packets a queue may send, without limit when absent. -/
def setBudget (d : Device) (id : PortId) (budget : Option UInt64) : Except Fault Device :=
  -- The largest budget means that there is no limit.
  match d.queue id with
  | .error fault => .error fault
  | .ok (nic, queue) => .ok (d.setQueue id nic { queue with budget := budget.getD unlimited })

/-- The link of a network port brought up or down. -/
def setLink (d : Device) (device : UInt16) (up : Bool) : Except Fault Device :=
  -- A link that goes down is reported, even when it was down already.
  match d.nic device with
  | .error fault => .error fault
  | .ok nic =>
    let nic := { nic with linkUp := up }
    .ok (d.setNic device (if up then nic else nic.report .linkDown))

/-- An error raised on a network port. -/
def raise (d : Device) (device : UInt16) (code : DeviceCode) : Except Fault Device :=
  -- It counts like one of the device's own.
  match d.nic device with
  | .error fault => .error fault
  | .ok nic => .ok (d.setNic device (nic.report code))

/-- The latest error of a network port. -/
def lastError (d : Device) (device : UInt16) : Option DeviceCode :=
  -- Reading does not clear it.
  match d.nic device with
  | .error _ => some .noSuchDevice
  | .ok nic => nic.lastError

/-- How many errors a network port has reported. -/
def errorCount (d : Device) (device : UInt16) : UInt64 :=
  -- A missing port never reports anything.
  match d.nic device with
  | .error _ => 0
  | .ok nic => nic.errors

/-- Received packets handed to the owner of a port. -/
def rxBurst (d : Device) (port : Port) (limit : Nat) : List Packet × Device :=
  -- Nothing is received while the link is down, and nothing is lost either.
  match d.owned? port with
  | none => ([], d)
  | some (nic, queue, rings) =>
    if !nic.linkUp then ([], d)
    else
      let taken := rings.rx.dequeueBulk limit
      let received := UInt64.ofNat taken.items.length
      let nic := nic.count fun c => { c with rxPackets := c.rxPackets + received }
      let queue := { queue with rings := some { rings with rx := taken.ring } }
      (taken.items, d.setQueue port.id nic queue)

/-- Packets put on a transmit ring within a budget, from the front of a list. -/
def sendWithin (tx : Ring Packet) (budget : Nat) (packets : List Packet) : Enqueued Packet :=
  -- Those beyond the budget stay behind those that did not fit.
  if budget ≥ packets.length then tx.enqueueBulk packets
  else
    let sent := tx.enqueueBulk (packets.take budget)
    { sent with rest := sent.rest ++ packets.drop budget }

/-- Packets sent by the owner of a port: how many were accepted, and those that were not. -/
def txBurst (d : Device) (port : Port) (packets : List Packet) : Nat × List Packet × Device :=
  -- Sending without link is an error, but sending nothing is not.
  if packets.isEmpty then (0, packets, d)
  else match d.owned? port with
    | none => (0, packets, d)
    | some (nic, queue, rings) =>
      if !nic.linkUp then (0, packets, d.setNic port.id.device (nic.report .linkDown))
      else
        let sent := sendWithin rings.tx queue.budget.toNat packets
        let accepted := UInt64.ofNat sent.accepted
        let budget := if queue.budget = unlimited then unlimited else queue.budget - accepted
        let nic := nic.count fun c => { c with txPackets := c.txPackets + accepted }
        let queue := { queue with rings := some { rings with tx := sent.ring }, budget }
        (sent.accepted, sent.rest, d.setQueue port.id nic queue)

end Device

end PacketPlane
