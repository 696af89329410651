import PacketPlane.Capture.Tap
import PacketPlane.Counters.Metrics
import PacketPlane.Device.Basic
import PacketPlane.Plane.Lifecycle
import PacketPlane.Time.Clock

/-! A data plane: everything that workers share, each thing under a number of its kind. -/

namespace PacketPlane

/-- Something shared, with how many holders it has left. -/
structure Held (α : Type) where
  value : α
  holders : Nat := 1

/-- What a processor noted about one packet. -/
structure Note where
  worker : Nat
  core : Option Nat
  now : UInt64
  hz : UInt64
  index : Nat
  len : Nat
deriving DecidableEq, Repr, Inhabited

/-- What a packet processor can reach: buffers, clocks, lifecycles and a notebook. -/
structure Surroundings where
  buffers : Buffers := {}
  clocks : Array Clock := #[]
  lives : Array LifeState := #[]
  notes : Array Note := #[]

/-- Everything that the workers of one data plane share. -/
structure Plane extends Surroundings where
  rings : Array (Held (Ring Packet)) := #[]
  devices : Array Device := #[]
  taps : Array (Held Tap) := #[]
  metrics : Metrics := {}

namespace Plane

/-- The buffers changed. -/
def mapBuffers (p : Plane) (change : Buffers → Buffers) : Plane :=
  -- Everything else stays as it is.
  { p with buffers := change p.buffers }

/-- Packets given back, front first. -/
def releaseAll (p : Plane) (packets : List Packet) : Plane :=
  -- Each goes to the pool it came from.
  p.mapBuffers (·.releaseAll packets)

/-- A clock added under the next number. -/
def addClock (p : Plane) (clock : Clock) : Nat × Plane :=
  -- Numbers are never used again.
  (p.clocks.size, { p with clocks := p.clocks.push clock })

/-- A clock by its number. -/
def clock (p : Plane) (number : Nat) : Clock :=
  -- A clock that does not exist stands still.
  p.clocks.getD number { hz := 0 }

/-- A clock moved forward. -/
def advanceClock (p : Plane) (number : Nat) (cycles : UInt64) : Plane :=
  -- The other clocks stay as they are.
  { p with clocks := p.clocks.modify number (·.advance cycles) }

/-- A lifecycle added under the next number. -/
def addLife (p : Plane) : Nat × Plane :=
  -- Numbers are never used again.
  (p.lives.size, { p with lives := p.lives.push .created })

/-- A lifecycle by its number. -/
def life (p : Plane) (number : Nat) : LifeState :=
  -- A lifecycle that does not exist is over.
  p.lives.getD number .stopped

/-- A lifecycle set to a state. -/
def setLife (p : Plane) (number : Nat) (state : LifeState) : Plane :=
  -- The other lifecycles stay as they are.
  { p with lives := p.lives.setIfInBounds number state }

/-- A step of a lifecycle, with whether it was taken. -/
def advanceLife (p : Plane) (number : Nat) (before after : LifeState) : Bool × Plane :=
  -- A step that is not taken changes nothing.
  match (p.life number).advance before after with
  | (taken, state) => (taken, p.setLife number state)

/-- A worker asked to stop. -/
def requestStop (p : Plane) (number : Nat) : Plane :=
  -- The worker sees the request at the start of its next turn.
  p.setLife number (p.life number).requestStop

/-- A ring added under the next number, with its maker as its only holder. -/
def addRing (p : Plane) (ring : Ring Packet) : Nat × Plane :=
  -- Numbers are never used again.
  (p.rings.size, { p with rings := p.rings.push { value := ring } })

/-- A ring by its number. -/
def ring? (p : Plane) (number : Nat) : Option (Ring Packet) :=
  -- Rings stay under their numbers after their last holder has left.
  p.rings[number]?.map Held.value

/-- The name of a ring. -/
def ringName (p : Plane) (number : Nat) : String :=
  -- A ring that does not exist has none.
  match p.ring? number with
  | none => ""
  | some ring => ring.name

/-- How many packets are on a ring. -/
def ringCount (p : Plane) (number : Nat) : Nat :=
  -- A ring that does not exist is empty.
  match p.ring? number with
  | none => 0
  | some ring => ring.count

/-- A ring replaced by a later state of itself. -/
def setRing (p : Plane) (number : Nat) (ring : Ring Packet) : Plane :=
  -- Its holders stay the same.
  { p with rings := p.rings.modify number fun held => { held with value := ring } }

/-- One more holder of a ring. -/
def holdRing (p : Plane) (number : Nat) : Plane :=
  -- The ring itself does not change.
  { p with rings := p.rings.modify number fun held => { held with holders := held.holders + 1 } }

/-- One holder of a ring fewer: the last one takes the packets on it along. -/
def leaveRing (p : Plane) (number : Nat) : Plane :=
  -- Packets on a ring that nobody holds are given back, oldest first.
  match p.rings[number]? with
  | none => p
  | some held =>
    let p := { p with rings := p.rings.setIfInBounds number
                        { held with holders := held.holders - 1 } }
    if held.holders = 1 then
      let taken := held.value.dequeueBulk held.value.count
      (p.setRing number taken.ring).releaseAll taken.items
    else p

/-- Packets put on a ring, from the front of a list. -/
def enqueueBulk (p : Plane) (number : Nat) (packets : List Packet) :
    Nat × List Packet × Plane :=
  -- Those that did not fit stay with the caller.
  match p.ring? number with
  | none => (0, packets, p)
  | some ring =>
    let put := ring.enqueueBulk packets
    (put.accepted, put.rest, p.setRing number put.ring)

/-- Up to a number of packets taken off a ring, with how many are left on it. -/
def dequeueBulk (p : Plane) (number limit : Nat) : List Packet × Nat × Plane :=
  -- The packets belong to the caller from now on.
  match p.ring? number with
  | none => ([], 0, p)
  | some ring =>
    let taken := ring.dequeueBulk limit
    (taken.items, taken.remaining, p.setRing number taken.ring)

/-- A tap added under the next number, with its maker as its only holder. -/
def addTap (p : Plane) (tap : Tap) : Nat × Plane :=
  -- Numbers are never used again.
  (p.taps.size, { p with taps := p.taps.push { value := tap } })

/-- A tap by its number. -/
def tap? (p : Plane) (number : Nat) : Option Tap :=
  -- Taps stay under their numbers after their last holder has left.
  p.taps[number]?.map Held.value

/-- A tap replaced by a later state of itself. -/
def setTap (p : Plane) (number : Nat) (tap : Tap) : Plane :=
  -- Its holders stay the same.
  { p with taps := p.taps.modify number fun held => { held with value := tap } }

/-- One more holder of a tap. -/
def holdTap (p : Plane) (number : Nat) : Plane :=
  -- The tap itself does not change.
  { p with taps := p.taps.modify number fun held => { held with holders := held.holders + 1 } }

/-- One holder of a tap fewer: the last one takes the packets on it along. -/
def leaveTap (p : Plane) (number : Nat) : Plane :=
  -- References on a tap that nobody holds are given back, oldest first.
  match p.taps[number]? with
  | none => p
  | some held =>
    let p := { p with taps := p.taps.setIfInBounds number
                        { held with holders := held.holders - 1 } }
    if held.holders = 1 then
      let taken := held.value.ring.dequeueBulk held.value.ring.count
      (p.setTap number { held.value with ring := taken.ring }).releaseAll taken.items
    else p

/-- A packet shown to a tap, with whether the tap kept a reference. -/
def tapPacket (p : Plane) (number : Nat) (packet : Packet) : Bool × Plane :=
  -- The packet itself stays with the caller.
  match p.tap? number with
  | none => (false, p)
  | some tap =>
    let (kept, tap, buffers) := tap.tap p.buffers packet
    (kept, { p.setTap number tap with buffers })

/-- Packets moved from a tap into a sink: how many, or why the sink refused one. -/
def drainTap (p : Plane) (number : Nat) (write : SinkWrite σ) (sink : σ) (limit : Nat) :
    Except Fault Nat × Plane × σ :=
  -- A refusal does not undo what was recorded before it.
  match p.tap? number with
  | none => (.ok 0, p, sink)
  | some tap =>
    let (count, tap, buffers, sink) := tap.drainInto p.buffers write sink limit
    (count, { p.setTap number tap with buffers }, sink)

/-- A device added under the next number. -/
def addDevice (p : Plane) (device : Device) : Nat × Plane :=
  -- Numbers are never used again.
  (p.devices.size, { p with devices := p.devices.push device })

/-- A device by its number. -/
def device? (p : Plane) (number : Nat) : Option Device :=
  -- Devices stay as long as the plane does.
  p.devices[number]?

/-- A device replaced by a later state of itself. -/
def setDevice (p : Plane) (number : Nat) (device : Device) : Plane :=
  -- The other devices stay as they are.
  { p with devices := p.devices.setIfInBounds number device }

/-- Something done to a device, unless it is refused. -/
def onDevice (p : Plane) (number : Nat) (action : Device → Except Fault (α × Device)) :
    Except Fault (α × Plane) :=
  -- A refusal leaves the device as it was.
  match p.device? number with
  | none => .error (.device 0 .noSuchDevice)
  | some device =>
    match action device with
    | .error fault => .error fault
    | .ok (result, device) => .ok (result, p.setDevice number device)

/-- A queue pair taken into use. -/
def openPort (p : Plane) (number : Nat) (id : PortId) (rxDescriptors txDescriptors : Nat) :
    Except Fault (Port × Plane) :=
  -- The port remembers which device it belongs to.
  p.onDevice number (·.openPort number id rxDescriptors txDescriptors)

/-- A queue pair given back, with the packets that were left on its rings. -/
def closePort (p : Plane) (port : Port) : Plane :=
  -- What was received comes before what was to be sent.
  match p.device? port.device with
  | none => p
  | some device =>
    let (left, device) := device.closePort port
    (p.setDevice port.device device).releaseAll left

/-- A queue pair given back through a device, which refuses in words a queue it does not have. -/
def closePortThrough (p : Plane) (number : Nat) (port : Port) : Except Fault Unit × Plane :=
  -- The port is gone in either case.
  let verdict := match p.device? number with
    | none => .error (.device port.id.device .noSuchDevice)
    | some device => (device.queue port.id).map fun _ => ()
  (verdict, p.closePort port)

/-- A frame delivered by the wire, with whether it was received. -/
def inject (p : Plane) (number : Nat) (id : PortId) (frame : List UInt8) :
    Except Fault (Bool × Plane) :=
  -- A lost frame leaves no buffer behind.
  match p.device? number with
  | none => .error (.device id.device .noSuchDevice)
  | some device =>
    match device.inject p.buffers id frame with
    | .error fault => .error fault
    | .ok (received, device, buffers) =>
      .ok (received, { p.setDevice number device with buffers })

/-- Received packets handed to the owner of a port. -/
def rxBurst (p : Plane) (port : Port) (limit : Nat) : List Packet × Plane :=
  -- The packets belong to the caller from now on.
  match p.device? port.device with
  | none => ([], p)
  | some device =>
    let (packets, device) := device.rxBurst port limit
    (packets, p.setDevice port.device device)

/-- Packets sent by the owner of a port: how many were accepted, and those that were not. -/
def txBurst (p : Plane) (port : Port) (packets : List Packet) : Nat × List Packet × Plane :=
  -- Those that were not accepted stay with the caller.
  match p.device? port.device with
  | none => (0, packets, p)
  | some device =>
    let (accepted, rest, device) := device.txBurst port packets
    (accepted, rest, p.setDevice port.device device)

end Plane

end PacketPlane
