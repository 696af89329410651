import PacketPlane.Workbench.Basic

/-! Steps on named devices, ports, backlogs, taps and sinks. -/

namespace PacketPlane

/-- A port in words. -/
def Port.shown (p : Port) : String :=
  -- It goes by its numbers.
  s!"BurstPort({p.id.name})"

namespace Bench

/-- A device made and named, with how many network ports it has. -/
def makeDevice (name pool : String) (s : DeviceSettings) : Bench Nat := do
  -- The name changes only when the device could be made.
  let device ← accept (Device.make (← find (·.pools) pool) s)
  let (number, plane) := (← plane).addDevice device
  setPlane plane
  modify fun w => { w with devices := w.devices.insert name number }
  return device.portCount

/-- The name of a device forgotten. -/
def dropDevice (name : String) : Bench Unit :=
  -- Its ports keep the device itself.
  modify fun w => { w with devices := w.devices.erase name }

/-- A device as it is. -/
def device (name : String) : Bench Device := do
  -- Named devices always exist.
  match (← plane).device? (← find (·.devices) name) with
  | some device => pure device
  | none => throw (.unknown name)

/-- How many buffers a device's pool has left. -/
def deviceAvailable (name : String) : Bench Nat := do
  -- The pool may have lost its name.
  match (← buffers).pools[(← device name).pool]? with
  | some pool => return pool.available
  | none => return 0

/-- Something done to a device, unless it is refused. -/
def onDevice (name : String) (action : Device → Except Fault Device) : Bench Unit := do
  -- A refusal leaves the device as it was.
  let device ← accept (action (← device name))
  mapPlane (·.setDevice (← find (·.devices) name) device)

/-- A queue pair opened and named. -/
def openPort (name : String) (id : PortId) (rxDescriptors txDescriptors : Nat) (port : String) :
    Bench PortId := do
  -- The port that had the name is closed once the new one is open.
  let number ← find (·.devices) name
  let (opened, plane) ← accept ((← plane).openPort number id rxDescriptors txDescriptors)
  let former := (← get).ports[port]?
  modify fun w => { w with ports := w.ports.insert port opened }
  setPlane (match former with
    | none => plane
    | some former => plane.closePort former)
  return opened.id

/-- A port taken from its name. -/
def takePort (name : String) : Bench Port := do
  -- Somebody else owns it from now on.
  let port ← find (·.ports) name
  modify fun w => { w with ports := w.ports.erase name }
  return port

/-- A port closed through a device. -/
def closePort (name port : String) : Bench Unit := do
  -- The port is gone even when the device refuses it in words.
  let number ← find (·.devices) name
  let port ← takePort port
  let (verdict, plane) := (← plane).closePortThrough number port
  setPlane plane
  accept verdict

/-- A port closed. -/
def dropPort (name : String) : Bench Unit := do
  -- What was left on its rings is given back.
  let port ← takePort name
  mapPlane (·.closePort port)

/-- A frame put on the wire of a device, with whether it was received. -/
def inject (name : String) (id : PortId) (frame : List UInt8) : Bench Bool := do
  -- A lost frame is only counted.
  let number ← find (·.devices) name
  let (received, plane) ← accept ((← plane).inject number id frame)
  setPlane plane
  return received

/-- Sent packets taken off the wire onto a list. -/
def drainTx (name : String) (id : PortId) (into : String) (limit : Nat) : Bench Nat := do
  -- They keep their order.
  let (packets, device) ← accept ((← device name).drainTx id limit)
  mapPlane (·.setDevice (← find (·.devices) name) device)
  appendTo into packets
  return packets.length

/-- Received packets moved from a port to a list. -/
def rxBurst (name into : String) (limit : Nat) : Bench Nat := do
  -- They keep their order.
  let (packets, plane) := (← plane).rxBurst (← find (·.ports) name) limit
  setPlane plane
  appendTo into packets
  return packets.length

/-- The packets of a list sent through a port. -/
def txBurst (name source : String) : Bench Nat := do
  -- Those that were not accepted stay on the list.
  let (accepted, rest, plane) := (← plane).txBurst (← find (·.ports) name) (← list source)
  setPlane plane
  setList source rest
  return accepted

/-- A backlog made and named. -/
def makeBacklog (name : String) (threshold : Nat) (policy : Backpressure) : Bench Unit := do
  -- What waited under the name is given back.
  let former := (← get).backlogs[name]?
  modify fun w => { w with backlogs := w.backlogs.insert name (Backlog.make threshold policy) }
  mapPlane (·.releaseAll ((former.map Backlog.pending).getD []))

/-- The output under the name of a ring or of a port. -/
def target (ring port : Option String) : Bench Target := do
  -- A ring is looked for first.
  match ring, port with
  | some ring, _ => return .ring (← find (·.rings) ring)
  | none, some port => return .port (← find (·.ports) port)
  | none, none => throw (.unknown "")

/-- Something done to a backlog, with what came of it added to all outcomes so far. -/
def onBacklog (name : String) (action : Backlog → Plane → Outcome × Backlog × Plane) :
    Bench (Outcome × Backlog) := do
  -- The result comes with the backlog afterwards.
  let (outcome, backlog, plane) := action (← find (·.backlogs) name) (← plane)
  setPlane plane
  modify fun w => { w with
    backlogs := w.backlogs.insert name backlog, outcomes := w.outcomes.merge outcome }
  return (outcome, backlog)

/-- A packet of a list put into a backlog. -/
def bufferPacket (name source : String) (position : Nat) (target : Target) :
    Bench (Outcome × Backlog) := do
  -- The packet leaves the list in any case.
  let packet ← takeAt source position
  onBacklog name fun backlog plane => backlog.buffer packet target.sender plane

/-- What waits in a backlog dropped. -/
def dropPending (name : String) : Bench (Outcome × Backlog) :=
  -- Only drops are in the outcome.
  onBacklog name fun backlog plane =>
    let (dropped, backlog, plane) := backlog.dropPending plane
    ({ dropped }, backlog, plane)

/-- A tap made and named. -/
def makeTap (name label : String) (capacity : Nat) : Bench Unit := do
  -- The tap that had the name loses a holder.
  let tap ← accept (Tap.make label capacity)
  let (number, plane) := (← plane).addTap tap
  let former := (← get).taps[name]?
  modify fun w => { w with taps := w.taps.insert name number }
  setPlane (match former with
    | none => plane
    | some former => plane.leaveTap former)

/-- The name of a tap forgotten. -/
def dropTap (name : String) : Bench Unit := do
  -- The tap loses a holder.
  let number ← find (·.taps) name
  modify fun w => { w with taps := w.taps.erase name }
  mapPlane (·.leaveTap number)

/-- A tap as it is. -/
def tap (name : String) : Bench Tap := do
  -- Named taps always exist.
  match (← plane).tap? (← find (·.taps) name) with
  | some tap => pure tap
  | none => throw (.unknown name)

/-- A packet of a list shown to a tap, with whether the tap kept a reference. -/
def tapPacket (name source : String) (position : Nat) : Bench Bool := do
  -- The packet stays on its list.
  let number ← find (·.taps) name
  let (kept, plane) := (← plane).tapPacket number (← packetAt source position)
  setPlane plane
  return kept

/-- A sink that fails on one of its writes, counted from zero. -/
def failingWrite (failAt : Option Nat) : SinkWrite (Nat × MemoryCapture) :=
  fun captured (writes, sink) =>
    -- A failing write records nothing.
    if failAt = some writes then .error .full
    else (MemoryCapture.write captured sink).map fun sink => (writes + 1, sink)

/-- Packets moved from a tap into a sink that may fail on one of its writes. -/
def drainTap (name sink : String) (limit : Nat) (failAt : Option Nat) : Bench Nat := do
  -- What was recorded before a failure stays recorded.
  let number ← find (·.taps) name
  let (count, plane, _, recorded) :=
    (← plane).drainTap number (failingWrite failAt) (0, ← find (·.sinks) sink) limit
  setPlane plane
  modify fun w => { w with sinks := w.sinks.insert sink recorded }
  accept count

/-- A sink made and named. -/
def makeSink (name : String) (limit : Option Nat) : Bench Unit :=
  -- It has recorded nothing.
  modify fun w => { w with sinks := w.sinks.insert name { limit } }

end Bench

end PacketPlane
