import PacketPlane.Buffer.Frame
import PacketPlane.Fleet.Engine
import PacketPlane.Settings.Basic

/-! The forwarding pipeline: a receiving stage, processing workers, and a sending stage. -/

namespace PacketPlane.Forward

/-- The queue pair that frames come in on. -/
def rxPort : PortId := ⟨0, 0⟩

/-- The queue pair that frames go out on. -/
def txPort : PortId := ⟨1, 0⟩

/-- The stage that exchanges the two link addresses of a frame, and drops what has none. -/
def swapMacs : Processor Unit := fun _ packet memory s =>
  -- A frame that is shared or too short is dropped.
  let (swapped, buffers) := s.buffers.swapMacs packet
  ⟨if swapped then .forward else .drop, memory, { s with buffers }⟩

/-- What the stages are built between: the plane, its ports, and the rings between stages. -/
structure Ends where
  plane : Plane
  pool : Nat
  device : Nat
  rx : Port
  tx : Port
  rxRing : Nat
  txRing : Nat

/-- A pool, a device, its two ports, and the two rings between stages, all made from settings. -/
def makeEnds (s : Settings) (reserve : Nat → Option UInt32 → Except Fault Region) :
    Except Fault Ends := do
  -- Each thing is made only after all before it.
  let made ← Pool.make "pktio-fwd" s.pool reserve
  let plane : Plane := {}
  let (pool, buffers) := plane.buffers.addPool made
  let plane := { plane with buffers }
  let (device, plane) := plane.addDevice (← Device.make pool s.device)
  let rxDescriptors := s.device.rxDescriptors.toNat
  let txDescriptors := s.device.txDescriptors.toNat
  let (rx, plane) ← plane.openPort device rxPort rxDescriptors txDescriptors
  let (tx, plane) ← plane.openPort device txPort rxDescriptors txDescriptors
  let (rxRing, plane) := plane.addRing (← Ring.make "rx" s.ringCapacity.toNat)
  let (txRing, plane) := plane.addRing (← Ring.make "tx" s.ringCapacity.toNat)
  return { plane, pool, device, rx, tx, rxRing, txRing }

/-- The plan of the receiving stage. -/
def rxPlan (ends : Ends) (s : Settings) : WorkerPlan Unit := {
  id := 0, input := some (.port ends.rx), output := .ring ends.rxRing
  process := passThrough Unit, memory := (), settings := s.worker, watch := some ends.device }

/-- The plan of a processing worker. -/
def midPlan (ends : Ends) (s : Settings) (id : Nat) : WorkerPlan Unit := {
  id, input := some (.ring ends.rxRing), output := .ring ends.txRing
  process := swapMacs, memory := (), settings := s.worker }

/-- The plan of the sending stage. -/
def txPlan (ends : Ends) (s : Settings) : WorkerPlan Unit := {
  id := s.workers.toNat + 1, input := some (.ring ends.txRing), output := .port ends.tx
  process := passThrough Unit, memory := (), settings := s.worker, watch := some ends.device }

/-- A running pipeline: its workers, the engine that started them, and its ends. -/
structure Pipeline where
  fleet : Fleet Unit
  engine : Engine
  ends : Ends

/-- Why a stage could not be started: what was being done, if that is told, and the fault. -/
structure StageFault where
  doing : Option String
  fault : Fault

/-- A worker built to a plan and started on the least loaded core. -/
def startStage (p : Pipeline) (plan : WorkerPlan Unit) (doing : String) :
    Except StageFault Pipeline :=
  -- Only what happens at the start itself is told with what was being done.
  match p.fleet.build plan with
  | (.error fault, _) => .error ⟨none, fault⟩
  | (.ok member, fleet) =>
    match p.engine.spawn fleet member .any with
    | (.error fault, _, _) => .error ⟨some doing, fault⟩
    | (.ok _, engine, fleet) => .ok { p with engine, fleet }

/-- A number of processing workers started, from an id on. -/
def startMids (s : Settings) (p : Pipeline) (id : Nat) : Nat → Except StageFault Pipeline
  -- They share both rings.
  | 0 => .ok p
  | count + 1 =>
    match startStage p (midPlan p.ends s id) s!"starting worker {id}" with
    | .error fault => .error fault
    | .ok p => startMids s p (id + 1) count

/-- All stages started over their ends, in the order in which packets pass them. -/
def startAll (s : Settings) (cores : Nat) (ends : Ends) : Except StageFault Pipeline := do
  -- Stopping in the same order lets every stage drain into the next.
  let p : Pipeline := { fleet := { plane := ends.plane }, engine := Engine.make cores s, ends }
  let p ← startStage p (rxPlan ends s) "starting rx worker"
  let p ← startMids s p 1 s.workers.toNat
  startStage p (txPlan ends s) "starting tx worker"

/-- The frame that the wire delivers. -/
def wireFrame : List UInt8 :=
  -- Two addresses, a type, and nothing behind them.
  [2, 0, 0, 0, 0, 1, 2, 0, 0, 0, 0, 2, 8, 0] ++ List.replicate 50 0

/-- What the wire has delivered and taken off. -/
structure WireCount where
  injected : Nat := 0
  transmitted : Nat := 0
deriving DecidableEq, Repr, Inhabited

/-- Frames delivered until one is lost, up to a number of them. -/
def injectSome (device : Nat) (plane : Plane) (count : WireCount) : Nat → WireCount × Plane
  -- A lost frame ends the burst.
  | 0 => (count, plane)
  | left + 1 =>
    match plane.inject device rxPort wireFrame with
    | .ok (true, plane) =>
      injectSome device plane { count with injected := count.injected + 1 } left
    | .ok (false, plane) => (count, plane)
    | .error _ => (count, plane)

/-- One round of the wire: a burst delivered, and sent frames taken off and given back. -/
def wireRound (device : Nat) (plane : Plane) (count : WireCount) : WireCount × Plane :=
  -- Frames are given back in the order they were sent in.
  let (count, plane) := injectSome device plane count defaultBurst.toNat
  match plane.onDevice device (·.drainTx txPort 256) with
  | .error _ => (count, plane)
  | .ok (packets, plane) =>
    ({ count with transmitted := count.transmitted + packets.length }, plane.releaseAll packets)

end PacketPlane.Forward
