import PacketPlane.Time.Pacer
import PacketPlane.Transmit.Backlog

/-! Workers: one packet loop each, from an input through a processor to an output. -/

namespace PacketPlane

/-- What a processor decided about one packet, or that it died on it. -/
inductive Verdict where
  | forward
  | drop
  | crash
deriving DecidableEq, Repr, Inhabited

/-- What a processor is told along with a packet. -/
structure Context where
  worker : Nat
  core : Option Nat
  now : UInt64
  hz : UInt64
  clock : Nat
  life : Nat
deriving DecidableEq, Repr, Inhabited

/-- A decision, with what the processor remembers and what it changed around it. -/
structure Decision (σ : Type) where
  verdict : Verdict
  memory : σ
  surroundings : Surroundings

/-- A packet processing stage that remembers a value from packet to packet. -/
abbrev Processor (σ : Type) := Context → Packet → σ → Surroundings → Decision σ

/-- The stage that forwards everything untouched. -/
def passThrough (σ : Type) : Processor σ := fun _ _ memory surroundings =>
  -- Nothing is looked at.
  ⟨.forward, memory, surroundings⟩

/-- Where a worker pulls from. -/
inductive Input where
  | port (port : Port)
  | ring (number : Nat)
deriving DecidableEq, Repr

/-- Where a worker pushes to. -/
inductive Output where
  | port (port : Port)
  | ring (number : Nat)
  | loopback
  | discard
deriving DecidableEq, Repr

/-- Everything a worker is built from. -/
structure WorkerPlan (σ : Type) where
  id : Nat
  input : Option Input
  output : Output := .discard
  process : Processor σ
  memory : σ
  clock : Option Nat := none
  settings : WorkerSettings := {}
  watch : Option Nat := none
  capture : Option Nat := none

/-- A worker: its ends, its processor, what it keeps between turns, and what it has counted. -/
structure Worker (σ : Type) where
  id : Nat
  core : Option Nat := none
  input : Input
  output : Output
  process : Processor σ
  memory : σ
  backlog : Backlog
  pacer : Option Pacer
  clock : Nat
  watch : Option Nat
  watched : List (UInt16 × UInt64)
  errorStreak : UInt32 := 0
  capture : Option Nat
  life : Nat
  counters : Counters := {}
  reporter : Reporter
  statsInterval : UInt64
  started : UInt64 := 0
  nextReport : UInt64 := 0
  settings : WorkerSettings

/-- An end of a worker in words. -/
def Input.shown (plane : Plane) : Input → String
  -- Ports go by their numbers and rings by their names.
  | .port p => s!"Port({p.id.name})"
  | .ring number => s!"Ring({plane.ringName number})"

/-- An end of a worker in words. -/
def Output.shown (plane : Plane) : Output → String
  -- Ports go by their numbers and rings by their names.
  | .port p => s!"Port({p.id.name})"
  | .ring number => s!"Ring({plane.ringName number})"
  | .loopback => "Loopback"
  | .discard => "Discard"

/-- The ports of a worker's ends given back, input first. -/
def Plane.closeEnds (plane : Plane) (input : Option Input) (output : Output) : Plane :=
  -- Rings are not closed, since others may hold them.
  let plane := match input with
    | some (.port p) => plane.closePort p
    | _ => plane
  match output with
  | .port p => plane.closePort p
  | _ => plane

/-- The network ports whose errors a worker watches, each once and in order. -/
def watchedDevices (input : Input) (output : Output) : List UInt16 :=
  -- There are at most two.
  match input, output with
  | .port i, .port o =>
    if i.id.device = o.id.device then [i.id.device]
    else if i.id.device < o.id.device then [i.id.device, o.id.device]
    else [o.id.device, i.id.device]
  | .port i, _ => [i.id.device]
  | _, .port o => [o.id.device]
  | _, _ => []

/-- A worker's shared ends and tap held by one holder more. -/
def Plane.holdEnds (plane : Plane) (input : Input) (output : Output) (capture : Option Nat) :
    Plane :=
  -- A ring at both ends is held twice.
  let plane := match input with
    | .ring number => plane.holdRing number
    | .port _ => plane
  let plane := match output with
    | .ring number => plane.holdRing number
    | _ => plane
  match capture with
  | some tap => plane.holdTap tap
  | none => plane

/-- Why a plan is refused, or the input it names. -/
def WorkerPlan.check (plan : WorkerPlan σ) : Except Fault Input :=
  -- Settings are judged before the ends.
  match plan.settings.fault? with
  | some fault => .error (.setting fault)
  | none =>
    match plan.input, plan.output with
    | none, _ => .error (.setting (.noInput plan.id))
    | some (.ring _), .loopback => .error (.setting (.loopbackWithoutPort plan.id))
    | some input, _ => .ok input

/-- A worker made to a plan. A plan that is refused gives its ports back. -/
def WorkerPlan.build (plan : WorkerPlan σ) (plane : Plane) :
    Except Fault (Worker σ) × Plane :=
  -- A worker without a clock of its own gets one that runs by itself.
  match plan.check with
  | .error fault => (.error fault, plane.closeEnds plan.input plan.output)
  | .ok input =>
    let (clock, plane) := match plan.clock with
      | some clock => (clock, plane)
      | none => plane.addClock .calibrated
    let (life, plane) := plane.addLife
    let plane := plane.holdEnds input plan.output plan.capture
    let reading := plane.clock clock
    let burst := plan.settings.burstSize.toNat
    (.ok {
      id := plan.id, input, output := plan.output, process := plan.process, memory := plan.memory
      backlog := Backlog.make burst plan.settings.backpressure
      pacer := plan.settings.ratePps.map fun rate => Pacer.make rate reading.hz burst reading.now
      clock, watch := plan.watch
      watched := (watchedDevices input plan.output).map fun device => (device, 0)
      capture := plan.capture, life
      reporter := { label := s!"worker-{plan.id}" }
      statsInterval :=
        reading.cyclesFor (Clock.nanosOfMillis plan.settings.statsIntervalMs.toNat)
      settings := plan.settings }, plane)

/-- A worker gone: its ends, what waits in its backlog, and its tap are given back in this order. -/
def Plane.dismiss (plane : Plane) (w : Worker σ) : Plane :=
  -- The last holder of a ring takes the packets on it along.
  let plane := match w.input with
    | .port p => plane.closePort p
    | .ring number => plane.leaveRing number
  let plane := match w.output with
    | .port p => plane.closePort p
    | .ring number => plane.leaveRing number
    | _ => plane
  let plane := plane.releaseAll w.backlog.pending
  match w.capture with
  | some tap => plane.leaveTap tap
  | none => plane

/-- The output that a worker's packets are handed to, if they are handed to any. -/
def Worker.target? (w : Worker σ) : Option Target :=
  -- Loopback goes back out of the input port, and discarded packets go nowhere.
  match w.output, w.input with
  | .port p, _ => some (.port p)
  | .ring number, _ => some (.ring number)
  | .loopback, .port p => some (.port p)
  | .loopback, .ring _ => none
  | .discard, _ => none

end PacketPlane
