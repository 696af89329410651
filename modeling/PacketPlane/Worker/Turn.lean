import PacketPlane.Worker.Basic

/-! One turn of a worker: pull a burst, process it, push what is left, and look for errors. -/

namespace PacketPlane

/-- What the packets of one burst came to so far. -/
structure Tally where
  outcome : Outcome := {}
  dropped : Nat := 0
deriving DecidableEq, Repr, Inhabited

/-- A worker in the middle of its work: itself, its tally, and the plane. -/
structure Work (σ : Type) where
  worker : Worker σ
  tally : Tally := {}
  plane : Plane
  crashed : Bool := false

/-- What one turn came to: packets pulled, whether the processor died, and the state after. -/
structure Turn (σ : Type) where
  pulled : Nat
  crashed : Bool := false
  worker : Worker σ
  plane : Plane

namespace Worker

variable {σ : Type}

/-- How many packets a worker would pull before pacing: none while its output is backed up. -/
def appetite (w : Worker σ) : Nat :=
  -- A backlog at its threshold stops intake.
  if w.backlog.len ≥ w.backlog.threshold then 0 else w.settings.burstSize.toNat

/-- How many packets a worker may pull at a time. -/
def allowance (w : Worker σ) (now : UInt64) : Nat × Worker σ :=
  -- A worker without pacer pulls what it wants.
  match w.pacer with
  | none => (w.appetite, w)
  | some pacer =>
    let (want, pacer) := pacer.allowance now w.appetite
    (want, { w with pacer := some pacer })

/-- Packets pulled from a worker's input. -/
def pull (w : Worker σ) (plane : Plane) (want : Nat) : List Packet × Plane :=
  -- A worker that wants nothing does not touch its input.
  if want = 0 then ([], plane)
  else match w.input with
    | .port p => plane.rxBurst p want
    | .ring number =>
      let (packets, _, plane) := plane.dequeueBulk number want
      (packets, plane)

/-- Tokens spent on pulled packets. -/
def spend (w : Worker σ) (packets : Nat) : Worker σ :=
  -- A worker without pacer has none.
  { w with pacer := w.pacer.map fun pacer => pacer.consume packets }

/-- A forwarded packet shown to the worker's tap. -/
def capturePacket (w : Worker σ) (packet : Packet) (plane : Plane) : Worker σ × Plane :=
  -- A packet the tap has no room for is forwarded all the same.
  match w.capture with
  | none => (w, plane)
  | some tap =>
    match plane.tapPacket tap packet with
    | (true, plane) => (w, plane)
    | (false, plane) => ({ w with counters := w.counters.recordCaptureDrop }, plane)

/-- A forwarded packet put on its way. -/
def forward (w : Worker σ) (packet : Packet) (tally : Tally) (plane : Plane) : Work σ :=
  -- Without an output, the packet counts as sent and is given back.
  let (w, plane) := w.capturePacket packet plane
  match w.target? with
  | some target =>
    let (outcome, backlog, plane) := w.backlog.buffer packet target.sender plane
    ⟨{ w with backlog }, { tally with outcome := tally.outcome.merge outcome }, plane, false⟩
  | none =>
    let sent := { tally.outcome with
      sent := tally.outcome.sent + 1
      sentBytes := tally.outcome.sentBytes + plane.buffers.len packet }
    ⟨w, { tally with outcome := sent }, plane.mapBuffers (·.release packet), false⟩

/-- The packets of a burst processed in turn. A processor that dies takes the rest along. -/
def processAll (context : Context) : List Packet → Work σ → Work σ
  -- The packet under work is given back before those that were to follow.
  | [], work => work
  | packet :: rest, work =>
    let decision := work.worker.process context packet work.worker.memory
      work.plane.toSurroundings
    let w := { work.worker with memory := decision.memory }
    let plane := { work.plane with toSurroundings := decision.surroundings }
    match decision.verdict with
    | .forward => processAll context rest (w.forward packet work.tally plane)
    | .drop =>
      processAll context rest
        ⟨w, { work.tally with dropped := work.tally.dropped + 1 },
          plane.mapBuffers (·.release packet), false⟩
    | .crash => ⟨w, work.tally, plane.releaseAll (packet :: rest), true⟩

/-- What became of packets, counted. -/
def recordOutcome (w : Worker σ) (outcome : Outcome) : Worker σ :=
  -- Nothing is counted for what did not happen.
  let c := w.counters
  let c := if outcome.sent > 0 then
      c.recordTx (UInt64.ofNat outcome.sent) (UInt64.ofNat outcome.sentBytes)
    else c
  let c := if outcome.rejected then c.recordBackpressure else c
  let c := if outcome.dropped > 0 then c.recordTxDrop (UInt64.ofNat outcome.dropped) else c
  { w with counters := c }

/-- What a processor is told during a burst that was pulled at a time. -/
def context (w : Worker σ) (plane : Plane) (now : UInt64) : Context :=
  -- The frequency is the clock's own.
  { worker := w.id, core := w.core, now, hz := (plane.clock w.clock).hz, clock := w.clock,
    life := w.life }

/-- A burst processed: what was pulled is counted before, and what came of it after. -/
def processBurst (w : Worker σ) (now : UInt64) (packets : List Packet) (plane : Plane) :
    Turn σ :=
  -- A processor that dies leaves what came of the burst uncounted.
  let bytes := plane.buffers.totalLen packets
  let counters := w.counters.recordRx (UInt64.ofNat packets.length) (UInt64.ofNat bytes)
  let work := processAll (w.context plane now) packets ⟨{ w with counters }, {}, plane, false⟩
  if work.crashed then ⟨packets.length, true, work.worker, work.plane⟩
  else
    let w := work.worker
    let w := if work.tally.dropped > 0 then
        { w with counters := w.counters.recordDrop (UInt64.ofNat work.tally.dropped) }
      else w
    ⟨packets.length, false, w.recordOutcome work.tally.outcome, work.plane⟩

/-- What waits pushed out, with the policy applied to what was refused. -/
def push (w : Worker σ) (plane : Plane) : Worker σ × Plane :=
  -- Without an output, what waits is given back as if it had been sent.
  let (outcome, backlog, plane) := match w.target? with
    | some target => w.backlog.flush target.sender plane
    | none => w.backlog.discard plane
  (({ w with backlog }).recordOutcome outcome, plane)

/-- One more cycle of a streak of device errors, without going past the largest count. -/
def countStreak (streak : UInt32) : UInt32 :=
  -- The count stays at its end.
  if streak = 0xffffffff then streak else streak + 1

/-- The error counts that a worker remembers brought up to date, with whether any had changed. -/
def refreshWatched (device : Device) (watched : List (UInt16 × UInt64)) :
    Bool × List (UInt16 × UInt64) :=
  -- A count that differs from the one remembered means a new error.
  let fresh := watched.map fun entry => (entry.1, device.errorCount entry.1)
  (fresh != watched, fresh)

/-- New device errors counted, with one alarm when their streak reaches the threshold. -/
def checkDevices (w : Worker σ) (plane : Plane) : Worker σ :=
  -- A cycle without errors ends the streak.
  match w.watch.bind plane.device? with
  | none => w
  | some device =>
    match refreshWatched device w.watched with
    | (false, _) => { w with errorStreak := 0 }
    | (true, watched) =>
      let streak := countStreak w.errorStreak
      let c := w.counters.recordDeviceError
      let c := if streak = w.settings.alarmThreshold then c.recordAlarm else c
      { w with watched, errorStreak := streak, counters := c }

/-- The cycles between two readings, none when the clock seems to have gone back. -/
def cyclesSince (before now : UInt64) : UInt64 :=
  -- The count never goes below zero.
  if now ≥ before then now - before else 0

/-- What a worker has counted published at the end of a turn, when it is time to. -/
def reportAt (w : Worker σ) (plane : Plane) (now : UInt64) : Worker σ × Plane :=
  -- The next report is due one interval later.
  if now ≥ w.nextReport then
    let (reporter, metrics) := w.reporter.report w.counters plane.metrics
    ({ w with reporter, nextReport := now + w.statsInterval }, { plane with metrics })
  else (w, plane)

/-- The end of a turn that began at a time and pulled a number of packets. -/
def finishTurn (w : Worker σ) (began : UInt64) (pulled : Nat) (plane : Plane) : Turn σ :=
  -- Only turns that pulled something were busy.
  let (w, plane) := w.push plane
  let w := w.checkDevices plane
  let now := (plane.clock w.clock).now
  let busy := if pulled > 0 then cyclesSince began now else 0
  let w := { w with counters := w.counters.recordCycles busy (cyclesSince w.started now) }
  let (w, plane) := w.reportAt plane now
  ⟨pulled, false, w, plane⟩

/-- One turn: pull, process, push. -/
def turn (w : Worker σ) (plane : Plane) : Turn σ :=
  -- A processor that dies ends the turn at once.
  let now := (plane.clock w.clock).now
  let (want, w) := w.allowance now
  let (packets, plane) := w.pull plane want
  let w := w.spend packets.length
  if packets.isEmpty then
    ({ w with counters := w.counters.recordIdle } : Worker σ).finishTurn now 0 plane
  else
    let burst := w.processBurst now packets plane
    if burst.crashed then burst
    else burst.worker.finishTurn now burst.pulled burst.plane

end Worker

end PacketPlane
