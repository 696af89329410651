import PacketPlane.Worker.Turn

/-! A worker's whole run: turns until it is asked to stop, then a bounded drain. -/

namespace PacketPlane

namespace Worker

variable {σ : Type}

/-- One attempt to push out what waits, without giving anything up. -/
def attempt (w : Worker σ) (plane : Plane) : Worker σ × Plane :=
  -- Without an output, what waits is given back as if it had been sent.
  let (outcome, backlog, plane) := match w.target? with
    | some target => w.backlog.tryFlush target.sender plane
    | none => w.backlog.discard plane
  (({ w with backlog }).recordOutcome outcome, plane)

/-- Up to a number of attempts to push out what waits. -/
def attempts (w : Worker σ) (plane : Plane) : Nat → Worker σ × Plane
  -- An empty backlog needs no further attempt.
  | 0 => (w, plane)
  | count + 1 =>
    if w.backlog.isEmpty then (w, plane)
    else
      let (w, plane) := w.attempt plane
      w.attempts plane count

/-- What waits pushed out, and dropped when it will not go. -/
def flushPending (w : Worker σ) (plane : Plane) : Worker σ × Plane :=
  -- The attempts are those of the settings.
  let (w, plane) := w.attempts plane w.settings.drainAttempts.toNat
  if w.backlog.isEmpty then (w, plane)
  else
    let (dropped, backlog, plane) := w.backlog.dropPending plane
    ({ w with backlog, counters := w.counters.recordTxDrop (UInt64.ofNat dropped) }, plane)

/-- How many packets a drain takes off the input: those that are there when it begins. -/
def drainCount (w : Worker σ) (plane : Plane) : Nat :=
  -- No further packets are received from a port.
  match w.input with
  | .ring number => plane.ringCount number
  | .port _ => 0

/-- Up to a number of queued packets taken off the input, processed and pushed out. -/
def drainBatch (w : Worker σ) (plane : Plane) (left : Nat) : Turn σ :=
  -- At most one burst is taken at a time.
  match w.input with
  | .port _ => ⟨0, false, w, plane⟩
  | .ring number =>
    let (packets, _, plane) := plane.dequeueBulk number (min left w.settings.burstSize.toNat)
    if packets.isEmpty then ⟨0, false, w, plane⟩
    else
      let burst := w.processBurst (plane.clock w.clock).now packets plane
      if burst.crashed then burst
      else
        let (w, plane) := burst.worker.flushPending burst.plane
        ⟨burst.pulled, false, w, plane⟩

/-- Batches until a number of packets has been taken or the input is empty. -/
def drainFrom (w : Worker σ) (plane : Plane) (left : Nat) : Turn σ :=
  -- Somebody else may have emptied the input meanwhile.
  if left = 0 then ⟨0, false, w, plane⟩
  else
    let batch := w.drainBatch plane left
    if batch.crashed ∨ batch.pulled = 0 then batch
    else batch.worker.drainFrom batch.plane (left - batch.pulled)
termination_by left
decreasing_by
  simp +zetaDelta only [not_or] at *
  omega

/-- What was in flight finished: queued packets first, then what waits for the output. -/
def drain (w : Worker σ) (plane : Plane) : Turn σ :=
  -- The bound is taken once, when the drain begins.
  let drained := w.drainFrom plane (w.drainCount plane)
  if drained.crashed then drained
  else
    let (w, plane) := drained.worker.flushPending drained.plane
    { drained with worker := w, plane }

/-- The start of a run: the time is read, and the first report comes one interval later. -/
def begin (w : Worker σ) (plane : Plane) : Worker σ :=
  -- The sum wraps at 64 bits.
  let now := (plane.clock w.clock).now
  { w with started := now, nextReport := now + w.statsInterval }

/-- The end of a run: the lifecycle is over, and what was counted last is published. -/
def finish (w : Worker σ) (plane : Plane) : Worker σ × Plane :=
  -- The final report does not wait for its time.
  let plane := plane.setLife w.life .stopped
  let (reporter, metrics) := w.reporter.report w.counters plane.metrics
  ({ w with reporter }, { plane with metrics })

/-- Turns for as long as the lifecycle is running, up to a number of them. -/
def turns (w : Worker σ) (plane : Plane) : Nat → Turn σ
  -- A request to stop is seen between turns.
  | 0 => ⟨0, false, w, plane⟩
  | count + 1 =>
    if plane.life w.life = .running then
      let turn := w.turn plane
      if turn.crashed then turn else turn.worker.turns turn.plane count
    else ⟨0, false, w, plane⟩

/-- A run with a bound on its turns: start, turns, drain, end. -/
def run (w : Worker σ) (plane : Plane) (bound : Nat) : Turn σ :=
  -- A worker that cannot become running, since it was asked to stop before its start, only drains.
  let w := w.begin plane
  let polled : Turn σ := match plane.advanceLife w.life .created .running with
    | (true, plane) => w.turns plane bound
    | (false, plane) => ⟨0, false, w, plane⟩
  if polled.crashed then polled
  else
    let drained := polled.worker.drain polled.plane
    if drained.crashed then drained
    else
      let (w, plane) := drained.worker.finish drained.plane
      { drained with worker := w, plane }

end Worker

end PacketPlane
