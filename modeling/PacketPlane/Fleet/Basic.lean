import PacketPlane.Worker.Run

/-! Fleets: workers that run side by side on one plane, one of them taking one step at a time. -/

namespace PacketPlane

/-- How far the run of a worker has come. -/
inductive Stage where
  | idle
  | starting
  | polling
  | draining (left : Nat)
  | ended
deriving DecidableEq, Repr, Inhabited

/-- A worker with how far its run has come. -/
structure Member (σ : Type) where
  worker : Worker σ
  stage : Stage := .idle

/-- A plane with all of its workers, by number. -/
structure Fleet (σ : Type) where
  plane : Plane := {}
  members : Array (Member σ) := #[]

/-- Rounds that anybody waits for at most when nobody has been asked to stop. -/
def patience : Nat := 1 <<< 40

/-- Rounds within which a worker that is asked to stop has ended. -/
def stopRounds : Nat :=
  -- Each round of its drain takes a packet off a ring, besides three steps around the drain.
  maxRingCapacity + 4

namespace Member

variable {σ : Type}

/-- The step from turns to the drain, which takes what is queued at this moment. -/
def beginDrain (m : Member σ) (plane : Plane) : Member σ × Plane :=
  -- The bound is taken once.
  ({ m with stage := .draining (m.worker.drainCount plane) }, plane)

/-- A run that is over: the worker gives back all it holds. -/
def leave (m : Member σ) (plane : Plane) : Member σ × Plane :=
  -- What it counted stays to be read.
  ({ worker := { m.worker with backlog := { m.worker.backlog with pending := [] } },
     stage := .ended },
    plane.dismiss m.worker)

/-- A turn or batch taken over. A processor that died ends the run without a drain. -/
def after (m : Member σ) (turn : Turn σ) (stage : Stage) : Member σ × Plane :=
  -- The lifecycle stays as it was when the processor died.
  let m := { m with worker := turn.worker, stage }
  if turn.crashed then m.leave turn.plane else (m, turn.plane)

/-- One step of a run. -/
def step (m : Member σ) (plane : Plane) : Member σ × Plane :=
  -- A worker that has not been started, or whose run is over, does nothing.
  match m.stage with
  | .idle | .ended => (m, plane)
  | .starting =>
    let m := { m with worker := m.worker.begin plane }
    match plane.advanceLife m.worker.life .created .running with
    | (true, plane) => ({ m with stage := .polling }, plane)
    | (false, plane) => m.beginDrain plane
  | .polling =>
    if plane.life m.worker.life = .running then m.after (m.worker.turn plane) .polling
    else m.beginDrain plane
  | .draining 0 =>
    let (w, plane) := m.worker.flushPending plane
    let (w, plane) := w.finish plane
    leave { m with worker := w } plane
  | .draining left =>
    let batch := m.worker.drainBatch plane left
    m.after batch (.draining (if batch.pulled = 0 then 0 else left - batch.pulled))

end Member

namespace Fleet

variable {σ : Type}

/-- A worker added under the next number, without being started. -/
def add (f : Fleet σ) (worker : Worker σ) : Nat × Fleet σ :=
  -- Numbers are never used again.
  (f.members.size, { f with members := f.members.push { worker } })

/-- A worker made to a plan and added, unless the plan is refused. -/
def build (f : Fleet σ) (plan : WorkerPlan σ) : Except Fault Nat × Fleet σ :=
  -- A plan that is refused gives its ports back.
  match plan.build f.plane with
  | (.error fault, plane) => (.error fault, { f with plane })
  | (.ok worker, plane) =>
    let (number, f) := ({ f with plane } : Fleet σ).add worker
    (.ok number, f)

/-- What a worker has counted. -/
def counters (f : Fleet σ) (number : Nat) : Counters :=
  -- A worker that does not exist has counted nothing.
  match f.members[number]? with
  | none => {}
  | some m => m.worker.counters

/-- The lifecycle of a worker. -/
def life (f : Fleet σ) (number : Nat) : LifeState :=
  -- A worker that does not exist is over.
  match f.members[number]? with
  | none => .stopped
  | some m => f.plane.life m.worker.life

/-- A worker asked to stop. -/
def requestStop (f : Fleet σ) (number : Nat) : Fleet σ :=
  -- The worker sees the request in its next step.
  match f.members[number]? with
  | none => f
  | some m => { f with plane := f.plane.requestStop m.worker.life }

/-- Whether a worker's run is over. -/
def hasEnded (f : Fleet σ) (number : Nat) : Bool :=
  -- A worker that does not exist never ran.
  match f.members[number]? with
  | none => true
  | some m => m.stage == .ended

/-- One member changed together with the plane. -/
def onMember (f : Fleet σ) (number : Nat) (action : Member σ → Plane → Member σ × Plane) :
    Fleet σ :=
  -- The other members stay as they are.
  match f.members[number]? with
  | none => f
  | some m =>
    let (m, plane) := action m f.plane
    { plane, members := f.members.setIfInBounds number m }

/-- A worker started on its own thread. -/
def start (f : Fleet σ) (number : Nat) : Fleet σ :=
  -- Only a worker that was never started can be.
  f.onMember number fun m plane =>
    (if m.stage = .idle then { m with stage := .starting } else m, plane)

/-- A worker that was never started given up. -/
def dismiss (f : Fleet σ) (number : Nat) : Fleet σ :=
  -- A worker whose run is over has given everything back already.
  f.onMember number fun m plane => if m.stage = .ended then (m, plane) else m.leave plane

/-- One step of one worker. -/
def step (f : Fleet σ) (number : Nat) : Fleet σ :=
  -- Any order of steps is an order in which the workers may run.
  f.onMember number Member.step

/-- Clocks that run by themselves moved on by one round. -/
def tick (f : Fleet σ) : Fleet σ :=
  -- Clocks that are moved by hand stand still.
  { f with plane := { f.plane with
      clocks := f.plane.clocks.map fun clock => clock.advance clock.perTurn } }

/-- One step of every worker, in their order. -/
def round (f : Fleet σ) : Fleet σ :=
  -- Every worker gets its turn.
  ((List.range f.members.size).foldl step f).tick

/-- Rounds until a condition holds, up to a number of them, with whether it came to hold. -/
def roundsUntil (f : Fleet σ) (holds : Fleet σ → Bool) : Nat → Bool × Fleet σ
  -- The condition is looked at before every round.
  | 0 => (holds f, f)
  | count + 1 => if holds f then (true, f) else f.round.roundsUntil holds count

/-- A worker's run on the calling thread, with a bound on its turns. -/
def runHere (f : Fleet σ) (number bound : Nat) : Fleet σ :=
  -- The worker gives back all it holds when its run is over.
  f.onMember number fun m plane =>
    let run := m.worker.run plane bound
    Member.leave { m with worker := run.worker } run.plane

/-- A worker's turn on the calling thread, with how many packets it pulled. -/
def turnHere (f : Fleet σ) (number : Nat) : Nat × Fleet σ :=
  -- A processor that dies ends the worker.
  match f.members[number]? with
  | none => (0, f)
  | some m =>
    let turn := m.worker.turn f.plane
    let (m, plane) := m.after turn .idle
    (turn.pulled, { plane, members := f.members.setIfInBounds number m })

end Fleet

end PacketPlane
