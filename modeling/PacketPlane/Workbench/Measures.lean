import PacketPlane.Workbench.Basic

/-! Steps on named clocks, pacers, counters, snapshots, aggregates and reporters. -/

namespace PacketPlane.Bench

/-- A clock moved by hand, made and named. -/
def makeClock (name : String) (hz : UInt64) : Bench Unit := do
  -- It starts at zero.
  let (number, plane) := (← plane).addClock { hz }
  setPlane plane
  modify fun w => { w with clocks := w.clocks.insert name number }

/-- A clock as it is. -/
def clock (name : String) : Bench Clock := do
  -- Nothing is changed by looking.
  return (← plane).clock (← find (·.clocks) name)

/-- A clock moved forward, with what it reads afterwards. -/
def advanceClock (name : String) (cycles : UInt64) : Bench UInt64 := do
  -- Everyone who reads it sees the new time.
  let number ← find (·.clocks) name
  mapPlane (·.advanceClock number cycles)
  return ((← plane).clock number).now

/-- A pacer named. -/
def makePacer (name : String) (pacer : Pacer) : Bench Unit :=
  -- It replaces the one that had the name.
  modify fun w => { w with pacers := w.pacers.insert name pacer }

/-- How many packets a pacer allows. -/
def allowance (name : String) (now : UInt64) (want : Nat) : Bench Nat := do
  -- Tokens are earned on the way.
  let (allowed, pacer) := (← find (·.pacers) name).allowance now want
  makePacer name pacer
  return allowed

/-- Tokens of a pacer spent. -/
def consume (name : String) (packets : Nat) : Bench Unit := do
  -- The bucket never goes below empty.
  makePacer name ((← find (·.pacers) name).consume packets)

/-- Counters of nobody, made and named. -/
def makeCounters (name : String) : Bench Unit :=
  -- They start at zero.
  modify fun w => { w with
    counters := w.counters.insert name (.loose w.loose.size), loose := w.loose.push {} }

/-- The counters that something stands for. -/
def countersOf (source : CountersOf) : Bench Counters := do
  -- A worker's counters are its own.
  match source with
  | .loose number => return (← get).loose.getD number {}
  | .member number => return (← fleet).counters number

/-- Named counters as they are. -/
def counters (name : String) : Bench Counters := do
  -- Nothing is changed by looking.
  countersOf (← find (·.counters) name)

/-- Something recorded in named counters. -/
def record (name : String) (change : Counters → Counters) : Bench Counters := do
  -- A worker's counters can be written from outside, too.
  match ← find (·.counters) name with
  | .loose number => modify fun w => { w with loose := w.loose.modify number change }
  | .member number =>
    setFleet ((← fleet).onMember number fun m plane =>
      ({ m with worker := { m.worker with counters := change m.worker.counters } }, plane))
  counters name

/-- A snapshot named. -/
def makeSnapshot (name : String) (counters : Counters) : Bench Unit :=
  -- It replaces the one that had the name.
  modify fun w => { w with snapshots := w.snapshots.insert name counters }

/-- A snapshot added to another. -/
def mergeSnapshot (name other : String) : Bench Counters := do
  -- Only the first one changes.
  let merged := (← find (·.snapshots) name).merge (← find (·.snapshots) other)
  makeSnapshot name merged
  return merged

/-- An aggregate of nothing, made and named. -/
def makeAggregate (name : String) : Bench Unit :=
  -- It replaces the one that had the name.
  modify fun w => { w with aggregates := w.aggregates.insert name [] }

/-- Counters added to an aggregate, with how many it has afterwards. -/
def register (name counters : String) : Bench Nat := do
  -- The same counters may be added twice.
  let members := (← find (·.aggregates) name) ++ [← find (·.counters) counters]
  modify fun w => { w with aggregates := w.aggregates.insert name members }
  return members.length

/-- One of an aggregate's counters. -/
def aggregated (name : String) (position : Nat) : Bench Counters := do
  -- Positions are those of registration.
  match (← find (·.aggregates) name)[position]? with
  | some source => countersOf source
  | none => throw (.unknown name)

/-- How many counters an aggregate has, and what they count together. -/
def aggregateTotal (name : String) : Bench (Nat × Counters) := do
  -- Counters that were added twice count twice.
  let members ← find (·.aggregates) name
  return (members.length, Counters.total (← members.mapM countersOf))

/-- A reporter made and named. -/
def makeReporter (name label : String) : Bench Unit :=
  -- It has reported nothing.
  modify fun w => { w with reporters := w.reporters.insert name { label } }

/-- What changed in named counters since a reporter's last report, published. -/
def report (name counters : String) : Bench Unit := do
  -- The reporter does not care whose counters they are.
  let plane ← plane
  let (reporter, metrics) :=
    (← find (·.reporters) name).report (← Bench.counters counters) plane.metrics
  setPlane { plane with metrics }
  modify fun w => { w with reporters := w.reporters.insert name reporter }

end PacketPlane.Bench
