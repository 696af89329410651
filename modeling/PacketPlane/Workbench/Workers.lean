import PacketPlane.Text.Shown
import PacketPlane.Workbench.Devices

/-! Steps on named cores, workers, lifecycles, handles and engines. -/

namespace PacketPlane

/-- Cores in words. -/
def Cores.shown (c : Cores) : String :=
  -- Every core is shown in its order.
  let core := fun (slot : Core) => Shown.record "CoreSlot" [("workers", toString slot.workers),
    ("dedicated", Shown.bool slot.dedicated), ("disabled", Shown.bool slot.disabled)]
  Shown.record "CoreManager" [("cores", "[" ++ ", ".intercalate (c.cores.map core) ++ "]")]

/-- A claim in words. -/
def CoreClaim.shown (c : CoreClaim) : String :=
  -- Both parts are shown.
  Shown.record "CoreHandle" [("core", toString c.core), ("dedicated", Shown.bool c.dedicated)]

/-- A core that may be absent, in words. -/
def shownCore (core : Option Nat) : String :=
  -- Cores go by their numbers.
  Shown.optional (core.map toString)

/-- A worker in words. -/
def Worker.shown (w : Worker σ) (plane : Plane) : String :=
  -- Ends are shown by their names.
  Shown.record "Worker" [("id", toString w.id), ("core", shownCore w.core),
    ("state", (plane.life w.life).name), ("input", w.input.shown plane),
    ("output", w.output.shown plane)]

/-- A started worker in words. -/
def Worker.shownStarted (w : Worker σ) (plane : Plane) : String :=
  -- Its ends belong to its thread.
  Shown.record "WorkerHandle" [("id", toString w.id), ("core", shownCore w.core),
    ("state", (plane.life w.life).name)]

/-- The end of a worker by what it is called. -/
inductive EndName where
  | port (name : String)
  | ring (name : String)
  | loopback
  | discard

/-- What a worker is made from, by names. -/
structure WorkerOrder where
  id : Nat
  input : Option EndName
  output : EndName
  clock : Option String
  settings : WorkerSettings
  watch : Option String
  capture : Option String
  actions : Option (List Action)

namespace Bench

/-- Cores made and named. -/
def makeCores (name : String) (count : Nat) : Bench Nat := do
  -- Claims on the cores that had the name still hold.
  modify fun w => { w with
    cores := w.cores.insert name w.coreTables.size
    coreTables := w.coreTables.push (Cores.make count) }
  return count

/-- Cores as they are, with their number. -/
def cores (name : String) : Bench (Nat × Cores) := do
  -- Named cores always exist.
  let number ← find (·.cores) name
  return (number, (← get).coreTables.getD number ⟨[]⟩)

/-- Cores after a change. -/
def setCores (number : Nat) (cores : Cores) : Bench Unit :=
  -- Other cores stay as they are.
  modify fun w => { w with coreTables := w.coreTables.setIfInBounds number cores }

/-- A claim given back to its cores. -/
def releaseClaim (claim : Nat × CoreClaim) : Bench Unit :=
  -- Claims outlive the names of their cores.
  modify fun w => { w with coreTables := w.coreTables.modify claim.1 (·.release claim.2) }

/-- A core assigned under the name of a claim. -/
def assign (name : String) (preference : CorePreference) (dedicated : Bool) (claim : String) :
    Bench CoreClaim := do
  -- The claim that had the name is given back once the new one stands.
  let (number, cores) ← cores name
  let (made, cores) ← accept (cores.assign preference dedicated)
  setCores number cores
  let former := (← get).claims[claim]?
  modify fun w => { w with claims := w.claims.insert claim (number, made) }
  if let some former := former then releaseClaim former
  return made

/-- Workers kept off a core. -/
def disableCore (name : String) (core : Nat) : Bench Unit := do
  -- Those that already run there stay.
  let (number, cores) ← cores name
  setCores number (← accept (cores.disable core))

/-- A named claim given back. -/
def release (claim : String) : Bench Unit := do
  -- The name is free again.
  let made ← find (·.claims) claim
  modify fun w => { w with claims := w.claims.erase claim }
  releaseClaim made

/-- A log of pins made and named. -/
def makePinLog (name : String) (cores : Nat) : Bench Unit :=
  -- Nothing has been pinned.
  modify fun w => { w with pinLogs := w.pinLogs.insert name { cores } }

/-- A request to pin, with all requests so far. -/
def pin (name : String) (core : Nat) : Bench (List Nat) := do
  -- A core that does not exist is refused.
  let pins ← accept ((← find (·.pinLogs) name).pin core)
  modify fun w => { w with pinLogs := w.pinLogs.insert name pins }
  return pins.pinned

/-- A worker's member of the fleet. -/
def member (number : Nat) : Bench (Member Nat) := do
  -- Numbers of members are never used again.
  match (← fleet).members[number]? with
  | some member => pure member
  | none => throw (.unknown (toString number))

/-- An input by its name; a port leaves its name. -/
def input : EndName → Bench (Option Input)
  -- Only ports and rings can be pulled from.
  | .port name => return some (.port (← takePort name))
  | .ring name => return some (.ring (← find (·.rings) name))
  | _ => return none

/-- An output by its name; a port leaves its name. -/
def output : EndName → Bench Output
  -- Anything else goes nowhere.
  | .port name => return .port (← takePort name)
  | .ring name => return .ring (← find (·.rings) name)
  | .loopback => return .loopback
  | .discard => return .discard

/-- A worker made and named, with its description. -/
def makeWorker (name : String) (order : WorkerOrder) : Bench String := do
  -- The worker that had the name is given up once the new one stands.
  let input ← match order.input with
    | some name => input name
    | none => pure none
  let plan : WorkerPlan Nat := {
    id := order.id, input, output := ← output order.output
    process := match order.actions with
      | some actions => scripted actions
      | none => passThrough Nat
    memory := 0, clock := ← find? (·.clocks) order.clock, settings := order.settings
    watch := ← find? (·.devices) order.watch, capture := ← find? (·.taps) order.capture }
  let (built, fleet) := (← fleet).build plan
  setFleet fleet
  let number ← accept built
  let m ← member number
  let former := (← get).workers[name]?
  modify fun w => { w with
    workers := w.workers.insert name number, lives := w.lives.insert name m.worker.life
    counters := w.counters.insert name (.member number) }
  if let some former := former then setFleet ((← Bench.fleet).dismiss former)
  return m.worker.shown (← plane)

/-- One turn of a worker, with how many packets it pulled and what it has counted. -/
def pollWorker (name : String) : Bench (Nat × Counters) := do
  -- The turn happens here, not on a thread.
  let number ← find (·.workers) name
  let (pulled, fleet) := (← fleet).turnHere number
  setFleet fleet
  return (pulled, fleet.counters number)

/-- A worker as it is. -/
def worker (name : String) : Bench (Worker Nat) := do
  -- Nothing is changed by looking.
  return (← member (← find (·.workers) name)).worker

/-- A worker taken from its name. -/
def takeWorker (name : String) : Bench Nat := do
  -- Its lifecycle and its counters keep the name.
  let number ← find (·.workers) name
  modify fun w => { w with workers := w.workers.erase name }
  return number

/-- A worker given up. -/
def dropWorker (name : String) : Bench Unit := do
  -- It gives back all it holds.
  setFleet ((← fleet).dismiss (← takeWorker name))

/-- A worker's whole run, with what it counted and its last state. -/
def runWorker (name : String) : Bench (Counters × LifeState) := do
  -- The run happens here, not on a thread.
  let number ← takeWorker name
  let fleet := (← fleet).runHere number patience
  setFleet fleet
  return (fleet.counters number, fleet.life number)

/-- A lifecycle of nobody, made and named. -/
def makeLife (name : String) : Bench Unit := do
  -- It starts at its beginning.
  let (number, plane) := (← plane).addLife
  setPlane plane
  modify fun w => { w with lives := w.lives.insert name number }

/-- A named lifecycle as it is. -/
def life (name : String) : Bench LifeState := do
  -- Nothing is changed by looking.
  return (← plane).life (← find (·.lives) name)

/-- A step of a named lifecycle, with whether it was taken. -/
def advanceLife (name : String) (before after : LifeState) : Bench Bool := do
  -- A step that is not taken changes nothing.
  let (taken, plane) := (← plane).advanceLife (← find (·.lives) name) before after
  setPlane plane
  return taken

/-- A request to stop through a named lifecycle. -/
def stopLife (name : String) : Bench Unit := do
  -- Whoever lives it sees the request.
  let number ← find (·.lives) name
  mapPlane (·.requestStop number)

/-- Rounds until a condition holds, with whether it came to hold. -/
def waitUntil (holds : Fleet Nat → Bool) : Bench Bool := do
  -- All started workers run meanwhile.
  let (held, fleet) := (← fleet).roundsUntil holds patience
  setFleet fleet
  return held

/-- A started worker asked to stop and waited for. -/
def finishHandle (number : Nat) : Bench Unit := do
  -- The others run on meanwhile.
  let (_, fleet) := ((← fleet).requestStop number).roundsUntil (·.hasEnded number) stopRounds
  setFleet fleet

/-- A worker started on a thread of its own, under a handle of the same name. -/
def spawn (name : String) : Bench Nat := do
  -- The handle that had the name stops its worker once the new one runs.
  let number ← takeWorker name
  let id := (← member number).worker.id
  setFleet ((← fleet).start number)
  let former := (← get).handles[name]?
  modify fun w => { w with handles := w.handles.insert name number }
  if let some former := former then finishHandle former
  return id

/-- The worker that a handle stands for. -/
def handle (name : String) : Bench Nat :=
  -- Handles stand for started workers.
  find (·.handles) name

/-- A worker waited for through its handle, which is gone then. -/
def join (name : String) : Bench (Counters × LifeState) := do
  -- Nobody asks it to stop.
  let number ← handle name
  modify fun w => { w with handles := w.handles.erase name }
  let _ ← waitUntil (·.hasEnded number)
  return ((← fleet).counters number, (← fleet).life number)

/-- A handle given up, which stops its worker. -/
def dropHandle (name : String) : Bench LifeState := do
  -- The worker has ended afterwards.
  let number ← handle name
  modify fun w => { w with handles := w.handles.erase name }
  finishHandle number
  return (← fleet).life number

/-- All notes taken by processors, which are gone then. -/
def takeNotes : Bench (List Note) := do
  -- They come in the order in which they were taken.
  let plane ← plane
  setPlane { plane with notes := #[] }
  return plane.notes.toList

/-- All workers of an engine stopped, with what each has counted. -/
def stopEngine (name : String) : Bench (List Counters) := do
  -- They stop in the order in which they were started.
  let (counters, engine, fleet) := (← find (·.engines) name).stop (← fleet) stopRounds
  setFleet fleet
  modify fun w => { w with engines := w.engines.insert name engine }
  return counters

/-- An engine made and named. -/
def makeEngine (name : String) (cores : Nat) (s : Settings) : Bench Engine := do
  -- The engine that had the name stops its workers.
  if (← get).engines.contains name then let _ ← stopEngine name
  let engine := Engine.make cores s
  modify fun w => { w with engines := w.engines.insert name engine }
  return engine

/-- An engine as it is. -/
def engine (name : String) : Bench Engine :=
  -- Nothing is changed by looking.
  find (·.engines) name

/-- A worker started on a core of an engine. -/
def spawnOn (name worker : String) (preference : CorePreference) : Bench Nat := do
  -- The worker is gone even when there is no core for it.
  let engine ← engine name
  -- The system always has a thread for a worker here.
  let (core, engine, fleet) :=
    engine.spawnOn (← fleet) (← takeWorker worker) preference (.ok ())
  setFleet fleet
  modify fun w => { w with engines := w.engines.insert name engine }
  accept core

/-- Workers kept off a core of an engine. -/
def disableEngineCore (name : String) (core : Nat) : Bench Unit := do
  -- Those that already run there stay.
  let engine ← engine name
  let cores ← accept (engine.cores.disable core)
  modify fun w => { w with engines := w.engines.insert name { engine with cores } }

/-- An engine given up, which stops its workers. -/
def dropEngine (name : String) : Bench Unit := do
  -- What they counted stays to be read.
  let _ ← stopEngine name
  modify fun w => { w with engines := w.engines.erase name }

/-- Whether any started worker has not been waited for. -/
def busy : Bench Bool := do
  -- Handles and engines stand for started workers.
  let w ← get
  return !w.handles.isEmpty || w.engines.fold (fun any _ e => any || !e.running.isEmpty) false

end Bench

end PacketPlane
