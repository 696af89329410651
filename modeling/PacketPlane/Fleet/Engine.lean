import PacketPlane.Cores.Basic
import PacketPlane.Fleet.Basic

/-! Engines: workers placed on cores, started, and stopped one after another in their order. -/

namespace PacketPlane

/-- A started worker with its claim on a core. -/
structure Placed where
  member : Nat
  claim : CoreClaim
deriving DecidableEq, Repr, Inhabited

/-- An engine: its cores, how it places workers, those that run, and all that ever ran. -/
structure Engine where
  cores : Cores
  pins : PinLog
  pinCores : Bool
  dedicatedCores : Bool
  running : List Placed := []
  registered : List Nat := []
deriving Repr, Inhabited

namespace Engine

variable {σ : Type}

/-- An engine over a number of cores, without workers. -/
def make (cores : Nat) (s : Settings) : Engine :=
  -- Pinning goes to the same cores.
  { cores := Cores.make cores, pins := { cores }, pinCores := s.pinCores,
    dedicatedCores := s.dedicatedCores }

/-- A worker started on a core. A worker that finds no core is given up. -/
def spawn (e : Engine) (f : Fleet σ) (member : Nat) (preference : CorePreference) :
    Except Fault Nat × Engine × Fleet σ :=
  -- From now on the worker reports under its core.
  match e.cores.assign preference e.dedicatedCores with
  | .error fault => (.error fault, e, f.dismiss member)
  | .ok (claim, cores) =>
    let pins := if e.pinCores then
        match e.pins.pin claim.core with
        | .ok pins => pins
        | .error _ => e.pins
      else e.pins
    let f := f.onMember member fun m plane =>
      ({ m with worker := { m.worker with
          core := some claim.core, reporter := { label := toString claim.core } } }, plane)
    (.ok claim.core,
      { e with cores, pins, running := e.running ++ [⟨member, claim⟩],
               registered := e.registered ++ [member] },
      f.start member)

/-- A worker started on a core on a thread of its own, which the system may refuse. The worker is
given up then, and its core is free again. -/
def spawnOn (e : Engine) (f : Fleet σ) (member : Nat) (preference : CorePreference)
    (thread : Except Fault Unit) : Except Fault Nat × Engine × Fleet σ :=
  -- A core is claimed before there is a thread.
  match e.cores.assign preference e.dedicatedCores, thread with
  | .ok (claim, cores), .error fault =>
    (.error fault, { e with cores := cores.release claim }, f.dismiss member)
  | _, _ => e.spawn f member preference

/-- What all workers that were ever started have counted together. -/
def total (e : Engine) (f : Fleet σ) : Counters :=
  -- Workers that have stopped still count.
  Counters.total (e.registered.map f.counters)

/-- The lifecycles of the running workers, in the order they were started in. -/
def lives (e : Engine) (f : Fleet σ) : List LifeState :=
  -- Workers that have been stopped are gone.
  e.running.map fun placed => f.life placed.member

/-- One worker asked to stop and waited for, with a bound on the rounds, and its core freed. -/
def stopOne (e : Engine) (f : Fleet σ) (placed : Placed) (bound : Nat) : Engine × Fleet σ :=
  -- The other workers run on meanwhile.
  let (_, f) := (f.requestStop placed.member).roundsUntil (·.hasEnded placed.member) bound
  ({ e with cores := e.cores.release placed.claim }, f)

/-- Workers stopped one after another, with what each has counted in the end. -/
def stopEach (e : Engine) (f : Fleet σ) (bound : Nat) :
    List Placed → List Counters × Engine × Fleet σ
  -- A worker is waited for before the next one is asked to stop.
  | [] => ([], e, f)
  | placed :: rest =>
    let (e, f) := e.stopOne f placed bound
    let counters := f.counters placed.member
    let (others, e, f) := stopEach e f bound rest
    (counters :: others, e, f)

/-- All workers stopped in the order they were started in. -/
def stop (e : Engine) (f : Fleet σ) (bound : Nat) : List Counters × Engine × Fleet σ :=
  -- All stages before one have drained into it before it is asked to stop.
  stopEach { e with running := [] } f bound e.running

end Engine

end PacketPlane
