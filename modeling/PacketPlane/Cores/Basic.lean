import PacketPlane.Fault

/-! Core placement: which workers run where, and which cores are kept for one of them. -/

namespace PacketPlane

/-- Where a worker would like to run. -/
inductive CorePreference where
  | any
  | manual (core : Nat)
deriving DecidableEq, Repr, Inhabited

/-- One core: how many workers it has, and whether it takes more. -/
structure Core where
  workers : Nat := 0
  dedicated : Bool := false
  disabled : Bool := false
deriving DecidableEq, Repr, Inhabited

/-- All cores, by number. -/
structure Cores where
  cores : List Core
deriving DecidableEq, Repr, Inhabited

/-- A worker's claim on a core. -/
structure CoreClaim where
  core : Nat
  dedicated : Bool
deriving DecidableEq, Repr, Inhabited

namespace Cores

/-- A number of free cores. -/
def make (count : Nat) : Cores :=
  -- Nothing runs anywhere yet.
  ⟨List.replicate count {}⟩

/-- How many cores there are. -/
def count (c : Cores) : Nat :=
  -- Disabled cores count as well.
  c.cores.length

/-- Workers placed on a core. -/
def load (c : Cores) (core : Nat) : Nat :=
  -- A core that does not exist has none.
  match c.cores[core]? with
  | none => 0
  | some slot => slot.workers

/-- Workers kept off a core from now on. -/
def disable (c : Cores) (core : Nat) : Except Fault Cores :=
  -- Those that already run there stay.
  match c.cores[core]? with
  | none => .error (.coreOutOfRange core)
  | some slot => .ok ⟨c.cores.set core { slot with disabled := true }⟩

/-- Whether a core can take another worker. -/
def eligible (dedicated : Bool) (slot : Core) : Bool :=
  -- A dedicated worker wants the core to itself.
  !slot.disabled && !slot.dedicated && (!dedicated || slot.workers == 0)

/-- The least loaded eligible core from a number on, the first of several. -/
def leastLoaded (dedicated : Bool) (number : Nat) (best : Option (Nat × Nat)) :
    List Core → Option Nat
  -- A later core has to be strictly better.
  | [] => best.map (·.2)
  | slot :: rest =>
    let better := match best with
      | none => true
      | some (load, _) => slot.workers < load
    leastLoaded dedicated (number + 1)
      (if eligible dedicated slot && better then some (slot.workers, number) else best) rest

/-- The core that a worker would be placed on. -/
def choose (c : Cores) (preference : CorePreference) (dedicated : Bool) : Except Fault Nat :=
  -- A named core is taken or refused, and no other one is tried.
  match preference with
  | .manual core =>
    match c.cores[core]? with
    | none => .error (.coreOutOfRange core)
    | some slot => if eligible dedicated slot then .ok core else .error (.coreBusy core)
  | .any =>
    match leastLoaded dedicated 0 none c.cores with
    | none => .error .noCores
    | some core => .ok core

/-- One worker placed. -/
def assign (c : Cores) (preference : CorePreference) (dedicated : Bool) :
    Except Fault (CoreClaim × Cores) :=
  -- The core remembers whether it was given away whole.
  match c.choose preference dedicated with
  | .error fault => .error fault
  | .ok core =>
    .ok (⟨core, dedicated⟩,
      ⟨c.cores.modify core fun slot => { slot with workers := slot.workers + 1, dedicated }⟩)

/-- A claim given back. -/
def release (c : Cores) (claim : CoreClaim) : Cores :=
  -- A dedicated worker frees the whole core.
  ⟨c.cores.modify claim.core fun slot =>
    { slot with workers := slot.workers - 1, dedicated := slot.dedicated && !claim.dedicated }⟩

end Cores

/-- Pinning that only remembers what was asked for. -/
structure PinLog where
  cores : Nat
  pinned : List Nat := []
deriving DecidableEq, Repr, Inhabited

/-- A request to pin to a core. -/
def PinLog.pin (p : PinLog) (core : Nat) : Except Fault PinLog :=
  -- Requests are kept in their order.
  if core ≥ p.cores then .error (.coreOutOfRange core)
  else .ok { p with pinned := p.pinned ++ [core] }

end PacketPlane
