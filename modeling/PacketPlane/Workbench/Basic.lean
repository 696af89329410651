import PacketPlane.Fleet.Engine
import PacketPlane.Worker.Action

/-! A workbench: one fleet with names for everything on it, worked on one step at a time. -/

namespace PacketPlane

/-- Things under names. -/
abbrev Names (α : Type) := Std.HashMap String α

/-- Whose counters a name stands for. -/
inductive CountersOf where
  | loose (number : Nat)
  | member (number : Nat)
deriving DecidableEq, Repr, Inhabited

/-- A ring of plain numbers, with how many numbers have been let go since it was made. -/
structure NumberRing where
  ring : Ring Nat
  released : Nat := 0

/-- A fleet and the names of everything on it, each kind of thing in a name space of its own. -/
structure Workbench where
  fleet : Fleet Nat := {}
  pools : Names Nat := ∅
  lists : Names (List Packet) := ∅
  raws : Names RawHandle := ∅
  numberRings : Names NumberRing := ∅
  rings : Names Nat := ∅
  devices : Names Nat := ∅
  ports : Names Port := ∅
  backlogs : Names Backlog := ∅
  outcomes : Outcome := {}
  taps : Names Nat := ∅
  sinks : Names MemoryCapture := ∅
  clocks : Names Nat := ∅
  pacers : Names Pacer := ∅
  counters : Names CountersOf := ∅
  loose : Array Counters := #[]
  snapshots : Names Counters := ∅
  aggregates : Names (List CountersOf) := ∅
  reporters : Names Reporter := ∅
  cores : Names Nat := ∅
  coreTables : Array Cores := #[]
  claims : Names (Nat × CoreClaim) := ∅
  pinLogs : Names PinLog := ∅
  workers : Names Nat := ∅
  lives : Names Nat := ∅
  handles : Names Nat := ∅
  engines : Names Engine := ∅

/-- Why a step was not carried out: the plane refused it, or it named something that is not there.
-/
inductive Refusal where
  | fault (fault : Fault)
  | unknown (name : String)
deriving Repr, Inhabited

/-- A step on a workbench. A step that is refused may still have changed something. -/
abbrev Bench (α : Type) := ExceptT Refusal (StateM Workbench) α

namespace Bench

/-- A refusal by the plane. -/
def refuse (fault : Fault) : Bench α :=
  -- The step ends here.
  throw (.fault fault)

/-- A result that the plane may have refused. -/
def accept (result : Except Fault α) : Bench α :=
  -- The step ends at a refusal.
  match result with
  | .ok value => pure value
  | .error fault => refuse fault

/-- What a name stands for. -/
def find (names : Workbench → Names α) (name : String) : Bench α := do
  -- A name that stands for nothing ends the step.
  match (names (← get))[name]? with
  | some value => pure value
  | none => throw (.unknown name)

/-- What a name stands for, if the name is given. -/
def find? (names : Workbench → Names α) (name : Option String) : Bench (Option α) := do
  -- No name stands for nothing.
  match name with
  | none => pure none
  | some name => return some (← find names name)

/-- The plane as it is. -/
def plane : Bench Plane := do
  -- All numbers of things refer to it.
  return (← get).fleet.plane

/-- The plane after a change. -/
def setPlane (plane : Plane) : Bench Unit :=
  -- The workers stay as they are.
  modify fun w => { w with fleet := { w.fleet with plane } }

/-- The plane changed. -/
def mapPlane (change : Plane → Plane) : Bench Unit := do
  -- The workers stay as they are.
  setPlane (change (← plane))

/-- The buffers as they are. -/
def buffers : Bench Buffers := do
  -- They are part of the plane.
  return (← plane).buffers

/-- The buffers after a change. -/
def setBuffers (buffers : Buffers) : Bench Unit :=
  -- The rest of the plane stays as it is.
  mapPlane fun plane => { plane with buffers }

/-- The fleet as it is. -/
def fleet : Bench (Fleet Nat) := do
  -- It holds the plane as well.
  return (← get).fleet

/-- The fleet after a change. -/
def setFleet (fleet : Fleet Nat) : Bench Unit :=
  -- Names stay as they are.
  modify fun w => { w with fleet }

/-- The packets of a list, which is empty before its first use. -/
def list (name : String) : Bench (List Packet) := do
  -- Lists need not be made.
  return (← get).lists.getD name []

/-- The packets of a list replaced. -/
def setList (name : String) (packets : List Packet) : Bench Unit :=
  -- The packets that were there must have gone somewhere.
  modify fun w => { w with lists := w.lists.insert name packets }

/-- Packets put at the end of a list. -/
def appendTo (name : String) (packets : List Packet) : Bench Unit := do
  -- They keep their order.
  setList name ((← list name) ++ packets)

/-- A packet of a list by its position. -/
def packetAt (name : String) (position : Nat) : Bench Packet := do
  -- A position past the end names nothing.
  match (← list name)[position]? with
  | some packet => pure packet
  | none => throw (.unknown name)

/-- A packet taken out of a list. -/
def takeAt (name : String) (position : Nat) : Bench Packet := do
  -- Those behind it move up.
  let packet ← packetAt name position
  setList name ((← list name).eraseIdx position)
  return packet

end Bench

end PacketPlane
