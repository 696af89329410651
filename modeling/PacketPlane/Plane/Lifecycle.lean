/-! Worker lifecycles: four states that are only ever passed through forwards. -/

namespace PacketPlane

/-- How far a worker has come. -/
inductive LifeState where
  | created
  | running
  | draining
  | stopped
deriving DecidableEq, Repr, Inhabited

namespace LifeState

/-- The place of a state in the order of life. -/
def rank : LifeState → Nat
  -- Later states have larger ranks.
  | .created => 0
  | .running => 1
  | .draining => 2
  | .stopped => 3

/-- The name of a state. -/
def name : LifeState → String
  -- Names begin with a capital.
  | .created => "Created"
  | .running => "Running"
  | .draining => "Draining"
  | .stopped => "Stopped"

/-- A step from one state to a later one, taken only from the state it names. -/
def advance (current before after : LifeState) : Bool × LifeState :=
  -- A step backwards is never taken, whatever the state is.
  if before.rank < after.rank ∧ current = before then (true, after) else (false, current)

/-- The state after a request to stop. -/
def requestStop (current : LifeState) : LifeState :=
  -- A worker that is draining or has stopped is not disturbed.
  if current.rank < draining.rank then .draining else current

end LifeState

end PacketPlane
