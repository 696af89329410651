import PacketPlane.Plane.Basic

/-! Transmit backlogs: packets on their way to one output, and what happens to refused ones. -/

namespace PacketPlane

/-- What a sender did with packets: how many it accepted, those it did not, and the plane after. -/
structure Sent where
  accepted : Nat
  rest : List Packet
  plane : Plane

/-- Something that packets can be handed to, front first. -/
abbrev Sender := Plane → List Packet → Sent

/-- An output that packets can be handed to. -/
inductive Target where
  | port (port : Port)
  | ring (number : Nat)
deriving DecidableEq, Repr

/-- Packets handed to an output. -/
def Target.sender (target : Target) : Sender := fun plane packets =>
  -- Either kind of output takes packets from the front.
  match target with
  | .port p =>
    let (accepted, rest, plane) := plane.txBurst p packets
    ⟨accepted, rest, plane⟩
  | .ring number =>
    let (accepted, rest, plane) := plane.enqueueBulk number packets
    ⟨accepted, rest, plane⟩

/-- What became of the packets of a backlog. -/
structure Outcome where
  sent : Nat := 0
  sentBytes : Nat := 0
  dropped : Nat := 0
  rejected : Bool := false
deriving DecidableEq, Repr, Inhabited

/-- Two outcomes added up. -/
def Outcome.merge (o other : Outcome) : Outcome :=
  -- A refusal in either is a refusal.
  ⟨o.sent + other.sent, o.sentBytes + other.sentBytes, o.dropped + other.dropped,
    o.rejected || other.rejected⟩

/-- Packets that wait for one output, and how often it has refused them. -/
structure Backlog where
  pending : List Packet := []
  threshold : Nat
  policy : Backpressure
  attempts : UInt32 := 0
  dropped : UInt64 := 0
deriving Repr, Inhabited

namespace Backlog

/-- An empty backlog that is sent whenever it reaches a threshold. -/
def make (threshold : Nat) (policy : Backpressure) : Backlog :=
  -- A threshold of zero would never be reached from below.
  { threshold := max threshold 1, policy }

/-- How many packets wait. -/
def len (b : Backlog) : Nat :=
  -- Each waits once.
  b.pending.length

/-- Whether no packet waits. -/
def isEmpty (b : Backlog) : Bool :=
  -- An empty backlog has no attempts to remember.
  b.pending.isEmpty

/-- What waits handed to a sender; refused packets go on waiting. -/
def tryFlush (b : Backlog) (send : Sender) (plane : Plane) : Outcome × Backlog × Plane :=
  -- The bytes sent are those that no longer wait.
  if b.pending.isEmpty then ({}, b, plane)
  else
    let before := plane.buffers.totalLen b.pending
    let sent := send plane b.pending
    let after := sent.plane.buffers.totalLen sent.rest
    ({ sent := sent.accepted, sentBytes := before - after, rejected := !sent.rest.isEmpty },
      { b with pending := sent.rest }, sent.plane)

/-- Everything that waits given back and counted as dropped. -/
def dropPending (b : Backlog) (plane : Plane) : Nat × Backlog × Plane :=
  -- The next packet finds a backlog without attempts. The lifetime count wraps at 64 bits.
  (b.len, { b with pending := [], attempts := 0, dropped := b.dropped + UInt64.ofNat b.len },
    plane.releaseAll b.pending)

/-- Everything that waits given back as if it had been sent. -/
def discard (b : Backlog) (plane : Plane) : Outcome × Backlog × Plane :=
  -- The next packet finds a backlog without attempts.
  ({ sent := b.len, sentBytes := plane.buffers.totalLen b.pending },
    { b with pending := [], attempts := 0 }, plane.releaseAll b.pending)

/-- A packet put at the end, and everything sent once the threshold is reached. -/
def buffer (b : Backlog) (packet : Packet) (send : Sender) (plane : Plane) :
    Outcome × Backlog × Plane :=
  -- Refused packets go on waiting, and the policy is left for the next flush.
  let b := { b with pending := b.pending ++ [packet] }
  if b.len < b.threshold then ({}, b, plane)
  else
    let (outcome, b, plane) := b.tryFlush send plane
    (outcome, if b.isEmpty then { b with attempts := 0 } else b, plane)

/-- One more attempt, without ever going past the largest count. -/
def countAttempt (attempts : UInt32) : UInt32 :=
  -- The count stays at its end.
  if attempts = 0xffffffff then attempts else attempts + 1

/-- Whether refused packets are given up, and the attempts counted so far. -/
def giveUp (b : Backlog) : Bool × UInt32 :=
  -- Only a retrying policy counts.
  match b.policy with
  | .drop => (true, b.attempts)
  | .retry limit =>
    let attempts := countAttempt b.attempts
    (attempts > limit, attempts)

/-- What waits handed to a sender, and the policy applied to what it refused. -/
def flush (b : Backlog) (send : Sender) (plane : Plane) : Outcome × Backlog × Plane :=
  -- A flush that leaves nothing behind starts the attempts over.
  let (outcome, b, plane) := b.tryFlush send plane
  if b.isEmpty then (outcome, { b with attempts := 0 }, plane)
  else
    let (giveUp, attempts) := b.giveUp
    let b := { b with attempts }
    if giveUp then
      let (dropped, b, plane) := b.dropPending plane
      ({ outcome with dropped }, b, plane)
    else (outcome, b, plane)

end Backlog

end PacketPlane
