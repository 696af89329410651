import PacketPlane.Buffer.Frame
import PacketPlane.Worker.Basic

/-! Scripted processors: a list of actions carried out in turn on every packet. -/

namespace PacketPlane

/-- One thing done to every packet, which may end its processing. -/
inductive Action where
  | advance (cycles : UInt64)
  | log
  | stopAfter (count : Nat)
  | crashAt (count : Nat)
  | drop
  | dropEvery (count : Nat)
  | even
  | minLen (len : Nat)
  | set (byte : UInt8)
  | prepend (bytes : List UInt8)
  | append (bytes : List UInt8)
  | pull (count : Nat)
  | trim (count : Nat)
  | stamp
  | port (port : UInt16)
  | swapMacs
deriving DecidableEq, Repr, Inhabited

/-- An edit that keeps a packet when it is accepted and drops it when it is refused. -/
def Surroundings.kept (s : Surroundings) (edit : Bool × Buffers) : Verdict × Surroundings :=
  -- A refused edit may still have changed the packet.
  (if edit.1 then .forward else .drop, { s with buffers := edit.2 })

/-- A window grown by bytes that are written into it. -/
def Buffers.fillGrown (b : Buffers) (packet : Packet) (bytes : List UInt8)
    (grown : Option (Nat × Buffers)) : Bool × Buffers :=
  -- A window that could not grow stays as it was.
  match grown with
  | none => (false, b)
  | some (start, b) => (true, b.writeBytes packet start bytes)

/-- A window shrunk, whatever was removed from it. -/
def Buffers.shrunk (b : Buffers) (result : Option (Nat × Buffers)) : Bool × Buffers :=
  -- A window that could not shrink stays as it was.
  match result with
  | none => (false, b)
  | some (_, b) => (true, b)

/-- The first byte of a packet replaced, unless the packet is shared or empty. -/
def Buffers.setFirst (b : Buffers) (packet : Packet) (byte : UInt8) : Bool × Buffers :=
  -- The length stays.
  match b.writable? packet with
  | some (start, _ + 1) => (true, b.writeBytes packet start [byte])
  | _ => (false, b)

/-- A verdict by a condition. -/
def Verdict.keepIf (condition : Bool) : Verdict :=
  -- A packet that does not meet it is dropped.
  if condition then .forward else .drop

/-- One action carried out on a packet, the given one of its worker counting from one. -/
def Action.perform (context : Context) (packet : Packet) (seen : Nat) (s : Surroundings) :
    Action → Verdict × Surroundings
  -- Forwarding here means going on with the next action.
  | .advance cycles =>
    (.forward, { s with clocks := s.clocks.modify context.clock (·.advance cycles) })
  | .log =>
    let note := {
      worker := context.worker, core := context.core, now := context.now, hz := context.hz
      index := packet.index, len := s.buffers.len packet }
    (.forward, { s with notes := s.notes.push note })
  | .stopAfter count =>
    (.forward,
      if seen = count then { s with lives := s.lives.modify context.life (·.requestStop) } else s)
  | .crashAt count => (if seen = count then .crash else .forward, s)
  | .drop => (.drop, s)
  | .dropEvery count => (.keepIf (seen % count != 0), s)
  | .even =>
    (.keepIf (match s.buffers.data packet with
      | first :: _ => first % 2 == 0
      | [] => false), s)
  | .minLen len => (.keepIf (s.buffers.len packet ≥ len), s)
  | .set byte => s.kept (s.buffers.setFirst packet byte)
  | .prepend bytes =>
    s.kept (s.buffers.fillGrown packet bytes (s.buffers.prepend? packet bytes.length))
  | .append bytes =>
    s.kept (s.buffers.fillGrown packet bytes (s.buffers.append? packet bytes.length))
  | .pull count => s.kept (s.buffers.shrunk (s.buffers.pull? packet count))
  | .trim count => s.kept (s.buffers.trim packet count)
  | .stamp => s.kept (s.buffers.setTimestamp packet context.now)
  | .port number => s.kept (s.buffers.setPort packet number)
  | .swapMacs => s.kept (s.buffers.swapMacs packet)

/-- Actions carried out in turn until one does not let the packet through. -/
def performAll (context : Context) (packet : Packet) (seen : Nat) (s : Surroundings) :
    List Action → Verdict × Surroundings
  -- A packet that every action lets through is forwarded.
  | [] => (.forward, s)
  | action :: rest =>
    match action.perform context packet seen s with
    | (.forward, s) => performAll context packet seen s rest
    | (verdict, s) => (verdict, s)

/-- The processor that carries out actions, remembering how many packets it has seen. -/
def scripted (actions : List Action) : Processor Nat := fun context packet seen s =>
  -- The packet under work is the next one.
  let (verdict, s) := performAll context packet (seen + 1) s actions
  ⟨verdict, seen + 1, s⟩

end PacketPlane
