import PacketPlane.Buffer.Store

/-! Capture taps: references to forwarded packets, held until somebody records them. -/

namespace PacketPlane

/-- A lossy capture point: the packets it holds, and how many it took and skipped. -/
structure Tap where
  ring : Ring Packet
  tapped : UInt64 := 0
  dropped : UInt64 := 0

/-- A packet as it was recorded. -/
structure Captured where
  port : UInt16
  timestamp : UInt64
  data : List UInt8
deriving DecidableEq, Repr, Inhabited

/-- What a packet looks like at this moment. -/
def Buffers.capture (b : Buffers) (packet : Packet) : Captured :=
  -- Origin, time and bytes are recorded, and nothing else.
  match b.slot? packet with
  | none => ⟨noPort, 0, []⟩
  | some s => ⟨s.port, s.timestamp, b.data packet⟩

/-- A place that packets are recorded in, which may refuse one. -/
abbrev SinkWrite (σ : Type) := Captured → σ → Except Fault σ

/-- Recorded packets in memory, up to a limit when there is one. -/
structure MemoryCapture where
  packets : Array Captured := #[]
  limit : Option Nat := none
deriving Repr, Inhabited

/-- One packet recorded, or passed over once the limit is reached. -/
def MemoryCapture.write : SinkWrite MemoryCapture := fun captured sink =>
  -- A packet beyond the limit is not a failure.
  let full := match sink.limit with
    | none => false
    | some limit => sink.packets.size ≥ limit
  .ok (if full then sink else { sink with packets := sink.packets.push captured })

namespace Tap

/-- An empty tap that holds a number of packets between drains. -/
def make (name : String) (capacity : Nat) : Except Fault Tap :=
  -- The ring decides which capacities are possible.
  match Ring.make name capacity with
  | .error fault => .error fault
  | .ok ring => .ok { ring }

/-- A reference to a packet kept when there is room, with whether it was. -/
def tap (t : Tap) (b : Buffers) (packet : Packet) : Bool × Tap × Buffers :=
  -- Without room, the new reference is given back at once.
  let b := b.addRef packet
  match t.ring.enqueue packet with
  | .ok ring => (true, { t with ring, tapped := t.tapped + 1 }, b)
  | .error ⟨packet⟩ => (false, { t with dropped := t.dropped + 1 }, b.release packet)

/-- Packets recorded one by one until the sink refuses one. -/
def recordAll (write : SinkWrite σ) (b : Buffers) : List Packet → σ → Option Fault × σ
  -- What was recorded before a refusal stays recorded.
  | [], sink => (none, sink)
  | packet :: rest, sink =>
    match write (b.capture packet) sink with
    | .error fault => (some fault, sink)
    | .ok sink => recordAll write b rest sink

/-- Held packets moved into a sink: how many, or why the sink refused one. -/
def drainInto (t : Tap) (b : Buffers) (write : SinkWrite σ) (sink : σ) (limit : Nat) :
    Except Fault Nat × Tap × Buffers × σ :=
  -- The tap's references are given back whether or not the sink took the packets.
  let taken := t.ring.dequeueBulk limit
  let t := { t with ring := taken.ring }
  let (refusal, sink) := recordAll write b taken.items sink
  let b := b.releaseAll taken.items
  match refusal with
  | some fault => (.error fault, t, b, sink)
  | none => (.ok taken.items.length, t, b, sink)

end Tap

end PacketPlane
