import PacketPlane.Text.Shown
import PacketPlane.Workbench.Basic

/-! Steps on named pools and on the packets of named lists. -/

namespace PacketPlane

/-- A pool in words. -/
def Pool.shown (p : Pool) : String :=
  -- The counts are those of this moment.
  Shown.record "BufferPool" [("name", Shown.quoted p.name), ("capacity", toString p.capacity),
    ("available", toString p.available), ("in_use", toString p.inUse)]

/-- A packet in words. -/
def Buffers.shown (b : Buffers) (packet : Packet) : String :=
  -- Contents are not shown.
  Shown.record "Mbuf" [("index", toString packet.index), ("len", toString (b.len packet)),
    ("refcount", toString (b.refcount packet))]

/-- Everything that can be read off a packet. -/
structure PacketView where
  index : Nat
  refcount : Nat
  headroom : Nat
  tailroom : Nat
  room : Nat
  captured : Captured

/-- Everything that can be read off a packet. -/
def Buffers.view (b : Buffers) (packet : Packet) : PacketView :=
  -- Nothing is changed by looking.
  let room := b.dataRoom packet
  let slot := (b.slot? packet).getD { dataOff := 0 }
  { index := packet.index, refcount := b.refcount packet, headroom := slot.headroom
    tailroom := slot.tailroom room, room, captured := b.capture packet }

namespace Bench

/-- A pool made and named. -/
def makePool (name label : String) (s : PoolSettings)
    (reserve : Nat → Option UInt32 → Except Fault Region) : Bench Pool := do
  -- The name changes only when the pool could be made.
  let pool ← accept (Pool.make label s reserve)
  let (number, buffers) := (← buffers).addPool pool
  setBuffers buffers
  modify fun w => { w with pools := w.pools.insert name number }
  return pool

/-- A second name for a pool. -/
def clonePool (name second : String) : Bench Unit := do
  -- Both names stand for the same buffers.
  let number ← find (·.pools) name
  modify fun w => { w with pools := w.pools.insert second number }

/-- The name of a pool forgotten. -/
def dropPool (name : String) : Bench Unit :=
  -- Its packets keep the pool itself.
  modify fun w => { w with pools := w.pools.erase name }

/-- A pool as it is. -/
def pool (name : String) : Bench Pool := do
  -- Named pools always exist.
  match (← buffers).pools[← find (·.pools) name]? with
  | some pool => pure pool
  | none => throw (.unknown name)

/-- A number of packets allocated at once onto a list. -/
def allocBulk (name into : String) (count : Nat) : Bench (List Nat) := do
  -- Either all of them or none.
  let (packets, buffers) ← accept ((← buffers).allocBulk (← find (·.pools) name) count)
  setBuffers buffers
  appendTo into packets
  return packets.map (·.index)

/-- One packet allocated onto a list. -/
def alloc (name into : String) : Bench Nat := do
  -- It is the buffer that has been free for longest.
  let (packet, buffers) ← accept ((← buffers).alloc (← find (·.pools) name))
  setBuffers buffers
  appendTo into [packet]
  return packet.index

/-- A packet of a list freed through a pool. -/
def free (name source : String) (position : Nat) : Bench Unit := do
  -- It is gone even when the pool refuses it in words.
  let number ← find (·.pools) name
  let packet ← takeAt source position
  let (verdict, buffers) := (← buffers).free number packet
  setBuffers buffers
  accept verdict

/-- The first packets of a list freed through a pool at once. -/
def freeBulk (name source : String) (count : Option Nat) : Bench Nat := do
  -- They are gone even when the pool refuses some in words.
  let number ← find (·.pools) name
  let packets ← list source
  let count := min (count.getD packets.length) packets.length
  setList source (packets.drop count)
  let (verdict, buffers) := (← buffers).freeBulk number (packets.take count)
  setBuffers buffers
  accept verdict
  return count

/-- A raw handle redeemed onto a list, with the references to its buffer. -/
def fromRaw (name into : String) (raw : RawHandle) : Bench (Nat × Nat) := do
  -- The reference moves from the handle to the list.
  let buffers ← buffers
  let packet ← accept (buffers.ofRaw (← find (·.pools) name) raw)
  appendTo into [packet]
  return (packet.index, buffers.refcount packet)

/-- The reference of a raw handle given back. -/
def freeRaw (name : String) (raw : RawHandle) : Bench Unit := do
  -- A refusal changes nothing.
  setBuffers (← accept ((← buffers).freeRaw (← find (·.pools) name) raw))

/-- Whether a packet of a list came from a pool. -/
def owns (name source : String) (position : Nat) : Bench Bool := do
  -- The pool is known by its number.
  return (← packetAt source position).pool == (← find (·.pools) name)

/-- A packet of a list with the buffers it lives in. -/
def look (name : String) (position : Nat) (reading : Buffers → Packet → α) : Bench α := do
  -- Nothing is changed by looking.
  return reading (← buffers) (← packetAt name position)

/-- A packet of a list changed, with whether that was accepted. -/
def change (name : String) (position : Nat) (edit : Buffers → Packet → Bool × Buffers) :
    Bench Bool := do
  -- A refused change may still have emptied the packet.
  let (accepted, buffers) := edit (← buffers) (← packetAt name position)
  setBuffers buffers
  return accepted

/-- A packet's window grown by a number of bytes: what the room held there, before the given bytes
are written over its front. -/
def grow (name : String) (position count : Nat) (bytes : List UInt8)
    (edit : Buffers → Packet → Nat → Option (Nat × Buffers)) : Bench (Option (List UInt8)) := do
  -- Nothing is written when the window cannot grow.
  let packet ← packetAt name position
  match edit (← buffers) packet count with
  | none => return none
  | some (start, buffers) =>
    setBuffers (buffers.writeBytes packet start (bytes.take count))
    return some (buffers.bytes packet start count)

/-- The front of a packet written over, with what the packet was before. -/
def overwrite (name : String) (position : Nat) (bytes : List UInt8) :
    Bench (Option (List UInt8)) := do
  -- A shared packet may not be written.
  let packet ← packetAt name position
  let buffers ← buffers
  match buffers.writable? packet with
  | none => return none
  | some (start, len) =>
    setBuffers (buffers.writeBytes packet start (bytes.take len))
    return some (buffers.bytes packet start len)

/-- Bytes pulled off the front of a packet. -/
def pull (name : String) (position count : Nat) : Bench (Option (List UInt8)) := do
  -- They are still in the room afterwards.
  let packet ← packetAt name position
  match (← buffers).pull? packet count with
  | none => return none
  | some (start, buffers) =>
    setBuffers buffers
    return some (buffers.bytes packet start count)

/-- A processor applied to a packet of a list outside of any worker, with its verdict. -/
def applyTo (name : String) (position : Nat) (process : Processor Unit) : Bench Verdict := do
  -- The packet stays on its list whatever the verdict is.
  let plane ← plane
  let decision := process default (← packetAt name position) () plane.toSurroundings
  setPlane { plane with toSurroundings := decision.surroundings }
  return decision.verdict

/-- A second reference to a packet put on a list. -/
def cloneRef (name : String) (position : Nat) (into : String) : Bench (Nat × Nat) := do
  -- The buffer is shared from now on.
  let packet ← packetAt name position
  let buffers := (← buffers).addRef packet
  setBuffers buffers
  appendTo into [packet]
  return (packet.index, buffers.refcount packet)

/-- A packet of a list turned into a named raw handle. -/
def intoRaw (name : String) (position : Nat) (raw : String) : Bench RawHandle := do
  -- The handle carries the reference.
  let packet ← takeAt name position
  let handle := (← buffers).toRaw packet
  modify fun w => { w with raws := w.raws.insert raw handle }
  return handle

/-- A packet of a list given back. -/
def dropAt (name : String) (position : Nat) : Bench Unit := do
  -- Only its reference goes.
  let packet ← takeAt name position
  setBuffers ((← buffers).release packet)

/-- A packet of a list moved to the end of another. -/
def moveAt (name : String) (position : Nat) (into : String) : Bench Unit := do
  -- Its reference moves along.
  let packet ← takeAt name position
  appendTo into [packet]

/-- All packets of a list given back, front first. -/
def dropList (name : String) : Bench Unit := do
  -- The list is empty afterwards.
  let packets ← list name
  setList name []
  setBuffers ((← buffers).releaseAll packets)

end Bench

end PacketPlane
