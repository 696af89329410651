import PacketPlane.Buffer.Pool

/-! The buffers of a whole data plane: its pools, and packets as references into them. -/

namespace PacketPlane

/-- One reference to a buffer: its pool and its slot there. -/
structure Packet where
  pool : Nat
  index : Nat
deriving DecidableEq, Repr, Inhabited

/-- All pools, by number. -/
structure Buffers where
  pools : Array Pool := #[]

namespace Buffers

/-- A pool added under the next number. -/
def addPool (b : Buffers) (pool : Pool) : Nat × Buffers :=
  -- Numbers are never used again.
  (b.pools.size, { b with pools := b.pools.push pool })

/-- One pool changed. -/
def modifyPool (b : Buffers) (pool : Nat) (change : Pool → Pool) : Buffers :=
  -- The other pools stay as they are.
  { b with pools := b.pools.modify pool change }

/-- One pool changed, unless the change is refused. -/
def tryPool (b : Buffers) (pool : Nat) (change : Pool → Except Fault (α × Pool)) :
    Except Fault (α × Buffers) :=
  -- A refusal leaves every pool as it was, and a pool that does not exist is empty.
  match b.pools[pool]? with
  | none => .error .poolExhausted
  | some p =>
    match change p with
    | .error fault => .error fault
    | .ok (result, p) => .ok (result, { b with pools := b.pools.setIfInBounds pool p })

/-- The slot that a packet refers to. -/
def slot? (b : Buffers) (packet : Packet) : Option Slot :=
  -- Packets handed out by this store always have one.
  match b.pools[packet.pool]? with
  | none => none
  | some p => p.slots[packet.index]?

/-- How many references hold a packet's buffer. -/
def refcount (b : Buffers) (packet : Packet) : Nat :=
  -- Nothing holds a slot that does not exist.
  match b.slot? packet with
  | none => 0
  | some s => s.refcount.toNat

/-- The length of a packet. -/
def len (b : Buffers) (packet : Packet) : Nat :=
  -- A slot that does not exist has no packet.
  match b.slot? packet with
  | none => 0
  | some s => s.len

/-- The lengths of packets added up. -/
def totalLen (b : Buffers) (packets : List Packet) : Nat :=
  -- A packet that comes twice counts twice.
  packets.foldl (fun total packet => total + b.len packet) 0

/-- The bytes of a packet. -/
def data (b : Buffers) (packet : Packet) : List UInt8 :=
  -- They are the window of its slot.
  match b.pools[packet.pool]? with
  | none => []
  | some p =>
    match p.slots[packet.index]? with
    | none => []
    | some s => p.bytes packet.index s.headroom s.len

/-- The data room of a packet's buffer. -/
def dataRoom (b : Buffers) (packet : Packet) : Nat :=
  -- All buffers of a pool have the same.
  match b.pools[packet.pool]? with
  | none => 0
  | some p => p.dataRoom

/-- A packet's slot changed, unless the change is refused. -/
def edit (b : Buffers) (packet : Packet) (change : Pool → Slot → Option (α × Slot)) :
    Option (α × Buffers) :=
  -- A refusal leaves every pool as it was.
  match b.pools[packet.pool]? with
  | none => none
  | some p =>
    match p.edit packet.index (change p) with
    | none => none
    | some (result, p) => some (result, { b with pools := b.pools.setIfInBounds packet.pool p })

/-- Bytes of a packet's data room. -/
def bytes (b : Buffers) (packet : Packet) (start count : Nat) : List UInt8 :=
  -- Places count from the start of the data room.
  match b.pools[packet.pool]? with
  | none => []
  | some p => p.bytes packet.index start count

/-- Bytes stored in a packet's data room. -/
def writeBytes (b : Buffers) (packet : Packet) (start : Nat) (bytes : List UInt8) : Buffers :=
  -- Places count from the start of the data room.
  b.modifyPool packet.pool fun p => p.writeBytes packet.index start bytes

/-- The packet grown at its front, with the place where the new bytes start. -/
def prepend? (b : Buffers) (packet : Packet) (count : Nat) : Option (Nat × Buffers) :=
  -- The bytes keep what the room held.
  b.edit packet fun _ s => s.prepend? count

/-- The packet grown at its back, with the place where the new bytes start. -/
def append? (b : Buffers) (packet : Packet) (count : Nat) : Option (Nat × Buffers) :=
  -- The bytes keep what the room held.
  b.edit packet fun p s => s.append? p.dataRoom count

/-- The packet shrunk at its front, with the place where the removed bytes start. -/
def pull? (b : Buffers) (packet : Packet) (count : Nat) : Option (Nat × Buffers) :=
  -- The bytes keep what the room held.
  b.edit packet fun _ s => s.pull? count

/-- The place and the length of a packet that may be written over. -/
def writable? (b : Buffers) (packet : Packet) : Option (Nat × Nat) :=
  -- A shared packet may only be read.
  match b.slot? packet with
  | none => none
  | some s => (s.exclusive?).map fun s => (s.headroom, s.len)

/-- A packet's slot changed, with whether the change was accepted. -/
def editUnit (b : Buffers) (packet : Packet) (change : Pool → Slot → Option Slot) :
    Bool × Buffers :=
  -- A refusal leaves every pool as it was.
  match b.edit packet fun p s => (change p s).map fun s => ((), s) with
  | none => (false, b)
  | some (_, b) => (true, b)

/-- The packet shrunk at its back. -/
def trim (b : Buffers) (packet : Packet) (count : Nat) : Bool × Buffers :=
  -- The bytes stay in the room.
  b.editUnit packet fun _ s => s.trim? count

/-- The packet emptied. -/
def reset (b : Buffers) (packet : Packet) : Bool × Buffers :=
  -- The window goes back to the pool's headroom.
  b.editUnit packet fun p s => s.reset? p.headroom

/-- The packet's input port replaced. -/
def setPort (b : Buffers) (packet : Packet) (port : UInt16) : Bool × Buffers :=
  -- The window stays.
  b.editUnit packet fun _ s => s.setPort? port

/-- The packet's receive time replaced. -/
def setTimestamp (b : Buffers) (packet : Packet) (timestamp : UInt64) : Bool × Buffers :=
  -- The window stays.
  b.editUnit packet fun _ s => s.setTimestamp? timestamp

/-- The packet replaced by the given bytes, with whether that was accepted. -/
def copy (b : Buffers) (packet : Packet) (bytes : List UInt8) : Bool × Buffers :=
  -- The pool knows the headroom to go back to.
  match b.pools[packet.pool]? with
  | none => (false, b)
  | some p =>
    match p.copy packet.index bytes with
    | (accepted, p) => (accepted, { b with pools := b.pools.setIfInBounds packet.pool p })

/-- One more reference to a packet's buffer. -/
def addRef (b : Buffers) (packet : Packet) : Buffers :=
  -- The new reference is the same packet again.
  b.modifyPool packet.pool fun p => p.addRef packet.index

/-- One reference to a packet's buffer given back. -/
def release (b : Buffers) (packet : Packet) : Buffers :=
  -- The buffer returns to the pool it came from.
  b.modifyPool packet.pool fun p => p.release packet.index

/-- References given back, front first. -/
def releaseAll (b : Buffers) (packets : List Packet) : Buffers :=
  -- The order is the order on the free ring.
  packets.foldl release b

/-- A packet from a pool. -/
def alloc (b : Buffers) (pool : Nat) : Except Fault (Packet × Buffers) :=
  -- The packet starts empty, with one reference.
  match b.tryPool pool Pool.alloc with
  | .error fault => .error fault
  | .ok (index, b) => .ok (⟨pool, index⟩, b)

/-- A number of packets from a pool, or none of them. -/
def allocBulk (b : Buffers) (pool count : Nat) : Except Fault (List Packet × Buffers) :=
  -- Each packet starts empty, with one reference.
  match b.tryPool pool (Pool.allocBulk · count) with
  | .error fault => .error fault
  | .ok (indices, b) => .ok (indices.map fun index => ⟨pool, index⟩, b)

/-- A reference given back through a pool, which refuses in words what is not its own. -/
def free (b : Buffers) (pool : Nat) (packet : Packet) : Except Fault Unit × Buffers :=
  -- A foreign packet still returns to its own pool.
  let verdict := if packet.pool = pool then .ok ()
    else .error (.invalidHandle packet.index .foreign)
  (verdict, b.release packet)

/-- References given back one by one, with the freed slots of one pool held back, newest first,
and the first foreign index. -/
def freeEach (pool : Nat) (recycled : List Nat) (foreign : Option Nat) (b : Buffers) :
    List Packet → List Nat × Option Nat × Buffers
  -- A foreign packet is released to its own pool at once.
  | [] => (recycled.reverse, foreign, b)
  | packet :: rest =>
    if packet.pool ≠ pool then
      freeEach pool recycled (foreign <|> some packet.index) (b.release packet) rest
    else
      match b.pools[pool]? with
      | none => freeEach pool recycled foreign b rest
      | some p =>
        match p.unref packet.index with
        | (true, p) =>
          let p := p.retire packet.index
          freeEach pool (packet.index :: recycled) foreign
            { b with pools := b.pools.setIfInBounds pool p } rest
        | (false, p) =>
          freeEach pool recycled foreign { b with pools := b.pools.setIfInBounds pool p } rest

/-- References given back through a pool, whose free ring gets its slots in one insertion. -/
def freeBulk (b : Buffers) (pool : Nat) (packets : List Packet) : Except Fault Unit × Buffers :=
  -- The first foreign packet is the one reported.
  match freeEach pool [] none b packets with
  | (recycled, foreign, b) =>
    let b := b.modifyPool pool fun p =>
      match p.free.enqueueWhole recycled with
      | .ok free => { p with free }
      | .error _ => p
    match foreign with
    | some index => (.error (.invalidHandle index .foreign), b)
    | none => (.ok (), b)

/-- The raw handle of a packet, which carries the packet's reference from now on. -/
def toRaw (b : Buffers) (packet : Packet) : RawHandle :=
  -- The releases seen so far tell later whether the handle is stale.
  match b.slot? packet with
  | none => ⟨packet.index, 0⟩
  | some s => ⟨packet.index, s.generation⟩

/-- The packet that a raw handle carries. -/
def ofRaw (b : Buffers) (pool : Nat) (raw : RawHandle) : Except Fault Packet :=
  -- The reference moves, so nothing is counted.
  match b.pools[pool]? with
  | none => .error (.invalidHandle raw.index .outOfRange)
  | some p =>
    match p.checkRaw raw with
    | .error fault => .error fault
    | .ok () => .ok ⟨pool, raw.index⟩

/-- The reference that a raw handle carries, given back. -/
def freeRaw (b : Buffers) (pool : Nat) (raw : RawHandle) : Except Fault Buffers :=
  -- A refusal leaves every pool as it was.
  match b.tryPool pool fun p => (p.freeRaw raw).map fun p => ((), p) with
  | .error fault => .error fault
  | .ok (_, b) => .ok b

end Buffers

end PacketPlane
