import PacketPlane.Buffer.Region
import PacketPlane.Buffer.Slot
import PacketPlane.Ring.Basic
import PacketPlane.Settings.Basic

/-! Buffer pools: slots over one region, and a ring of the slots that nobody holds. -/

namespace PacketPlane

/-- A pool of buffers. Slot number i keeps its bytes from place i times the stride on. -/
structure Pool where
  name : String
  region : Region
  slots : Array Slot
  free : Ring Nat
  stride : Nat
  dataRoom : Nat
  headroom : UInt16
  inUse : Nat := 0

/-- A reference to a slot outside any handle: its index, and the releases seen when it was made. -/
structure RawHandle where
  index : Nat
  generation : UInt32
deriving DecidableEq, Repr

namespace Pool

/-- A pool whose buffers live in a region from the given allocator, all of them free. -/
def make (name : String) (s : PoolSettings)
    (reserve : Nat → Option UInt32 → Except Fault Region) : Except Fault Pool :=
  -- The settings come first, then the region, then the ring of free slots.
  match s.fault? with
  | some fault => .error (.setting fault)
  | none =>
    let capacity := s.capacity.toNat
    let stride := alignUp s.dataRoom.toNat
    match reserve (capacity * stride) s.numaNode with
    | .error fault => .error fault
    | .ok region =>
      match Ring.make s!"{name}-free" capacity.nextPowerOfTwo with
      | .error fault => .error fault
      | .ok free =>
        match free.enqueueWhole (List.range capacity) with
        | .error fault => .error fault
        | .ok free =>
          let headroom := UInt16.ofNat s.headroom.toNat
          .ok {
            name, region, free, stride, headroom
            dataRoom := s.dataRoom.toNat
            slots := Array.replicate capacity { dataOff := headroom } }

/-- How many buffers there are. -/
def capacity (p : Pool) : Nat :=
  -- Slots are never added or removed.
  p.slots.size

/-- How many buffers nobody holds. -/
def available (p : Pool) : Nat :=
  -- They are the ones on the free ring.
  p.free.count

/-- One slot changed. -/
def modifySlot (p : Pool) (index : Nat) (change : Slot → Slot) : Pool :=
  -- The other slots stay as they are.
  { p with slots := p.slots.modify index change }

/-- A free slot handed out: one reference to an empty packet. -/
def claim (p : Pool) (index : Nat) : Pool :=
  -- What the buffer's bytes were is not touched.
  { p.modifySlot index (fun s => { s.cleared p.headroom with refcount := 1 }) with
    inUse := p.inUse + 1 }

/-- All of the slots handed out in turn. -/
def claimAll (p : Pool) (indices : List Nat) : Pool :=
  -- The order does not show in the slots themselves.
  indices.foldl claim p

/-- The longest-free buffer handed out. -/
def alloc (p : Pool) : Except Fault (Nat × Pool) :=
  -- An empty free ring means that every buffer is held.
  match p.free.dequeue with
  | none => .error .poolExhausted
  | some (index, free) => .ok (index, ({ p with free } : Pool).claim index)

/-- A number of buffers handed out, or none of them. -/
def allocBulk (p : Pool) (count : Nat) : Except Fault (List Nat × Pool) :=
  -- One reservation takes them all off the free ring.
  if count > p.capacity then .error .poolExhausted
  else match p.free.dequeueWhole count with
    | .error _ => .error .poolExhausted
    | .ok (indices, free) => .ok (indices, ({ p with free } : Pool).claimAll indices)

/-- One reference fewer, and whether it was the last. -/
def unref (p : Pool) (index : Nat) : Bool × Pool :=
  -- A count of one is about to become zero.
  ((p.slots[index]?.map Slot.refcount) == some 1,
    p.modifySlot index fun s => { s with refcount := s.refcount - 1 })

/-- A slot that lost its last reference: handles from before are stale from now on. -/
def retire (p : Pool) (index : Nat) : Pool :=
  -- The count of releases wraps at 32 bits.
  { p.modifySlot index (fun s => { s with generation := s.generation + 1 }) with
    inUse := p.inUse - 1 }

/-- A retired slot put back on the free ring. -/
def recycle (p : Pool) (index : Nat) : Pool :=
  -- The free ring has room for every slot.
  match p.free.enqueue index with
  | .ok free => { p with free }
  | .error _ => p

/-- One reference given back. -/
def release (p : Pool) (index : Nat) : Pool :=
  -- The last one frees the buffer.
  match p.unref index with
  | (true, p) => (p.retire index).recycle index
  | (false, p) => p

/-- One reference more. -/
def addRef (p : Pool) (index : Nat) : Pool :=
  -- The packet itself does not change.
  p.modifySlot index fun s => { s with refcount := s.refcount + 1 }

/-- Whether a raw handle may be redeemed, or why not. -/
def checkRaw (p : Pool) (raw : RawHandle) : Except Fault Unit :=
  -- A release since the handle was made shows before a missing reference does.
  match p.slots[raw.index]? with
  | none => .error (.invalidHandle raw.index .outOfRange)
  | some s =>
    if s.generation ≠ raw.generation then .error (.invalidHandle raw.index .stale)
    else if s.refcount = 0 then .error (.invalidHandle raw.index .doubleFree)
    else .ok ()

/-- The reference that a raw handle carries, given back. -/
def freeRaw (p : Pool) (raw : RawHandle) : Except Fault Pool :=
  -- A handle that may be redeemed is released like any other reference.
  match p.checkRaw raw with
  | .error fault => .error fault
  | .ok () => .ok (p.release raw.index)

/-- The place where a slot's bytes start. -/
def base (p : Pool) (index : Nat) : Nat :=
  -- Slots are a stride apart.
  index * p.stride

/-- Bytes of a slot's data room. -/
def bytes (p : Pool) (index start count : Nat) : List UInt8 :=
  -- Places inside a slot count from its base.
  p.region.read (p.base index + start) count

/-- Bytes stored in a slot's data room. -/
def writeBytes (p : Pool) (index start : Nat) (bytes : List UInt8) : Pool :=
  -- Places inside a slot count from its base.
  { p with region := p.region.write (p.base index + start) bytes }

/-- A slot changed, unless the change is refused. -/
def edit (p : Pool) (index : Nat) (change : Slot → Option (α × Slot)) : Option (α × Pool) :=
  -- A refusal leaves the pool as it was.
  match p.slots[index]? with
  | none => none
  | some s =>
    match change s with
    | none => none
    | some (result, s) => some (result, { p with slots := p.slots.setIfInBounds index s })

/-- A slot changed, with whether the change was accepted. -/
def editUnit (p : Pool) (index : Nat) (change : Slot → Option Slot) : Bool × Pool :=
  -- A refusal leaves the pool as it was.
  match p.edit index fun s => (change s).map fun s => ((), s) with
  | none => (false, p)
  | some (_, p) => (true, p)

/-- The packet replaced by the given bytes, with whether that was accepted. -/
def copy (p : Pool) (index : Nat) (bytes : List UInt8) : Bool × Pool :=
  -- The packet is emptied before the bytes are found to fit.
  match p.editUnit index (Slot.reset? p.headroom) with
  | (false, p) => (false, p)
  | (true, p) =>
    match p.edit index fun s => s.append? p.dataRoom bytes.length with
    | none => (false, p)
    | some (start, p) => (true, p.writeBytes index start bytes)

end Pool

end PacketPlane
