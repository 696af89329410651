import Std.Data.HashMap
import PacketPlane.Fault

/-! Memory regions: zeroed bytes at consecutive places, kept only where something was written. -/

namespace PacketPlane

/-- Bytes of a cache line, to which regions and buffers are aligned. -/
def cacheLine : Nat := 64

/-- A size rounded up to whole cache lines. -/
def alignUp (size : Nat) : Nat :=
  -- The last line may be partly used.
  (size + cacheLine - 1) / cacheLine * cacheLine

/-- A reserved region. A byte that was never written is zero. -/
structure Region where
  size : Nat
  node : Option UInt32
  bytes : Std.HashMap Nat UInt8 := ∅

namespace Region

/-- How many bytes of memory a program can address. -/
def addressSpace : Nat := 1 <<< 47

/-- A region of a size, preferably on a memory node. -/
def reserve (size : Nat) (node : Option UInt32) : Except Fault Region :=
  -- The rounded size has to be countable with a sign before memory is looked for.
  if size = 0 then .error (.setting .emptyRegion)
  else if alignUp size ≥ 1 <<< 63 then .error (.setting .regionTooLarge)
  else if size ≥ addressSpace then .error .poolExhausted
  else .ok { size, node }

/-- The byte at a place. -/
def byte (r : Region) (place : Nat) : UInt8 :=
  -- Fresh memory is zeroed.
  r.bytes.getD place 0

/-- A number of bytes from a place on. -/
def read (r : Region) (place count : Nat) : List UInt8 :=
  -- They lie side by side.
  (List.range count).map fun i => r.byte (place + i)

/-- Bytes stored from a place on. -/
def write (r : Region) (place : Nat) : List UInt8 → Region
  -- Each byte replaces what its place held.
  | [] => r
  | byte :: rest => ({ r with bytes := r.bytes.insert place byte } : Region).write (place + 1) rest

end Region

end PacketPlane
