/-! Buffer slots: who holds a buffer, and which window of its data room is the packet. -/

namespace PacketPlane

/-- The port of a packet that no device received. -/
def noPort : UInt16 := 0xffff

/-- The state of one buffer: references, releases so far, the packet's window, and its origin. -/
structure Slot where
  refcount : UInt32 := 0
  generation : UInt32 := 0
  dataOff : UInt16
  dataLen : UInt16 := 0
  port : UInt16 := noPort
  timestamp : UInt64 := 0
deriving DecidableEq, Repr, Inhabited

namespace Slot

/-- The slot again when exactly one reference holds it, as every change requires. -/
def exclusive? (s : Slot) : Option Slot :=
  -- A shared buffer is frozen.
  if s.refcount = 1 then some s else none

/-- Bytes in front of the packet. -/
def headroom (s : Slot) : Nat :=
  -- The window starts right after them.
  s.dataOff.toNat

/-- Bytes of the packet. -/
def len (s : Slot) : Nat :=
  -- The window is as long as the packet.
  s.dataLen.toNat

/-- Bytes behind the packet in a data room. -/
def tailroom (room : Nat) (s : Slot) : Nat :=
  -- The three parts make up the room.
  room - s.headroom - s.len

/-- The window grown at its front, with the place where the new bytes start. -/
def prepend? (s : Slot) (count : Nat) : Option (Nat × Slot) :=
  -- The new bytes come out of the headroom.
  match s.exclusive? with
  | none => none
  | some s =>
    if count ≥ UInt16.size then none
    else if s.dataOff < UInt16.ofNat count then none
    else
      let off := s.dataOff - UInt16.ofNat count
      some (off.toNat, { s with dataOff := off, dataLen := s.dataLen + UInt16.ofNat count })

/-- The window grown at its back, with the place where the new bytes start. -/
def append? (room : Nat) (s : Slot) (count : Nat) : Option (Nat × Slot) :=
  -- The room is looked at before the references.
  if s.tailroom room < count then none
  else match s.exclusive? with
    | none => none
    | some s =>
      some (s.headroom + s.len, { s with dataLen := s.dataLen + UInt16.ofNat count })

/-- The window shrunk at its front, with the place where the removed bytes start. -/
def pull? (s : Slot) (count : Nat) : Option (Nat × Slot) :=
  -- The removed bytes become headroom.
  match s.exclusive? with
  | none => none
  | some s =>
    if count ≥ UInt16.size then none
    else if s.dataLen < UInt16.ofNat count then none
    else some (s.headroom,
      { s with dataOff := s.dataOff + UInt16.ofNat count,
               dataLen := s.dataLen - UInt16.ofNat count })

/-- The window shrunk at its back. -/
def trim? (s : Slot) (count : Nat) : Option Slot :=
  -- The removed bytes become tailroom.
  match s.exclusive? with
  | none => none
  | some s => if s.len ≥ count then some { s with dataLen := s.dataLen - UInt16.ofNat count } else none

/-- An empty packet behind the given headroom, from no port and at no time. -/
def cleared (headroom : UInt16) (s : Slot) : Slot :=
  -- References and releases are not touched.
  { s with dataOff := headroom, dataLen := 0, port := noPort, timestamp := 0 }

/-- The packet emptied. -/
def reset? (headroom : UInt16) (s : Slot) : Option Slot :=
  -- Emptying is a change like any other.
  (s.exclusive?).map (cleared headroom)

/-- The input port replaced. -/
def setPort? (port : UInt16) (s : Slot) : Option Slot :=
  -- Naming the port is a change like any other.
  (s.exclusive?).map fun s => { s with port }

/-- The receive time replaced. -/
def setTimestamp? (timestamp : UInt64) (s : Slot) : Option Slot :=
  -- Stamping is a change like any other.
  (s.exclusive?).map fun s => { s with timestamp }

end Slot

end PacketPlane
