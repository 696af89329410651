import PacketPlane.Buffer.Store

/-! Ethernet frames: the two addresses at the front of a packet. -/

namespace PacketPlane

/-- Bytes of a link address. -/
def macLen : Nat := 6

/-- The destination and source address of a frame exchanged. -/
def exchangeMacs (frame : List UInt8) : List UInt8 :=
  -- Everything behind the two addresses stays.
  (frame.drop macLen).take macLen ++ frame.take macLen ++ frame.drop (2 * macLen)

/-- The two addresses of a packet exchanged, unless it is shared or too short to hold them. -/
def Buffers.swapMacs (b : Buffers) (packet : Packet) : Bool × Buffers :=
  -- The frame is written back over itself.
  match b.writable? packet with
  | none => (false, b)
  | some (start, len) =>
    if len < 2 * macLen then (false, b)
    else
      let addresses := b.bytes packet start (2 * macLen)
      (true, b.writeBytes packet start (exchangeMacs addresses))

end PacketPlane
