/-! Cycle clocks: a count of cycles at a known frequency. -/

namespace PacketPlane

/-- A clock: its count of cycles, how many make a second, and how many pass in one turn of all
running workers, which is none for a clock that is moved by hand. -/
structure Clock where
  now : UInt64 := 0
  hz : UInt64
  perTurn : UInt64 := 0
deriving DecidableEq, Repr, Inhabited

namespace Clock

/-- A clock that runs on its own, at one cycle to the nanosecond. -/
def calibrated : Clock :=
  -- A turn of the workers is taken to last a microsecond.
  { hz := 1000000000, perTurn := 1000 }

/-- A clock moved forward. -/
def advance (c : Clock) (cycles : UInt64) : Clock :=
  -- The count wraps at 64 bits.
  { c with now := c.now + cycles }

/-- The cycles in a span of nanoseconds. -/
def cyclesFor (c : Clock) (nanos : Nat) : UInt64 :=
  -- The product is taken in 128 bits, and the quotient in 64.
  UInt64.ofNat (nanos * c.hz.toNat % (1 <<< 128) / 1000000000)

/-- The nanoseconds in a span of milliseconds. -/
def nanosOfMillis (millis : Nat) : Nat :=
  -- A millisecond has a million of them.
  millis * 1000000

end Clock

end PacketPlane
