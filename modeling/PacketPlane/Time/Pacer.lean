/-! Rate pacing: a bucket that earns one token per packet time and holds at most one burst. -/

namespace PacketPlane

/-- A bucket of tokens, each worth one packet, and the time up to which tokens were earned. -/
structure Pacer where
  cyclesPerPacket : UInt64
  maxTokens : UInt64
  tokens : UInt64
  last : UInt64
deriving DecidableEq, Repr, Inhabited

namespace Pacer

/-- A full bucket for a rate on a clock of a frequency. -/
def make (rate hz : UInt64) (burst : Nat) (now : UInt64) : Pacer :=
  -- A packet time is at least one cycle, and a burst at least one packet.
  let maxTokens := UInt64.ofNat (max burst 1)
  { cyclesPerPacket := max (hz / max rate 1) 1, maxTokens, tokens := maxTokens, last := now }

/-- Cycles since tokens were last earned. -/
def elapsed (p : Pacer) (now : UInt64) : UInt64 :=
  -- A clock that seems to go back earns nothing.
  if now ≥ p.last then now - p.last else 0

/-- Tokens earned up to a time. -/
def earn (p : Pacer) (now : UInt64) : Pacer :=
  -- Only whole packet times are paid out, and the rest of the time is kept.
  let earned := p.elapsed now / p.cyclesPerPacket
  if earned > 0 then
    { p with tokens := min (p.tokens + earned) p.maxTokens,
             last := p.last + earned * p.cyclesPerPacket }
  else p

/-- A full bucket does not keep time. -/
def settle (p : Pacer) (now : UInt64) : Pacer :=
  -- Idle time is not saved up beyond one burst.
  if p.tokens = p.maxTokens then { p with last := max p.last now } else p

/-- How many packets may be pulled at a time, at most as many as wanted. -/
def allowance (p : Pacer) (now : UInt64) (want : Nat) : Nat × Pacer :=
  -- Tokens are earned first and spent only when packets have been pulled.
  let p := (p.earn now).settle now
  (min want p.tokens.toNat, p)

/-- Tokens spent on pulled packets. -/
def consume (p : Pacer) (packets : Nat) : Pacer :=
  -- The bucket never goes below empty.
  { p with tokens := UInt64.ofNat (p.tokens.toNat - packets) }

end Pacer

end PacketPlane
