/-! A worker's counters: written by the worker, read by anyone, wrapping at 64 bits. -/

namespace PacketPlane

/-- Everything a worker counts. -/
structure Counters where
  rxPackets : UInt64 := 0
  txPackets : UInt64 := 0
  rxBytes : UInt64 := 0
  txBytes : UInt64 := 0
  dropped : UInt64 := 0
  txDropped : UInt64 := 0
  backpressureEvents : UInt64 := 0
  deviceErrors : UInt64 := 0
  alarms : UInt64 := 0
  captureDropped : UInt64 := 0
  idlePolls : UInt64 := 0
  busyCycles : UInt64 := 0
  totalCycles : UInt64 := 0
deriving DecidableEq, Repr, Inhabited

namespace Counters

/-- Packets pulled, with their bytes. -/
def recordRx (c : Counters) (packets bytes : UInt64) : Counters :=
  -- Both sums grow together.
  { c with rxPackets := c.rxPackets + packets, rxBytes := c.rxBytes + bytes }

/-- Packets handed to the output, with their bytes. -/
def recordTx (c : Counters) (packets bytes : UInt64) : Counters :=
  -- Both sums grow together.
  { c with txPackets := c.txPackets + packets, txBytes := c.txBytes + bytes }

/-- Packets the processor dropped. -/
def recordDrop (c : Counters) (packets : UInt64) : Counters :=
  -- Drops by the output are counted apart.
  { c with dropped := c.dropped + packets }

/-- Packets dropped because the output kept refusing them. -/
def recordTxDrop (c : Counters) (packets : UInt64) : Counters :=
  -- Drops by the processor are counted apart.
  { c with txDropped := c.txDropped + packets }

/-- The output refused part of a burst. -/
def recordBackpressure (c : Counters) : Counters :=
  -- The event counts once, however many packets it held up.
  { c with backpressureEvents := c.backpressureEvents + 1 }

/-- A cycle that saw a device error. -/
def recordDeviceError (c : Counters) : Counters :=
  -- The cycle counts once, however many devices failed.
  { c with deviceErrors := c.deviceErrors + 1 }

/-- An alarm about persistent device errors. -/
def recordAlarm (c : Counters) : Counters :=
  -- When a streak is long enough is for the worker to say.
  { c with alarms := c.alarms + 1 }

/-- A packet that the capture tap had no room for. -/
def recordCaptureDrop (c : Counters) : Counters :=
  -- The packet itself is forwarded all the same.
  { c with captureDropped := c.captureDropped + 1 }

/-- A poll that pulled nothing. -/
def recordIdle (c : Counters) : Counters :=
  -- Idle polls are not busy cycles.
  { c with idlePolls := c.idlePolls + 1 }

/-- Cycles spent on a poll, and cycles since the start. -/
def recordCycles (c : Counters) (busy total : UInt64) : Counters :=
  -- Busy cycles add up, and the total is simply read again.
  { c with busyCycles := c.busyCycles + busy, totalCycles := total }

/-- Two sets of counters added up one by one. -/
def merge (c other : Counters) : Counters := {
  rxPackets := c.rxPackets + other.rxPackets
  txPackets := c.txPackets + other.txPackets
  rxBytes := c.rxBytes + other.rxBytes
  txBytes := c.txBytes + other.txBytes
  dropped := c.dropped + other.dropped
  txDropped := c.txDropped + other.txDropped
  backpressureEvents := c.backpressureEvents + other.backpressureEvents
  deviceErrors := c.deviceErrors + other.deviceErrors
  alarms := c.alarms + other.alarms
  captureDropped := c.captureDropped + other.captureDropped
  idlePolls := c.idlePolls + other.idlePolls
  busyCycles := c.busyCycles + other.busyCycles
  totalCycles := c.totalCycles + other.totalCycles }

/-- All counters in their order. -/
def toList (c : Counters) : List UInt64 := [
  c.rxPackets, c.txPackets, c.rxBytes, c.txBytes, c.dropped, c.txDropped, c.backpressureEvents,
  c.deviceErrors, c.alarms, c.captureDropped, c.idlePolls, c.busyCycles, c.totalCycles]

/-- Counters from thirteen numbers in their order. -/
def ofList? : List UInt64 → Option Counters
  -- Any other length is not a set of counters.
  | [rxPackets, txPackets, rxBytes, txBytes, dropped, txDropped, backpressureEvents, deviceErrors,
      alarms, captureDropped, idlePolls, busyCycles, totalCycles] =>
    some { rxPackets, txPackets, rxBytes, txBytes, dropped, txDropped, backpressureEvents,
           deviceErrors, alarms, captureDropped, idlePolls, busyCycles, totalCycles }
  | _ => none

/-- The counters that do not depend on how often a worker polled. -/
def stable (c : Counters) : List UInt64 := [
  c.rxPackets, c.txPackets, c.rxBytes, c.txBytes, c.dropped, c.txDropped, c.captureDropped]

/-- The counters of several workers added up. -/
def total (all : List Counters) : Counters :=
  -- No worker at all counts nothing.
  all.foldl merge {}

/-- Gigabits moved per second over a time. -/
def throughputGbps (c : Counters) (seconds : Float) : Float :=
  -- No time at all has no rate.
  if seconds == 0.0 then 0.0
  else (c.rxBytes + c.txBytes).toFloat * 8.0 / (seconds * 1000000000.0)

/-- Million packets moved per second over a time. -/
def packetRateMpps (c : Counters) (seconds : Float) : Float :=
  -- No time at all has no rate.
  if seconds == 0.0 then 0.0
  else (c.rxPackets + c.txPackets).toFloat / (seconds * 1000000.0)

/-- The share of cycles spent moving packets. -/
def utilization (c : Counters) : Float :=
  -- No cycles at all is no share, and more than all is all.
  if c.totalCycles = 0 then 0.0
  else
    let share := c.busyCycles.toFloat / c.totalCycles.toFloat
    if share < 1.0 then share else 1.0

end Counters

end PacketPlane
