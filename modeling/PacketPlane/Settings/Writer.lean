import PacketPlane.Json.Printer
import PacketPlane.Settings.Basic

/-! Writing settings: every field under its key, in the order of declaration. -/

namespace PacketPlane

open Json (Value)

/-- A value that may be absent, written as a null when it is. -/
def optionalJson : Option Nat → Value
  -- Present ones are plain numbers.
  | none => .null
  | some n => .nat n

/-- A backpressure policy as a value. -/
def Backpressure.toJson : Backpressure → Value
  -- A policy that carries nothing is written by its name.
  | .drop => .str "drop"
  | .retry attempts =>
    .record [("retry", .record [("max_attempts", .nat attempts.toNat)])]

/-- A pool's settings as a value. -/
def PoolSettings.toJson (s : PoolSettings) : Value :=
  -- The order is the order of the fields.
  .record [
    ("capacity", .nat s.capacity.toNat),
    ("data_room", .nat s.dataRoom.toNat),
    ("headroom", .nat s.headroom.toNat),
    ("numa_node", optionalJson (s.numaNode.map UInt32.toNat))]

/-- A device's settings as a value. -/
def DeviceSettings.toJson (s : DeviceSettings) : Value :=
  -- The order is the order of the fields.
  .record [
    ("ports", .nat s.ports.toNat),
    ("rx_queues", .nat s.rxQueues.toNat),
    ("tx_queues", .nat s.txQueues.toNat),
    ("rx_desc", .nat s.rxDescriptors.toNat),
    ("tx_desc", .nat s.txDescriptors.toNat)]

/-- A worker's settings as a value. -/
def WorkerSettings.toJson (s : WorkerSettings) : Value :=
  -- The order is the order of the fields.
  .record [
    ("burst_size", .nat s.burstSize.toNat),
    ("rate_pps", optionalJson (s.ratePps.map UInt64.toNat)),
    ("backpressure", s.backpressure.toJson),
    ("drain_attempts", .nat s.drainAttempts.toNat),
    ("alarm_threshold", .nat s.alarmThreshold.toNat),
    ("stats_interval_ms", .nat s.statsIntervalMs.toNat)]

/-- A whole set of settings as a value. -/
def Settings.toJson (s : Settings) : Value :=
  -- The order is the order of the fields.
  .record [
    ("pool", s.pool.toJson),
    ("ring_capacity", .nat s.ringCapacity.toNat),
    ("device", s.device.toJson),
    ("worker", s.worker.toJson),
    ("workers", .nat s.workers.toNat),
    ("pin_cores", .bool s.pinCores),
    ("dedicated_cores", .bool s.dedicatedCores)]

/-- The text that a set of settings is saved as. -/
def Settings.save (s : Settings) : String :=
  -- Written for people, without a line break at the end.
  s.toJson.pretty

end PacketPlane
