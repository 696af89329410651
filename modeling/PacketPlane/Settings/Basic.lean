import PacketPlane.Ring.Basic

/-! Settings of a data plane: their defaults, and what each section has to satisfy. -/

namespace PacketPlane

/-- Packets moved per burst unless a setting says otherwise. -/
def defaultBurst : UInt64 := 32

/-- How many buffers a pool has, how large they are, and where they should live. -/
structure PoolSettings where
  capacity : UInt64 := 8191
  dataRoom : UInt64 := 2048
  headroom : UInt64 := 128
  numaNode : Option UInt32 := none
deriving DecidableEq, Repr, Inhabited

/-- How many ports a device has, and how they are queued. -/
structure DeviceSettings where
  ports : UInt16 := 2
  rxQueues : UInt16 := 1
  txQueues : UInt16 := 1
  rxDescriptors : UInt64 := 512
  txDescriptors : UInt64 := 512
deriving DecidableEq, Repr, Inhabited

/-- What happens to packets that an output did not accept. -/
inductive Backpressure where
  | drop
  | retry (maxAttempts : UInt32)
deriving DecidableEq, Repr, Inhabited

/-- How a worker paces, retries, drains, alarms and reports. -/
structure WorkerSettings where
  burstSize : UInt64 := defaultBurst
  ratePps : Option UInt64 := none
  backpressure : Backpressure := .retry 4
  drainAttempts : UInt32 := 16
  alarmThreshold : UInt32 := 8
  statsIntervalMs : UInt64 := 1000
deriving DecidableEq, Repr, Inhabited

/-- Everything a data plane is built from. -/
structure Settings where
  pool : PoolSettings := {}
  ringCapacity : UInt64 := 16384
  device : DeviceSettings := {}
  worker : WorkerSettings := {}
  workers : UInt64 := 1
  pinCores : Bool := false
  dedicatedCores : Bool := false
deriving DecidableEq, Repr, Inhabited

/-- The first fault of a pool's settings. -/
def PoolSettings.fault? (s : PoolSettings) : Option SettingFault :=
  -- Slots are numbered in 32 bits, and places inside a buffer in 16.
  if s.capacity = 0 ∨ s.capacity.toNat > UInt32.size - 1 then
    some (.poolCapacity s.capacity.toNat)
  else if s.dataRoom = 0 ∨ s.dataRoom.toNat > UInt16.size - 1 then
    some (.dataRoom s.dataRoom.toNat)
  else if s.headroom ≥ s.dataRoom then some (.headroom s.headroom.toNat s.dataRoom.toNat)
  else none

/-- The first fault of a device's settings. -/
def DeviceSettings.fault? (s : DeviceSettings) : Option SettingFault :=
  -- Whether a descriptor count is also small enough is decided when its ring is made.
  if s.ports = 0 ∨ s.rxQueues = 0 ∨ s.txQueues = 0 then some .noPortOrQueue
  else if ¬ s.rxDescriptors.toNat.isPowerOfTwo then some (.rxDescriptors s.rxDescriptors.toNat)
  else if ¬ s.txDescriptors.toNat.isPowerOfTwo then some (.txDescriptors s.txDescriptors.toNat)
  else none

/-- The first fault of a worker's settings. -/
def WorkerSettings.fault? (s : WorkerSettings) : Option SettingFault :=
  -- An absent rate is unpaced, so only a rate of zero is refused.
  if s.burstSize = 0 then some .burstSize
  else if s.ratePps = some 0 then some .ratePps
  else if s.alarmThreshold = 0 then some .alarmThreshold
  else none

/-- The first fault of a whole set of settings. -/
def Settings.fault? (s : Settings) : Option SettingFault :=
  -- Sections come before the settings that span them.
  match s.pool.fault? with
  | some fault => some fault
  | none =>
    match s.device.fault? with
    | some fault => some fault
    | none =>
      match s.worker.fault? with
      | some fault => some fault
      | none =>
        if ¬ s.ringCapacity.toNat.isPowerOfTwo ∨ s.ringCapacity.toNat > maxRingCapacity then
          some (.ringCapacity s.ringCapacity.toNat maxRingCapacity)
        else if s.workers = 0 then some .workers
        else none

/-- The settings again when they have no fault. -/
def Settings.validate (s : Settings) : Except Fault Settings :=
  -- The first fault is the one reported.
  match s.fault? with
  | some fault => .error (.setting fault)
  | none => .ok s

end PacketPlane
