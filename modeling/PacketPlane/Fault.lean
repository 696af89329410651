/-! Faults: every way an operation can be refused, and the words it is reported in. -/

namespace PacketPlane

/-- What a device reports as the cause of its most recent error. -/
inductive DeviceCode where
  | noSuchDevice
  | noSuchQueue
  | queueInUse
  | noBuffer
  | linkDown
  | txTimeout
  | driver (code : Int32)
deriving DecidableEq, Repr, Inhabited

/-- The words for a device code. -/
def DeviceCode.message : DeviceCode → String
  | .noSuchDevice => "no such device"
  | .noSuchQueue => "no such queue"
  | .queueInUse => "queue in use"
  | .noBuffer => "no mbuf"
  | .linkDown => "link down"
  | .txTimeout => "tx timeout"
  | .driver code => s!"driver error {code.toInt}"

/-- Why a buffer handle is not acceptable. -/
inductive HandleFault where
  | foreign
  | outOfRange
  | stale
  | doubleFree
  | stated (reason : String)
deriving DecidableEq, Repr, Inhabited

/-- The words for a handle fault. -/
def HandleFault.message : HandleFault → String
  | .foreign => "buffer belongs to another pool"
  | .outOfRange => "index out of range"
  | .stale => "stale handle"
  | .doubleFree => "double free"
  | .stated reason => reason

/-- Why a setting, or something built from settings, is refused. -/
inductive SettingFault where
  | poolCapacity (capacity : Nat)
  | dataRoom (room : Nat)
  | headroom (front room : Nat)
  | noPortOrQueue
  | rxDescriptors (count : Nat)
  | txDescriptors (count : Nat)
  | burstSize
  | ratePps
  | alarmThreshold
  | ringCapacity (capacity limit : Nat)
  | workers
  | ringNotPowerOfTwo (ring : String) (capacity : Nat)
  | ringTooLarge (ring : String) (capacity limit : Nat)
  | emptyRegion
  | regionTooLarge
  | noInput (worker : Nat)
  | loopbackWithoutPort (worker : Nat)
  | stated (reason : String)
deriving DecidableEq, Repr, Inhabited

/-- The words for a setting fault. -/
def SettingFault.message : SettingFault → String
  | .poolCapacity capacity => s!"pool capacity {capacity} out of range"
  | .dataRoom room => s!"data_room {room} out of range"
  | .headroom front room => s!"headroom {front} does not fit in data_room {room}"
  | .noPortOrQueue => "device needs at least one port and queue"
  | .rxDescriptors count => s!"rx_desc {count} is not a power of two"
  | .txDescriptors count => s!"tx_desc {count} is not a power of two"
  | .burstSize => "burst_size must be at least 1"
  | .ratePps => "rate_pps must be positive when set"
  | .alarmThreshold => "alarm_threshold must be at least 1"
  | .ringCapacity capacity limit =>
    s!"ring_capacity {capacity} must be a power of two up to {limit}"
  | .workers => "workers must be at least 1"
  | .ringNotPowerOfTwo ring capacity => s!"ring {ring} capacity {capacity} is not a power of two"
  | .ringTooLarge ring capacity limit => s!"ring {ring} capacity {capacity} exceeds {limit}"
  | .emptyRegion => "cannot reserve an empty region"
  | .regionTooLarge =>
    "bad region layout: invalid parameters to Layout::from_size_align"
  | .noInput worker => s!"worker {worker} has no input"
  | .loopbackWithoutPort worker => s!"worker {worker}: loopback needs a port input"
  | .stated reason => reason

/-- Why a file could not be read or written. -/
inductive FileFault where
  | notFound
  | notText
  | stated (reason : String)
deriving DecidableEq, Repr, Inhabited

/-- The words for a file fault. -/
def FileFault.message : FileFault → String
  | .notFound => "No such file or directory (os error 2)"
  | .notText => "stream did not contain valid UTF-8"
  | .stated reason => reason

/-- Every way an operation of the data plane can be refused. -/
inductive Fault where
  | poolExhausted
  | full
  | empty
  | invalidHandle (index : Nat) (reason : HandleFault)
  | device (id : UInt16) (code : DeviceCode)
  | coreOutOfRange (core : Nat)
  | coreBusy (core : Nat)
  | noCores
  | setting (cause : SettingFault)
  | file (cause : FileFault)
  | malformed
deriving DecidableEq, Repr, Inhabited

/-- The words for a fault. -/
def Fault.message : Fault → String
  | .poolExhausted => "buffer pool exhausted"
  | .full => "ring full"
  | .empty => "empty"
  | .invalidHandle index reason => s!"invalid buffer handle {index}: {reason.message}"
  | .device id code => s!"device {id.toNat} error: {code.message}"
  | .coreOutOfRange core => s!"core {core} out of range"
  | .coreBusy core => s!"core {core} busy"
  | .noCores => "no cores available"
  | .setting cause => s!"config error: {cause.message}"
  | .file cause => s!"IO error: {cause.message}"
  | .malformed => "JSON error"

/-- Whether the caller is expected to back off, drop or retry and carry on. -/
def Fault.recoverable : Fault → Bool
  | .poolExhausted | .full | .empty | .device .. => true
  | _ => false

/-- The fault that lies under a file fault in a report of causes. -/
def Fault.under : Fault → Option String
  | .file cause => some cause.message
  | _ => none

end PacketPlane
