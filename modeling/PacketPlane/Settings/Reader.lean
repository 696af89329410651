import PacketPlane.Json.Reader
import PacketPlane.Settings.Basic

/-! Reading settings: a section is a table of its fields, or a list of them in their order. -/

namespace PacketPlane

open Json (Value Text)

/-- A field of a section: its key, and how a value changes the section. -/
structure Field (α : Type) where
  key : String
  set : Value → α → Option α

/-- A number below a bound. -/
def natBelow? (bound : Nat) (value : Value) : Option Nat :=
  -- Signs, fractions and exponents are refused by the plain reading.
  match value.nat? with
  | some n => if n < bound then some n else none
  | none => none

/-- A number of 16 bits. -/
def uint16? (value : Value) : Option UInt16 :=
  -- The bound makes the conversion exact.
  (natBelow? UInt16.size value).map UInt16.ofNat

/-- A number of 32 bits. -/
def uint32? (value : Value) : Option UInt32 :=
  -- The bound makes the conversion exact.
  (natBelow? UInt32.size value).map UInt32.ofNat

/-- A number of 64 bits. -/
def uint64? (value : Value) : Option UInt64 :=
  -- The bound makes the conversion exact.
  (natBelow? UInt64.size value).map UInt64.ofNat

/-- A truth value. -/
def bool? : Value → Option Bool
  -- Neither numbers nor texts stand for truth values.
  | .bool value => some value
  | _ => none

/-- A value that may be left open with a null. -/
def nullable? (reading : Value → Option α) : Value → Option (Option α)
  -- Anything else has to be readable.
  | .null => some none
  | value => (reading value).map some

/-- A field that replaces one part of a section. -/
def Field.of (key : String) (reading : Value → Option β) (put : β → α → α) : Field α :=
  -- A value that cannot be read refuses the whole section.
  ⟨key, fun value target => (reading value).map fun part => put part target⟩

/-- The section that a table of entries makes of another one. -/
def setEntries (fields : List (Field α)) (seen : List String) :
    List (Text × Value) → α → Option α
  -- A known key may come once, an unknown one is passed over, and every key has to be a text.
  | [], target => some target
  | (none, _) :: _, _ => none
  | (some key, value) :: rest, target =>
    match fields.find? fun field => field.key == key with
    | none => setEntries fields seen rest target
    | some field =>
      if seen.contains key then none
      else match field.set value target with
        | some target => setEntries fields (key :: seen) rest target
        | none => none

/-- The section that a list of values makes of another one. -/
def setItems : List (Field α) → List Value → α → Option α
  -- Fields without a value stay as they are, and values without a field are refused.
  | _, [], target => some target
  | [], _ :: _, _ => none
  | field :: fields, value :: rest, target =>
    match field.set value target with
    | some target => setItems fields rest target
    | none => none

/-- The section that a value makes of another one. -/
def setSection (fields : List (Field α)) (target : α) : Value → Option α
  -- A section is written in one of two ways.
  | .table entries => setEntries fields [] entries target
  | .list items => setItems fields items target
  | _ => none

/-- The fields of a pool's settings. -/
def PoolSettings.fields : List (Field PoolSettings) := [
  .of "capacity" uint64? fun n s => { s with capacity := n },
  .of "data_room" uint64? fun n s => { s with dataRoom := n },
  .of "headroom" uint64? fun n s => { s with headroom := n },
  .of "numa_node" (nullable? uint32?) fun n s => { s with numaNode := n }]

/-- The fields of a device's settings. -/
def DeviceSettings.fields : List (Field DeviceSettings) := [
  .of "ports" uint16? fun n s => { s with ports := n },
  .of "rx_queues" uint16? fun n s => { s with rxQueues := n },
  .of "tx_queues" uint16? fun n s => { s with txQueues := n },
  .of "rx_desc" uint64? fun n s => { s with rxDescriptors := n },
  .of "tx_desc" uint64? fun n s => { s with txDescriptors := n }]

/-- The one field of a retrying policy, which has no default. -/
def Backpressure.fields : List (Field (Option UInt32)) := [
  .of "max_attempts" uint32? fun n _ => some n]

/-- A backpressure policy: its bare name, or a table of its name alone. -/
def backpressure? : Value → Option Backpressure
  -- Only the retrying policy carries something.
  | .text (some "drop") => some .drop
  | .table [(some "drop", .null)] => some .drop
  | .table [(some "retry", value)] =>
    match setSection Backpressure.fields none value with
    | some (some attempts) => some (.retry attempts)
    | _ => none
  | _ => none

/-- The fields of a worker's settings. -/
def WorkerSettings.fields : List (Field WorkerSettings) := [
  .of "burst_size" uint64? fun n s => { s with burstSize := n },
  .of "rate_pps" (nullable? uint64?) fun n s => { s with ratePps := n },
  .of "backpressure" backpressure? fun p s => { s with backpressure := p },
  .of "drain_attempts" uint32? fun n s => { s with drainAttempts := n },
  .of "alarm_threshold" uint32? fun n s => { s with alarmThreshold := n },
  .of "stats_interval_ms" uint64? fun n s => { s with statsIntervalMs := n }]

/-- A pool's settings, each absent field at its default. -/
def PoolSettings.ofJson? : Value → Option PoolSettings :=
  -- The defaults are changed field by field.
  setSection PoolSettings.fields {}

/-- A device's settings, each absent field at its default. -/
def DeviceSettings.ofJson? : Value → Option DeviceSettings :=
  -- The defaults are changed field by field.
  setSection DeviceSettings.fields {}

/-- A worker's settings, each absent field at its default. -/
def WorkerSettings.ofJson? : Value → Option WorkerSettings :=
  -- The defaults are changed field by field.
  setSection WorkerSettings.fields {}

/-- The fields of a whole set of settings. -/
def Settings.fields : List (Field Settings) := [
  .of "pool" PoolSettings.ofJson? fun p s => { s with pool := p },
  .of "ring_capacity" uint64? fun n s => { s with ringCapacity := n },
  .of "device" DeviceSettings.ofJson? fun d s => { s with device := d },
  .of "worker" WorkerSettings.ofJson? fun w s => { s with worker := w },
  .of "workers" uint64? fun n s => { s with workers := n },
  .of "pin_cores" bool? fun b s => { s with pinCores := b },
  .of "dedicated_cores" bool? fun b s => { s with dedicatedCores := b }]

/-- A whole set of settings, each absent section and field at its default. -/
def Settings.ofJson? : Value → Option Settings :=
  -- The defaults are changed field by field.
  setSection Settings.fields {}

/-- The settings that a text writes, whether or not they can be used. -/
def Settings.parse (text : String) : Except Fault Settings :=
  -- A text that is not JSON and one of the wrong shape are refused alike.
  match Json.read? text with
  | none => .error .malformed
  | some value =>
    match Settings.ofJson? value with
    | none => .error .malformed
    | some settings => .ok settings

/-- The usable settings that a text writes. -/
def Settings.load (text : String) : Except Fault Settings :=
  -- The shape is judged before the values.
  match Settings.parse text with
  | .error fault => .error fault
  | .ok settings => settings.validate

/-- The usable settings that the bytes of a file write. -/
def Settings.loadBytes (bytes : ByteArray) : Except Fault Settings :=
  -- Bytes that are no text at all are a fault of the file.
  match String.fromUTF8? bytes with
  | none => .error (.file .notText)
  | some text => Settings.load text

end PacketPlane
