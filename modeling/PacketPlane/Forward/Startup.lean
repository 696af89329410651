import PacketPlane.Forward.Pipeline
import PacketPlane.Settings.Reader
import PacketPlane.Text.Fixed
import PacketPlane.Text.Numeral
import PacketPlane.Text.SocketAddress

/-! Starting and ending the forwarding program: what it reads, how it fails, what it tells. -/

namespace PacketPlane.Forward

/-- How many cores workers are placed on, since the platform is not asked. -/
def usualCores : Nat := 8

/-- What the program is given: three variables, files by their paths, and a number of cores. -/
structure Environment where
  config : Option String := none
  duration : Option String := none
  metricsAddress : Option String := none
  file : String → Except FileFault ByteArray
  cores : Nat := usualCores

/-- Why the program ended: the outermost reason, and what caused it in turn. -/
structure Failure where
  top : String
  causes : List String := []
deriving DecidableEq, Repr, Inhabited

/-- Lines with numbers in front of them. -/
def numbered (number : Nat) : List String → List String
  -- Counting starts wherever the caller is.
  | [] => []
  | line :: rest => s!"    {number}: {line}\n" :: numbered (number + 1) rest

/-- A failure as it is printed. -/
def Failure.render (f : Failure) : String :=
  -- A single cause is not numbered.
  let causes := match f.causes with
    | [] => ""
    | [cause] => s!"\nCaused by:\n    {cause}\n"
    | causes => "\nCaused by:\n" ++ String.join (numbered 0 causes)
  s!"Error: {f.top}\n" ++ causes

/-- A fault as a failure of its own. -/
def Failure.ofFault (fault : Fault) : Failure :=
  -- What lies under it is a cause.
  ⟨fault.message, fault.under.toList⟩

/-- A fault as a failure of what was being done. -/
def Failure.during (doing : String) (fault : Fault) : Failure :=
  -- The fault and what lies under it are causes.
  ⟨doing, fault.message :: fault.under.toList⟩

/-- A stage's fault as a failure. -/
def Failure.ofStage (f : StageFault) : Failure :=
  -- What was being done is told when it is known.
  match f.doing with
  | none => .ofFault f.fault
  | some doing => .during doing f.fault

/-- The settings that the program runs with. -/
def settingsOf (e : Environment) : Except Failure Settings :=
  -- Without a file, the defaults are used.
  match e.config with
  | none => .ok {}
  | some path =>
    let loaded : Except Fault Settings := match e.file path with
      | .error cause => .error (.file cause)
      | .ok bytes => Settings.loadBytes bytes
    match loaded with
    | .error fault => .error (.during s!"loading {path}" fault)
    | .ok settings => .ok settings

/-- The settings again when the program can forward with them. -/
def checkSettings (s : Settings) : Except Failure Settings :=
  -- Frames come in on one port and go out on another.
  match s.validate with
  | .error fault => .error (.ofFault fault)
  | .ok s =>
    if s.device.ports < 2 then
      .error ⟨s!"forwarding needs two ports, config has {s.device.ports.toNat}", []⟩
    else .ok s

/-- Whether the address for metrics can be used, if there is one. -/
def checkAddress (e : Environment) : Except Failure Unit :=
  -- No address is fine.
  match e.metricsAddress with
  | none => .ok ()
  | some address =>
    if SocketAddress.isValid address then .ok ()
    else .error ⟨s!"bad metrics address {address}", ["invalid socket address syntax"]⟩

/-- How many seconds the program runs for, without end when absent. -/
def durationOf (e : Environment) : Except Failure (Option Nat) :=
  -- Whole seconds only.
  match e.duration with
  | none => .ok none
  | some text =>
    match readNumeral UInt64.size text with
    | .error fault => .error ⟨"PKTIO_DURATION_SECS", [fault.message]⟩
    | .ok seconds => .ok (some seconds)

/-- A started program: its pipeline and how long it runs. -/
structure Started where
  pipeline : Pipeline
  seconds : Option Nat

/-- The program started from its environment. -/
def start (e : Environment) : Except Failure Started := do
  -- Everything that is read comes before anything is made.
  let s ← settingsOf e
  let s ← checkSettings s
  checkAddress e
  let seconds ← durationOf e
  let ends ← (makeEnds s Region.reserve).mapError Failure.ofFault
  let pipeline ← (startAll s e.cores ends).mapError Failure.ofStage
  return { pipeline, seconds }

/-- What the program tells at its end, as labels and values. -/
def summary (p : Pipeline) (wire : WireCount) (seconds : Float) : List (String × String) :=
  -- The workers are stopped first.
  let (finals, engine, fleet) := p.engine.stop p.fleet stopRounds
  let total := engine.total fleet
  [("workers", toString finals.length),
    ("injected", toString wire.injected),
    ("transmitted", toString wire.transmitted),
    ("rx packets", toString total.rxPackets.toNat),
    ("tx packets", toString total.txPackets.toNat),
    ("dropped", toString (total.dropped + total.txDropped).toNat),
    ("device errors", toString total.deviceErrors.toNat),
    ("alarms", toString total.alarms.toNat),
    ("rate", Fixed.render (total.packetRateMpps seconds) ++ " Mpps"),
    ("throughput", Fixed.render (total.throughputGbps seconds) ++ " Gbps")]

/-- A line of the summary, with its values in one column. -/
def summaryLine (entry : String × String) : String :=
  -- The column starts after the longest label.
  let label := entry.1 ++ ":"
  label ++ "".pushn ' ' (15 - label.length) ++ entry.2

end PacketPlane.Forward
