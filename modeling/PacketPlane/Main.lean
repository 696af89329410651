import PacketPlane.Forward.Startup

/-! The forwarding program: frames come in on port 0, have their addresses exchanged, and leave on
port 1. -/

namespace PacketPlane.Forward

/-- A failure of the platform as a fault of a file. -/
def platformFault : IO.Error → FileFault
  -- The platform's own words come with its number for the failure.
  | .noFileOrDirectory .. => .notFound
  | .permissionDenied _ code words | .inappropriateType _ code words
  | .invalidArgument _ code words | .resourceExhausted _ code words =>
    .stated s!"{words} (os error {code.toNat})"
  | other => .stated (toString other)

/-- A file's bytes, or why they cannot be read. -/
def readFile (path : String) : IO (Except FileFault ByteArray) := do
  -- A file is read once, as a whole.
  try
    return .ok (← IO.FS.readBinFile path)
  catch error => return .error (platformFault error)

/-- The wire and the workers run in turn until a time, in milliseconds, or without end. -/
partial def runUntil (p : Pipeline) (wire : WireCount) (deadline : Option Nat) :
    IO (Pipeline × WireCount) := do
  -- One round of the wire goes with one round of the workers.
  let now ← IO.monoMsNow
  match deadline with
  | some deadline => if now ≥ deadline then return (p, wire)
  | none => pure ()
  let (wire, plane) := wireRound p.ends.device p.fleet.plane wire
  let fleet := ({ p.fleet with plane } : Fleet Unit).round
  runUntil { p with fleet } wire deadline

end PacketPlane.Forward

/-- Reads the environment, forwards for as long as it says, and tells what came of it. -/
def main : IO UInt32 := do
  -- A failure goes to the error stream.
  let config ← IO.getEnv "PKTIO_CONFIG"
  let bytes ← match config with
    | some path => PacketPlane.Forward.readFile path
    | none => pure (.error .notFound)
  let environment : PacketPlane.Forward.Environment := {
    config, duration := ← IO.getEnv "PKTIO_DURATION_SECS"
    metricsAddress := ← IO.getEnv "PKTIO_METRICS_ADDR", file := fun _ => bytes }
  match PacketPlane.Forward.start environment with
  | .error failure =>
    IO.eprint failure.render
    return 1
  | .ok started =>
    let begun ← IO.monoMsNow
    let deadline := started.seconds.map fun seconds => begun + seconds * 1000
    let (pipeline, wire) ← PacketPlane.Forward.runUntil started.pipeline {} deadline
    let elapsed := ((← IO.monoMsNow) - begun).toFloat / 1000.0
    for entry in PacketPlane.Forward.summary pipeline wire elapsed do
      IO.println (PacketPlane.Forward.summaryLine entry)
    return 0
