import PacketPlane.Counters.Basic

/-! Published metrics: named counters with a label, fed with what changed since the last report. -/

namespace PacketPlane

/-- A published counter: its name, its label, its total, and how often it was raised. -/
structure Metric where
  name : String
  label : String
  total : UInt64
  increments : Nat
deriving DecidableEq, Repr, Inhabited

/-- All published counters, in the order in which they first appeared. -/
structure Metrics where
  metrics : List Metric := []
deriving Repr, Inhabited

/-- A published counter raised, and made when there is none. -/
def raiseMetric (name label : String) (delta : UInt64) : List Metric → List Metric
  -- Name and label together tell counters apart.
  | [] => [⟨name, label, delta, 1⟩]
  | m :: rest =>
    if m.name = name ∧ m.label = label then
      { m with total := m.total + delta, increments := m.increments + 1 } :: rest
    else m :: raiseMetric name label delta rest

/-- A published counter raised. -/
def Metrics.raise (m : Metrics) (name label : String) (delta : UInt64) : Metrics :=
  -- A counter that did not change is not published.
  if delta = 0 then m else { m with metrics := raiseMetric name label delta m.metrics }

/-- All published counters by name, then by label. -/
def Metrics.sorted (m : Metrics) : List Metric :=
  -- The order of appearance does not show.
  m.metrics.mergeSort fun a b => a.name < b.name || (a.name == b.name && a.label ≤ b.label)

/-- The published names with what they count, by name. -/
def metricDescriptions : List (String × String) := [
  ("pktio_device_alarms", "Persistent device error alarms"),
  ("pktio_device_errors", "Worker cycles that observed a device error"),
  ("pktio_dropped", "Packets dropped by processors or backpressure"),
  ("pktio_rx_packets", "Packets pulled by workers"),
  ("pktio_tx_packets", "Packets handed to outputs")]

/-- Publishes a worker's counters under a label, remembering what it published last. -/
structure Reporter where
  label : String
  last : Counters := {}
deriving DecidableEq, Repr, Inhabited

/-- What changed since the last report, published. -/
def Reporter.report (r : Reporter) (now : Counters) (m : Metrics) : Reporter × Metrics :=
  -- Drops by processors and by outputs are published as one counter.
  let drops := fun (c : Counters) => c.dropped + c.txDropped
  let m := m.raise "pktio_rx_packets" r.label (now.rxPackets - r.last.rxPackets)
  let m := m.raise "pktio_tx_packets" r.label (now.txPackets - r.last.txPackets)
  let m := m.raise "pktio_dropped" r.label (drops now - drops r.last)
  let m := m.raise "pktio_device_errors" r.label (now.deviceErrors - r.last.deviceErrors)
  let m := m.raise "pktio_device_alarms" r.label (now.alarms - r.last.alarms)
  ({ r with last := now }, m)

end PacketPlane
