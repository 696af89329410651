import PacketPlane.Forward.Startup
import PacketPlane.Ring.Lemmas
import PacketPlane.Settings.Writer
import PacketPlane.Workbench.Buffers
import PacketPlane.Workbench.Measures
import PacketPlane.Workbench.Rings
import PacketPlane.Workbench.Workers
import PacketPlane.Main
import PacketPlane.Proofs.Buffer.Balance
import PacketPlane.Proofs.Buffer.Trade
import PacketPlane.Proofs.Buffer.Edit
import PacketPlane.Proofs.Buffer.Ledger
import PacketPlane.Proofs.Buffer.Conservation
import PacketPlane.Proofs.Ring.Refinement
import PacketPlane.Proofs.Buffer.Exchange
import PacketPlane.Proofs.Plane.Moves
import PacketPlane.Proofs.Worker.Flow
import PacketPlane.Proofs.Transmit.Delivery
import PacketPlane.Proofs.Worker.Custody
import PacketPlane.Proofs.Worker.Turn
import PacketPlane.Proofs.Worker.Drain
import PacketPlane.Proofs.Worker.Accounting
import PacketPlane.Proofs.Cores.Claims
import PacketPlane.Proofs.Plane.Holders
import PacketPlane.Proofs.Worker.Lifecycles
import PacketPlane.Proofs.Fleet.Progress
import PacketPlane.Proofs.Fleet.History
import PacketPlane.Proofs.Fleet.Soundness
import PacketPlane.Proofs.Fleet.Building
import PacketPlane.Proofs.Fleet.Roster
import PacketPlane.Proofs.Fleet.Reachable
import PacketPlane.Proofs.Fleet.Stopping
import PacketPlane.Proofs.Fleet.Rounds
import PacketPlane.Proofs.Fleet.Shutdown
import PacketPlane.Proofs.Buffer.Faces
import PacketPlane.Proofs.Buffer.Isolation
import PacketPlane.Proofs.Capture.Fidelity
import PacketPlane.Proofs.Worker.Strokes
import PacketPlane.Proofs.Buffer.Treatment
import PacketPlane.Proofs.Worker.Course
import PacketPlane.Proofs.Worker.Timing
import PacketPlane.Proofs.Buffer.Frames
import PacketPlane.Proofs.Plane.Wire
import PacketPlane.Proofs.Worker.Conveyor
import PacketPlane.Proofs.Forward.Wired
import PacketPlane.Proofs.Forward.Order
import PacketPlane.Proofs.Json.Words
import PacketPlane.Proofs.Settings.RoundTrip
import PacketPlane.Proofs.Forward.Construction
import PacketPlane.Proofs.Buffer.Generations
import PacketPlane.Proofs.Buffer.RawHandles
import PacketPlane.Proofs.Device.Waiting
import PacketPlane.Proofs.Device.Traffic
import PacketPlane.Proofs.Device.Accounting
import PacketPlane.Proofs.Device.Failures
import PacketPlane.Proofs.Time.Bucket
import PacketPlane.Proofs.Time.Rate
import PacketPlane.Proofs.Time.Due
import PacketPlane.Proofs.Transmit.Fates
import PacketPlane.Proofs.Cores.Placement
import PacketPlane.Proofs.Transmit.Retries
import PacketPlane.Proofs.Device.Budgets
import PacketPlane.Proofs.Capture.Losses
import PacketPlane.Proofs.Worker.Fates
import PacketPlane.Proofs.Worker.Amid
import PacketPlane.Proofs.Worker.Draining
import PacketPlane.Proofs.Buffer.Rooms
import PacketPlane.Proofs.Buffer.Window
import PacketPlane.Proofs.Buffer.Windowed
import PacketPlane.Proofs.Buffer.Refusals
import PacketPlane.Proofs.Ring.Bulk
import PacketPlane.Proofs.Buffer.Bulk
import PacketPlane.Proofs.Worker.Lookout
import PacketPlane.Proofs.Worker.Alarms
import PacketPlane.Proofs.Device.Ownership
import PacketPlane.Proofs.Worker.Stations
import PacketPlane.Proofs.Worker.Bounds
import PacketPlane.Proofs.Json.Grammar
import PacketPlane.Proofs.Settings.Sections
import PacketPlane.Proofs.Settings.Overlay
import PacketPlane.Proofs.Buffer.Keeping
import PacketPlane.Proofs.Plane.Room
import PacketPlane.Proofs.Worker.Views
import PacketPlane.Proofs.Worker.Scripts
import PacketPlane.Proofs.Worker.Guises
import PacketPlane.Proofs.Worker.Twins
import PacketPlane.Proofs.Worker.Schedule
import PacketPlane.Proofs.Worker.Reports
