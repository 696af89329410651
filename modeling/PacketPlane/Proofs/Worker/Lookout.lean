import PacketPlane.Proofs.Worker.Course

/-! A worker's look for device errors: a turn looks once, after it has pushed out what waits, and
touches what it looks at nowhere else. -/

namespace PacketPlane

/-- How many errors a network port of a device has reported so far. -/
def Plane.errorCount (p : Plane) (number : Nat) (port : UInt16) : UInt64 :=
  -- A device that is not there has reported nothing.
  match p.device? number with
  | none => 0
  | some device => device.errorCount port

/-- The error counts lie in the devices alone. -/
theorem Plane.errorCount_congr {p q : Plane} (same : q.devices = p.devices) :
    q.errorCount = p.errorCount := by
  -- A count is read from a device, and a device from the array of them.
  funext number port
  rw [errorCount, errorCount, device?, device?, same]

/-- What a worker's look for device errors reads and writes, and how many devices there are. -/
structure Lookout where
  source : Option Nat
  ports : List UInt16
  threshold : UInt32
  watched : List (UInt16 × UInt64)
  streak : UInt32
  errors : UInt64
  alarms : UInt64
  devices : Nat

/-- What a worker's look for device errors on a plane reads and writes. -/
def Worker.lookout (w : Worker σ) (p : Plane) : Lookout where
  source := w.watch
  ports := watchedDevices w.input w.output
  threshold := w.settings.alarmThreshold
  watched := w.watched
  streak := w.errorStreak
  errors := w.counters.deviceErrors
  alarms := w.counters.alarms
  devices := p.devices.size

/-- Handing packets to an output takes no device away. -/
theorem Target.size_devices (target : Target) (p : Plane) (packets : List Packet) :
    (target.sender p packets).plane.devices.size = p.devices.size := by
  -- A port replaces its device by another in its place, and a ring has none.
  cases target with
  | port port =>
    simp only [sender, Plane.txBurst]
    split
    · rfl
    · exact Array.size_setIfInBounds
  | ring number =>
    simp only [sender, Plane.enqueueBulk]
    split <;> rfl

section Aspects

variable {α : Type} {aspect : Plane → α} {send : Sender}
  (keeps : ∀ p packets, aspect (send p packets).plane = aspect p)

include keeps

/-- An attempt to empty a backlog keeps what handing packets on keeps of a plane. -/
theorem Backlog.aspect_tryFlush (b : Backlog) (p : Plane) :
    aspect (b.tryFlush send p).2.2 = aspect p := by
  -- The sender is called at most once.
  rw [tryFlush]
  split
  · rfl
  · exact keeps p b.pending

/-- So does a packet put in a backlog. -/
theorem Backlog.aspect_buffer (b : Backlog) (packet : Packet) (p : Plane) :
    aspect (b.buffer packet send p).2.2 = aspect p := by
  -- A packet that does not fill the backlog is put there and no more.
  simp only [buffer]
  split
  · rfl
  · exact aspect_tryFlush keeps _ p

/-- Emptying a backlog keeps what handing packets on and giving them back keep of a plane. -/
theorem Backlog.aspect_flush (released : ∀ p packets, aspect (p.releaseAll packets) = aspect p)
    (b : Backlog) (p : Plane) : aspect (b.flush send p).2.2 = aspect p := by
  -- After the attempt there is at most a release of what waits.
  have tried := b.aspect_tryFlush keeps p
  simp only [flush]
  split
  · exact tried
  · split
    · exact (released _ _).trans tried
    · exact tried

end Aspects

namespace Worker

variable {σ : Type}

/-- Asking how many packets may be pulled looks for no errors. -/
theorem lookout_allowance (w : Worker σ) (now : UInt64) (p : Plane) :
    (w.allowance now).2.lookout p = w.lookout p := by
  -- Pacers are no part of the lookout.
  rw [allowance]
  split <;> rfl

/-- Pulling looks for no errors. -/
theorem lookout_pull (w : Worker σ) (p : Plane) (want : Nat) :
    w.lookout (w.pull p want).2 = w.lookout p := by
  -- How many devices there are is all that a lookout takes from the plane.
  have size : (w.pull p want).2.devices.size = p.devices.size := by
    rw [pull]
    split
    · rfl
    · split
      · rw [Plane.rxBurst]
        split
        · rfl
        · exact Array.size_setIfInBounds
      · simp only [Plane.dequeueBulk]
        split <;> rfl
  simp only [lookout, size]

/-- Counting what became of packets looks for no errors. -/
theorem lookout_recordOutcome (w : Worker σ) (outcome : Outcome) (p : Plane) :
    (w.recordOutcome outcome).lookout p = w.lookout p := by
  -- Counters are raised, and none is read by the lookout.
  simp only [recordOutcome, lookout]
  split_ifs <;> rfl

/-- Showing a packet to the tap looks for no errors. -/
theorem lookout_capturePacket (w : Worker σ) (packet : Packet) (p : Plane) :
    (w.capturePacket packet p).1.lookout (w.capturePacket packet p).2 = w.lookout p := by
  -- The tap and its counters are apart from the devices.
  rw [capturePacket]
  cases w.capture with
  | none => rfl
  | some tap =>
    have apart := congrArg Array.size (p.tapPacket_apart tap packet).2
    simp only
    split
    · rename_i shown
      simp only [shown] at apart
      simp only [lookout, apart]
    · rename_i shown
      simp only [shown] at apart
      simp only [lookout, apart, Counters.recordCaptureDrop]

/-- Putting a packet on its way looks for no errors. -/
theorem lookout_forward (w : Worker σ) (packet : Packet) (tally : Tally) (p : Plane) :
    (w.forward packet tally p).worker.lookout (w.forward packet tally p).plane = w.lookout p := by
  -- The tap comes first. Then the output may replace a device by another, which leaves their number.
  rw [← w.lookout_capturePacket packet p]
  simp only [forward]
  split
  · rename_i target output
    have size := @Backlog.aspect_buffer _ (·.devices.size) _ target.size_devices
    simp only [lookout, size]
  · rfl

/-- Processing packets looks for no errors. -/
theorem lookout_processAll (context : Context) (packets : List Packet) (work : Work σ) :
    (processAll context packets work).worker.lookout (processAll context packets work).plane =
      work.worker.lookout work.plane := by
  -- One packet follows the other.
  induction packets generalizing work with
  | nil => rfl
  | cons packet rest ih =>
    simp only [processAll]
    split
    · exact (ih _).trans (lookout_forward _ packet work.tally _)
    · exact ih _
    · rfl

/-- Processing a burst looks for no errors. -/
theorem lookout_processBurst (w : Worker σ) (now : UInt64) (packets : List Packet) (p : Plane) :
    (w.processBurst now packets p).worker.lookout (w.processBurst now packets p).plane =
      w.lookout p := by
  -- The packets come first, then the counts of what was sent.
  have processed := lookout_processAll (w.context p now) packets
    ⟨{ w with counters := w.counters.recordRx (UInt64.ofNat packets.length)
                (UInt64.ofNat (p.buffers.totalLen packets)) }, {}, p, false⟩
  simp only [processBurst]
  split
  · exact processed
  · simp only [lookout_recordOutcome]
    split <;> exact processed

/-- Pushing out what waits looks for no errors. -/
theorem lookout_push (w : Worker σ) (p : Plane) :
    (w.push p).1.lookout (w.push p).2 = w.lookout p := by
  -- A flush leaves as many devices as there were, and a release touches none.
  simp only [push]
  split
  · rename_i target output
    have size := @Backlog.aspect_flush _ (·.devices.size) _ target.size_devices fun _ _ => rfl
    rw [lookout_recordOutcome]
    simp only [lookout, size]
  · exact lookout_recordOutcome _ _ _

/-- Reporting looks for no errors, and leaves all devices as they are. -/
theorem lookout_reportAt (w : Worker σ) (p : Plane) (now : UInt64) :
    (w.reportAt p now).1.lookout (w.reportAt p now).2 = w.lookout p ∧
      (w.reportAt p now).2.devices = p.devices := by
  -- A report publishes counters, which the lookout does not read.
  rw [reportAt]
  split <;> exact ⟨rfl, rfl⟩

/-- A turn looks for no errors before its end, unless the processor dies. -/
theorem turn_finishes (w : Worker σ) (p : Plane) (alive : (w.turn p).crashed = false) :
    ∃ (w' : Worker σ) (began : UInt64) (pulled : Nat) (q : Plane),
      w'.lookout q = w.lookout p ∧ w.turn p = w'.finishTurn began pulled q := by
  -- Each stage of the turn is named by what it leaves, so that the next one starts from there.
  have asked := w.lookout_allowance (p.clock w.clock).now p
  simp only [turn] at alive ⊢
  generalize w.allowance (p.clock w.clock).now = wanted at asked alive ⊢
  obtain ⟨want, w'⟩ := wanted
  have pulled := (w'.lookout_pull p want).trans asked
  simp only at alive ⊢
  generalize w'.pull p want = found at pulled alive ⊢
  obtain ⟨packets, q⟩ := found
  simp only at alive ⊢
  split
  · -- Nothing was pulled, and so nothing is processed.
    refine ⟨_, _, _, _, ?_, rfl⟩
    exact pulled
  · rename_i some
    rw [if_neg some] at alive
    split at alive
    · rename_i dead
      rw [dead] at alive
      cases alive
    · rename_i living
      rw [if_neg living]
      refine ⟨_, _, _, _, ?_, rfl⟩
      exact (lookout_processBurst _ _ packets q).trans pulled

/-- A turn looks for errors once, after it has pushed out what waits. -/
theorem turn_looks (w : Worker σ) (p : Plane) (alive : (w.turn p).crashed = false) :
    let turn := w.turn p
    ∃ (w' : Worker σ) (q : Plane), w'.lookout q = w.lookout p ∧
      turn.worker.lookout turn.plane = (w'.checkDevices q).lookout q ∧
      turn.plane.devices = q.devices := by
  -- Whichever way the turn came to its end, it is the end that looks, between the push and the
  -- report.
  obtain ⟨w', began, pulled, q, same, finishes⟩ := w.turn_finishes p alive
  simp only [finishes, finishTurn]
  exact ⟨_, _, (w'.lookout_push q).trans same, lookout_reportAt _ _ _⟩

end Worker

end PacketPlane
