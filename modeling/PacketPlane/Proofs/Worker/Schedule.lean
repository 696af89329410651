import PacketPlane.Proofs.Worker.Lookout
import PacketPlane.Proofs.Worker.Stations

/-! Schedules: a worker reports at the end of a turn at which a report is due, and none of its small
steps touches its reports otherwise. -/

namespace PacketPlane

/-- What decides when a worker reports, and what its reports have come to. -/
structure Schedule where
  clock : Nat
  interval : UInt64
  due : UInt64
  reporter : Reporter
  published : Metrics

/-- A schedule after a report of what was counted, if there is one. -/
def Schedule.after (s : Schedule) (counted : Counters) : Option UInt64 → Schedule
  -- The next report is due one interval later, in 64 bits.
  | none => s
  | some now =>
    let (reporter, published) := s.reporter.report counted s.published
    { s with due := now + s.interval, reporter, published }

/-- Handing packets to an output publishes nothing. -/
theorem Target.metrics_sender (target : Target) (p : Plane) (packets : List Packet) :
    (target.sender p packets).plane.metrics = p.metrics := by
  -- Neither a port nor a ring knows of metrics.
  cases target with
  | port port =>
    simp only [sender, Plane.txBurst]
    split <;> rfl
  | ring number =>
    simp only [sender, Plane.enqueueBulk]
    split <;> rfl

namespace Worker

variable {σ : Type}

/-- What decides when a worker on a plane reports, and what its reports have come to. -/
def schedule (w : Worker σ) (p : Plane) : Schedule where
  clock := w.clock
  interval := w.statsInterval
  due := w.nextReport
  reporter := w.reporter
  published := p.metrics

/-- A schedule depends on the worker's own part of it and on what was published. -/
theorem schedule_congr (w : Worker σ) {p q : Plane} (same : q.metrics = p.metrics) :
    w.schedule q = w.schedule p := by
  -- All else of the schedule is the worker's own.
  simp only [schedule, same]

/-- Asking how many packets may be pulled reports nothing. -/
theorem schedule_allowance (w : Worker σ) (now : UInt64) (p : Plane) :
    (w.allowance now).2.schedule p = w.schedule p := by
  -- Pacers are no part of the schedule.
  rw [allowance]
  split <;> rfl

/-- Pulling reports nothing. -/
theorem schedule_pull (w : Worker σ) (p : Plane) (want : Nat) :
    w.schedule (w.pull p want).2 = w.schedule p := by
  -- The worker stays as it is, so only what is published matters.
  apply schedule_congr
  rw [pull]
  split
  · rfl
  · split
    · rw [Plane.rxBurst]
      split <;> rfl
    · simp only [Plane.dequeueBulk]
      split <;> rfl

/-- Counting what came of packets reports nothing. -/
theorem schedule_recordTally (w : Worker σ) (tally : Tally) (p : Plane) :
    (w.recordTally tally).schedule p = w.schedule p := by
  -- Counters become part of the schedule when they are reported, not before.
  rw [recordTally_eq]
  rfl

/-- Showing a packet to the tap reports nothing. -/
theorem schedule_capturePacket (w : Worker σ) (packet : Packet) (p : Plane) :
    (w.capturePacket packet p).1.schedule (w.capturePacket packet p).2 = w.schedule p := by
  -- Neither a tap nor its count of drops is part of the schedule.
  rw [capturePacket]
  cases w.capture with
  | none => rfl
  | some tap =>
    have published : (p.tapPacket tap packet).2.metrics = p.metrics := by
      rw [Plane.tapPacket]
      split <;> rfl
    simp only
    split
    · rename_i shown
      rw [shown] at published
      exact w.schedule_congr published
    · rename_i shown
      rw [shown] at published
      exact w.schedule_congr published

/-- Pushing out what waits reports nothing. -/
theorem schedule_push (w : Worker σ) (p : Plane) :
    (w.push p).1.schedule (w.push p).2 = w.schedule p := by
  -- Neither the output nor a release publishes anything.
  simp only [push]
  split
  · rename_i target output
    exact w.schedule_congr
      (w.backlog.aspect_flush target.metrics_sender (fun _ _ => rfl) p)
  · rfl

/-- An attempt to push out what waits reports nothing. -/
theorem schedule_attempt (w : Worker σ) (p : Plane) :
    (w.attempt p).1.schedule (w.attempt p).2 = w.schedule p := by
  -- The output publishes nothing.
  simp only [attempt]
  split
  · rename_i target output
    exact w.schedule_congr (w.backlog.aspect_tryFlush target.metrics_sender p)
  · rfl

/-- A look for device errors reports nothing. -/
theorem schedule_checkDevices (w : Worker σ) (p q : Plane) :
    (w.checkDevices p).schedule q = w.schedule q := by
  -- Streaks and alarms are no part of the schedule.
  rw [checkDevices]
  split
  · rfl
  · split <;> rfl

/-- A report that is due publishes what was counted, and the next one is due an interval later. -/
theorem schedule_reportAt (w : Worker σ) (p : Plane) (now : UInt64) :
    (w.reportAt p now).1.schedule (w.reportAt p now).2 =
      (w.schedule p).after (w.reportAt p now).1.counters
        ((some now).filter fun now => w.nextReport ≤ now) := by
  -- Both sides ask the same question, whether the time has come.
  rw [reportAt, Option.filter_some]
  by_cases due : w.nextReport ≤ now
  · rw [if_pos due, if_pos (decide_eq_true due)]
    rfl
  · rw [if_neg due, if_neg (by rw [decide_eq_true_iff]; exact due)]
    rfl

end Worker

namespace Station

variable {σ : Type}

/-- What the clock of the worker reads. -/
def now (s : Station σ) : UInt64 :=
  (s.plane.clock s.worker.clock).now

/-- The reading with which a turn ends, when the next small step ends one. -/
def turnEnd? (s : Station σ) : Option UInt64 :=
  match s.point with
  | .closing _ _ => some s.now
  | _ => none

/-- The reading at which the next small step reports, when it does. -/
def reportTime? (s : Station σ) : Option UInt64 :=
  -- A report is made at the end of the turn in which it has come due.
  s.turnEnd?.filter fun now => s.worker.nextReport ≤ now

/-- What decides when the worker reports, and what its reports have come to. -/
def schedule (s : Station σ) : Schedule :=
  s.worker.schedule s.plane

/-- Beginning a turn reports nothing. -/
theorem schedule_pull (s : Station σ) : s.pull.schedule = s.schedule := by
  -- The turn begins with the allowance and a pull, whatever comes of them.
  have asked := s.worker.schedule_allowance s.now s.plane
  have pulled := (s.worker.allowance s.now).2.schedule_pull s.plane (s.worker.allowance s.now).1
  simp only [Station.pull]
  split <;> exact pulled.trans asked

/-- Processing a packet reports nothing, whatever the processor does. -/
theorem schedule_process (s : Station σ) (context : Context) (errand : Errand) (packet : Packet)
    (rest : List Packet) : (s.process context errand packet rest).schedule = s.schedule := by
  -- The processor owns its memory and the surroundings, and published metrics are in neither.
  simp only [process]
  cases (s.worker.process context packet s.worker.memory s.plane.toSurroundings).verdict with
  | forward =>
    simp only [pass]
    split
    · exact Worker.schedule_capturePacket _ packet _
    · exact Worker.schedule_capturePacket _ packet _
  | drop => rfl
  | crash => rfl

/-- Sending what waits reports nothing. -/
theorem schedule_send (s : Station σ) (context : Context) (errand : Errand) :
    (s.send context errand).schedule = s.schedule := by
  -- With no output there is nothing to be sent.
  simp only [send]
  split
  · rfl
  · rename_i target output
    exact s.worker.schedule_congr
      (s.worker.backlog.aspect_tryFlush target.metrics_sender s.plane)

/-- Taking a batch of a drain reports nothing. -/
theorem schedule_batch (s : Station σ) (left : Nat) : (s.batch left).schedule = s.schedule := by
  -- A batch takes packets out of a ring, where it has one.
  have published : ∀ number limit,
      (s.plane.dequeueBulk number limit).2.2.metrics = s.plane.metrics := by
    intro number limit
    rw [Plane.dequeueBulk]
    split <;> rfl
  simp only [batch]
  split
  · rfl
  · split
    · rfl
    · split <;> exact s.worker.schedule_congr (published _ _)

/-- An attempt of a flush, or its end, reports nothing. -/
theorem schedule_flush (s : Station σ) (attempts : Nat) (left : Option Nat) :
    (s.flush attempts left).schedule = s.schedule := by
  -- An attempt is one step, and the end gives packets back.
  simp only [flush]
  split
  · rfl
  · cases attempts with
    | zero => rfl
    | succ attempts => exact s.worker.schedule_attempt s.plane

/-- The end of a turn reports what was counted by then, if a report is due. -/
theorem schedule_close (s : Station σ) (began : UInt64) (pulled : Nat) :
    (s.close began pulled).schedule = s.schedule.after (s.close began pulled).worker.counters
      ((some s.now).filter fun now => s.worker.nextReport ≤ now) := by
  -- Looking for errors and counting cycles come first, and leave the schedule as it is.
  have reported : ∀ w : Worker σ, w.schedule s.plane = s.schedule →
      let report := w.reportAt s.plane (s.plane.clock w.clock).now
      report.1.schedule report.2 = s.schedule.after report.1.counters
        ((some s.now).filter fun now => s.worker.nextReport ≤ now) := by
    intro w same
    have clock : w.clock = s.worker.clock := congrArg Schedule.clock same
    have due : w.nextReport = s.worker.nextReport := congrArg Schedule.due same
    rw [← same, ← due, now, ← clock]
    exact w.schedule_reportAt s.plane _
  let looked := s.worker.checkDevices s.plane
  let reading := (s.plane.clock looked.clock).now
  let counters := looked.counters.recordCycles
    (if pulled > 0 then Worker.cyclesSince began reading else 0)
    (Worker.cyclesSince looked.started reading)
  exact reported { looked with counters } (s.worker.schedule_checkDevices s.plane s.plane)

/-- Every small step reports what it should, and nothing else. -/
theorem step_schedule (s : Station σ) :
    s.step.schedule = s.schedule.after s.step.worker.counters s.reportTime? := by
  -- No other point than the last one of a turn reports.
  rw [reportTime?, turnEnd?, Station.step]
  cases point : s.point with
  | ready => exact s.schedule_pull
  | working context errand =>
    cases hand : s.hand with
    | nil => exact s.worker.schedule_recordTally s.tally s.plane
    | cons packet rest => exact s.schedule_process context errand packet rest
  | sending context errand => exact s.schedule_send context errand
  | pushing began pulled => exact s.worker.schedule_push s.plane
  | closing began pulled => exact s.schedule_close began pulled
  | draining left => exact s.schedule_batch left
  | flushing attempts left => exact s.schedule_flush attempts left
  | finished => rfl
  | dead errand => rfl

/-- A small step changes when the next report is due by reporting, and in no other way. -/
theorem step_due (s : Station σ) :
    s.step.worker.clock = s.worker.clock ∧
      s.step.worker.statsInterval = s.worker.statsInterval ∧
      s.step.worker.nextReport =
        (s.reportTime?.map (· + s.worker.statsInterval)).getD s.worker.nextReport := by
  -- The parts of the schedule after a step, one by one.
  have step := s.step_schedule
  have clock := congrArg Schedule.clock step
  have interval := congrArg Schedule.interval step
  have due := congrArg Schedule.due step
  cases time : s.reportTime? <;> rw [time] at clock interval due <;> exact ⟨clock, interval, due⟩

end Station

end PacketPlane
