import PacketPlane.Proofs.Time.Due
import PacketPlane.Proofs.Worker.Bounds
import PacketPlane.Proofs.Worker.Schedule

/-! Reports: at which readings of its clock a worker reports, and how far apart they are. -/

namespace PacketPlane

namespace Station

variable {σ : Type}

/-- What a worker is told to do next: to take a small step, or to begin its run or its drain. -/
inductive Cue where
  | step
  | start
  | drain
deriving DecidableEq, Repr

/-- A run of the worker begins. -/
def begin (s : Station σ) : Station σ :=
  -- Turns may have been taken before.
  { s with worker := s.worker.begin s.plane }

/-- What a worker does on a cue. -/
def follow (s : Station σ) : Cue → Station σ
  -- A run and a drain begin between two turns.
  | .step => s.step
  | .start => if s.point = .ready then s.begin else s
  | .drain => if s.point = .ready then s.stop else s

/-- The stations at which a worker finds itself on its cues, when each cue finds a plane of its own. -/
def trail (s : Station σ) : List (Cue × Plane) → List (Station σ × Cue)
  -- Others may have done anything to the plane in between.
  | [] => []
  | (cue, plane) :: rest =>
    let here := { s with plane }
    (here, cue) :: (here.follow cue).trail rest

/-- The reading at which a worker reports on a cue, when it does. -/
def reportOn? (s : Station σ) : Cue → Option UInt64
  -- Neither a run nor a drain begins with a report.
  | .step => s.reportTime?
  | .start | .drain => none

/-- What happens on a cue at a reading of the worker's clock, when it concerns reports. -/
def occasion? (s : Station σ) : Cue → Option Occasion
  -- The end of a turn is when a worker looks whether a report is due.
  | .step => s.turnEnd?.map .look
  | .start => if s.point = .ready then some (.start s.now) else none
  | .drain => none

/-- Whatever a worker is told, it goes on by its clock, and with the interval of its reports. -/
theorem follow_keeps (s : Station σ) (cue : Cue) :
    (s.follow cue).worker.clock = s.worker.clock ∧
      (s.follow cue).worker.statsInterval = s.worker.statsInterval := by
  -- Neither is set after the worker was made.
  cases cue with
  | step => exact ⟨s.step_due.1, s.step_due.2.1⟩
  | start =>
    rw [follow]
    split <;> exact ⟨rfl, rfl⟩
  | drain =>
    rw [follow]
    split <;> exact ⟨rfl, rfl⟩

/-- Nothing changes the clock of a worker, or the interval of its reports. -/
theorem trail_keeps {s t : Station σ} {cue : Cue} {history : List (Cue × Plane)}
    (member : (t, cue) ∈ s.trail history) :
    t.worker.clock = s.worker.clock ∧ t.worker.statsInterval = s.worker.statsInterval := by
  -- No cue changes either, and the plane does not hold them.
  induction history generalizing s with
  | nil => cases member
  | cons moment rest ih =>
    obtain ⟨first, plane⟩ := moment
    rcases List.mem_cons.mp member with same | later
    · cases same
      exact ⟨rfl, rfl⟩
    · obtain ⟨clock, interval⟩ := ({ s with plane } : Station σ).follow_keeps first
      obtain ⟨clock', interval'⟩ := ih later
      exact ⟨clock'.trans clock, interval'.trans interval⟩

/-- A worker finds each plane once, in the order of its cues. -/
theorem planes_trail (s : Station σ) (history : List (Cue × Plane)) :
    (s.trail history).map (fun moment => moment.1.plane) = history.map Prod.snd := by
  -- What a cue does to a plane is lost on the next one, which finds another.
  induction history generalizing s with
  | nil => rfl
  | cons moment rest ih => exact congrArg (moment.2 :: ·) (ih _)

/-- What concerns reports happens at the reading that the worker's clock has then. -/
theorem occasion?_now {s : Station σ} {cue : Cue} {occasion : Occasion}
    (happens : s.occasion? cue = some occasion) : occasion.now = s.now := by
  -- At the end of a turn and at the start of a run, the clock is read.
  cases cue with
  | step =>
    obtain ⟨now, ended, rfl⟩ := Option.map_eq_some_iff.mp happens
    rw [turnEnd?] at ended
    split at ended
    · cases ended
      rfl
    · cases ended
  | start =>
    rw [occasion?] at happens
    split at happens
    · cases happens
      rfl
    · cases happens
  | drain => cases happens

/-- A report is due after a cue as what happened on it has it. -/
theorem follow_due (s : Station σ) (cue : Cue) (rest : List Occasion) :
    (s.reportOn? cue).toList ++
        dueAmong s.worker.statsInterval (s.follow cue).worker.nextReport rest =
      dueAmong s.worker.statsInterval s.worker.nextReport ((s.occasion? cue).toList ++ rest) := by
  cases cue with
  | step =>
    obtain ⟨-, -, due⟩ := s.step_due
    have time : s.reportTime? = s.turnEnd?.filter fun now => s.worker.nextReport ≤ now := rfl
    rw [reportOn?, follow, occasion?, due, time]
    -- At the end of a turn, a report that is due is made and puts off the next one.
    cases s.turnEnd? with
    | none => rfl
    | some now =>
      rw [Option.filter_some]
      show _ = dueAmong _ _ (.look now :: rest)
      rw [dueAmong]
      by_cases reached : s.worker.nextReport ≤ now
      · rw [if_pos (decide_eq_true reached), if_pos reached]
        rfl
      · rw [if_neg (by rw [decide_eq_true_iff]; exact reached), if_neg reached]
        rfl
  | start =>
    rw [reportOn?, follow, occasion?]
    split <;> rfl
  | drain =>
    rw [reportOn?, follow, occasion?]
    split <;> rfl

/-- The reports of a worker are those that are found due on its cues. -/
theorem reports_trail (s : Station σ) (history : List (Cue × Plane)) :
    ((s.trail history).filterMap fun moment => moment.1.reportOn? moment.2) =
      dueAmong s.worker.statsInterval s.worker.nextReport
        ((s.trail history).filterMap fun moment => moment.1.occasion? moment.2) := by
  -- What is due after a cue is due for the rest of the cues.
  induction history generalizing s with
  | nil => rfl
  | cons moment rest ih =>
    obtain ⟨cue, plane⟩ := moment
    let here : Station σ := { s with plane }
    have later := ih (here.follow cue)
    rw [(here.follow_keeps cue).2] at later
    simp only [List.filterMap_eq_flatMap_toList] at later ⊢
    rw [trail, List.flatMap_cons, List.flatMap_cons, later]
    exact here.follow_due cue _

/-- A worker comes to each station of its trail. -/
theorem Comes.trail {start s t : Station σ} {cue : Cue} {history : List (Cue × Plane)}
    (run : start.Comes s) (member : (t, cue) ∈ s.trail history) : start.Comes t := by
  -- Each cue is one of the ways in which a worker goes on.
  induction history generalizing s with
  | nil => cases member
  | cons moment rest ih =>
    obtain ⟨first, plane⟩ := moment
    have here := run.others plane
    rcases List.mem_cons.mp member with same | later
    · cases same
      exact here
    · refine ih ?_ later
      cases first with
      | step => exact here.step
      | start =>
        rw [follow]
        split
        · rename_i ready
          -- The start of a run sets two times.
          exact here.note ready s.worker.core s.worker.reporter _ _
        · exact here
      | drain =>
        rw [follow]
        split
        · rename_i ready
          exact here.stop ready
        · exact here

end Station

namespace Plane

/-- A plane with nothing on it but clocks that are all alike, the last one having a number. -/
def clocksAlone (number : Nat) (c : Clock) : Plane :=
  { clocks := Array.replicate (number + 1) c }

/-- The clock of that number is such a clock. -/
@[simp]
theorem clock_clocksAlone (number : Nat) (c : Clock) : (clocksAlone number c).clock number = c := by
  simp [clock, clocksAlone]

/-- Cues on which a worker with nothing to pull starts runs and ends turns at some readings of its
clock. -/
def idle (number : Nat) (hz : UInt64) (occasions : List Occasion) : List (Station.Cue × Plane) :=
  -- A turn that pulls nothing begins, pushes out what waits, and ends.
  occasions.flatMap fun
    | .start now => [(.start, clocksAlone number { now, hz })]
    | .look now => List.replicate 3 (.step, clocksAlone number { now, hz })

end Plane

namespace Station

variable {σ : Type}

/-- A turn that finds nothing but clocks goes on to push out what waits. -/
theorem pull_clocksAlone {s : Station σ} {number : Nat} {c : Clock}
    (alone : s.plane = Plane.clocksAlone number c) :
    ∃ began, s.pull.point = .pushing began 0 := by
  -- Neither a port nor a ring is there to pull from.
  have nothing : ∀ (w : Worker σ) (want : Nat), (w.pull s.plane want).1 = [] := by
    intro w want
    rw [alone, Worker.pull]
    split
    · rfl
    · split <;> rfl
  simp only [pull, nothing, List.isEmpty_nil, if_true]
  exact ⟨_, rfl⟩

/-- A turn that finds nothing but clocks takes three small steps, and ends with the last one. -/
theorem idle_turn {s : Station σ} (ready : s.point = .ready) (c : Clock) :
    let plane := Plane.clocksAlone s.worker.clock c
    let first : Station σ := { s with plane }
    let second : Station σ := { first.step with plane }
    let third : Station σ := { second.step with plane }
    first.turnEnd? = none ∧ second.turnEnd? = none ∧ third.turnEnd? = some c.now ∧
      third.step.point = .ready ∧ third.step.worker.clock = s.worker.clock := by
  intro plane first second third
  -- It begins, pushes out what waits, and ends.
  have begins : first.step = first.pull := by
    simp only [step, first, ready]
  obtain ⟨began, pulled⟩ := @pull_clocksAlone _ first _ _ rfl
  have pushing : second.point = .pushing began 0 := by
    show first.step.point = _
    rw [begins, pulled]
  have closing : third.point = .closing began 0 := by
    show second.step.point = _
    rw [step, pushing]
    rfl
  have clock : third.worker.clock = s.worker.clock := second.step_due.1.trans first.step_due.1
  have reading : third.now = c.now := by
    rw [Station.now, clock]
    exact congrArg Clock.now (Plane.clock_clocksAlone _ _)
  refine ⟨?_, ?_, ?_, ?_, third.step_due.1.trans clock⟩
  · simp only [turnEnd?, first, ready]
  · simp only [turnEnd?, pushing]
  · simp only [turnEnd?, closing, reading]
  · rw [step, closing]
    rfl

/-- Idle runs start and idle turns end at their readings, one after another. -/
theorem occasions_idle {s : Station σ} (ready : s.point = .ready) (hz : UInt64)
    (occasions : List Occasion) :
    ((s.trail (Plane.idle s.worker.clock hz occasions)).filterMap fun moment =>
      moment.1.occasion? moment.2) = occasions := by
  -- Each occasion leaves the worker ready for the next one, on the same clock.
  induction occasions generalizing s with
  | nil => rfl
  | cons occasion rest ih =>
    cases occasion with
    | start now =>
      let here : Station σ := { s with plane := Plane.clocksAlone s.worker.clock { now, hz } }
      have follows : here.follow .start = here.begin := if_pos ready
      have begins : here.occasion? .start = some (.start now) := by
        rw [occasion?, if_pos ready, Station.now]
        exact congrArg (some ∘ Occasion.start ∘ Clock.now) (Plane.clock_clocksAlone _ _)
      -- A begin is one moment, at which the run begins.
      have moments : s.trail (Plane.idle s.worker.clock hz (.start now :: rest)) =
          (here, .start) :: (here.follow .start).trail (Plane.idle s.worker.clock hz rest) := rfl
      have later : ((here.begin.trail (Plane.idle s.worker.clock hz rest)).filterMap fun moment =>
          moment.1.occasion? moment.2) = rest := ih ready
      simp only [moments, List.filterMap_cons, begins, follows, later]
    | look now =>
      let plane := Plane.clocksAlone s.worker.clock { now, hz }
      let first : Station σ := { s with plane }
      let second : Station σ := { first.step with plane }
      let third : Station σ := { second.step with plane }
      -- An idle turn is three moments, and only the last looks whether a report is due.
      have moments : s.trail (Plane.idle s.worker.clock hz (.look now :: rest)) =
          (first, .step) :: (second, .step) :: (third, .step) ::
            third.step.trail (Plane.idle s.worker.clock hz rest) := rfl
      obtain ⟨amid, amid', ended, again, clock⟩ := idle_turn ready { now, hz }
      have begins : first.occasion? .step = none := congrArg (Option.map Occasion.look) amid
      have pushes : second.occasion? .step = none := congrArg (Option.map Occasion.look) amid'
      have closes : third.occasion? .step = some (.look now) :=
        congrArg (Option.map Occasion.look) ended
      have later := ih again
      rw [clock] at later
      rw [moments]
      simp only [List.filterMap_cons, begins, pushes, closes]
      exact congrArg _ later

end Station

/-- A plan with another interval between reports. -/
def WorkerPlan.every (plan : WorkerPlan σ) (millis : UInt64) : WorkerPlan σ :=
  { plan with settings := { plan.settings with statsIntervalMs := millis } }

namespace Worker

variable {σ : Type}

/-- Where a worker is that was just made. -/
def outset (w : Worker σ) : Station σ :=
  -- It finds its first plane on its first cue.
  { worker := w, plane := {} }

/-- The clock of a worker, as it is on each of its cues. -/
def clocks (w : Worker σ) (history : List (Station.Cue × Plane)) : List Clock :=
  history.map fun moment => moment.2.clock w.clock

/-- The readings at which a worker reports. -/
def reports (w : Worker σ) (history : List (Station.Cue × Plane)) : List UInt64 :=
  (w.outset.trail history).filterMap fun moment => moment.1.reportOn? moment.2

/-- What happens at readings of a worker's clock that concerns its reports. -/
def occasions (w : Worker σ) (history : List (Station.Cue × Plane)) : List Occasion :=
  (w.outset.trail history).filterMap fun moment => moment.1.occasion? moment.2

/-- A worker's clock has one frequency, never goes back, and stays in the lower half of its range. -/
structure Timed (w : Worker σ) (hz : UInt64) (history : List (Station.Cue × Plane)) : Prop where
  steady : ∀ c ∈ w.clocks history, c.hz = hz
  ordered : (w.clocks history).Pairwise fun earlier later => earlier.now ≤ later.now
  lower : ∀ c ∈ w.clocks history, c.now.toNat < 1 <<< 63

/-- No sum of a reading and the interval wraps, at the start of a run or at a report. -/
structure SumsFit (w : Worker σ) (history : List (Station.Cue × Plane)) : Prop where
  first : ∀ s, (s, .start) ∈ w.outset.trail history → s.point = .ready →
    s.begin.worker.nextReport.toNat = s.now.toNat + w.statsInterval.toNat
  later : ∀ s, (s, .step) ∈ w.outset.trail history → ∀ now ∈ s.reportTime?,
    s.step.worker.nextReport.toNat = now.toNat + w.statsInterval.toNat

section Timing

variable {w : Worker σ} {hz : UInt64} {history : List (Station.Cue × Plane)}

/-- On each cue, the clock of a worker is one of those that its history names. -/
theorem clock_mem {s : Station σ} {cue : Station.Cue} (member : (s, cue) ∈ w.outset.trail history) :
    s.plane.clock s.worker.clock ∈ w.clocks history := by
  -- The worker goes by the same clock all the time, and finds one plane of its history.
  have planes := Station.planes_trail w.outset history
  have there : s.plane ∈ history.map Prod.snd := by
    rw [← planes]
    exact List.mem_map_of_mem member
  obtain ⟨moment, found, same⟩ := List.mem_map.mp there
  rw [(Station.trail_keeps member).1, ← same]
  exact List.mem_map.mpr ⟨moment, found, rfl⟩

/-- What concerns the reports of a worker happens in the lower half of its clock's range. -/
theorem Timed.lower_occasions (timed : w.Timed hz history) :
    ∀ occasion ∈ w.occasions history, occasion.now.toNat < 1 <<< 63 := by
  -- The time of an occasion is that of the clock on its cue.
  intro occasion member
  obtain ⟨⟨s, cue⟩, there, happens⟩ := List.mem_filterMap.mp member
  rw [Station.occasion?_now happens]
  exact timed.lower _ (clock_mem there)

/-- What concerns the reports of a worker happens at readings that never go back. -/
theorem Timed.ordered_occasions (timed : w.Timed hz history) :
    (w.occasions history).Pairwise fun earlier later => earlier.now ≤ later.now := by
  -- Stations follow one another as the planes do that their clocks are on.
  have planes : ((w.outset.trail history).map fun moment => moment.1.plane).Pairwise
      fun earlier later => (earlier.clock w.clock).now ≤ (later.clock w.clock).now := by
    have ordered := timed.ordered
    rw [clocks, List.pairwise_map] at ordered
    rwa [Station.planes_trail, List.pairwise_map]
  rw [occasions, List.pairwise_filterMap]
  refine (List.pairwise_map.mp planes).imp_of_mem ?_
  rintro ⟨s, cue⟩ ⟨t, cue'⟩ there there' le occasion happens occasion' happens'
  rw [Station.occasion?_now happens, Station.occasion?_now happens', Station.now, Station.now,
    (Station.trail_keeps there).1, (Station.trail_keeps there').1]
  exact le

/-- In the lower half of a clock's range, no sum with half the range or less wraps. -/
theorem Timed.sumsFit (timed : w.Timed hz history) (short : w.statsInterval.toNat ≤ 1 <<< 63) :
    w.SumsFit history := by
  -- Two numbers of at most half the range add up within it. At the beginning of a run the sum is made
  -- of the clock, at the end of a turn of the time it ended.
  have sum : ∀ now : UInt64, now.toNat < 1 <<< 63 →
      (now + w.statsInterval).toNat = now.toNat + w.statsInterval.toNat := by
    intro now low
    apply toNat_add_of_fits
    show _ < 2 ^ 64
    omega
  constructor
  · intro s member ready
    have reckoned : s.begin.worker.nextReport = s.now + w.statsInterval :=
      congrArg (s.now + ·) (Station.trail_keeps member).2
    rw [reckoned]
    exact sum _ (timed.lower _ (clock_mem member))
  · intro s member now time
    obtain ⟨-, -, due⟩ := s.step_due
    have ended : s.turnEnd? = some now := (Option.mem_filter_iff.mp time).1
    have happens : s.occasion? .step = some (.look now) := congrArg (Option.map Occasion.look) ended
    rw [due, Option.mem_def.mp time, (Station.trail_keeps member).2]
    exact sum now (timed.lower_occasions _ (List.mem_filterMap.mpr ⟨(s, .step), member, happens⟩))

/-- The reports of a worker are those that are found due on its cues. -/
theorem reports_due (w : Worker σ) (history : List (Station.Cue × Plane)) :
    w.reports history = dueAmong w.statsInterval w.nextReport (w.occasions history) :=
  -- A worker at the outset is one station with a history like any other.
  w.outset.reports_trail history

/-- On idle cues, each clock is at the reading of an occasion. -/
theorem clocks_idle (w : Worker σ) (hz : UInt64) (occasions : List Occasion) :
    w.clocks (Plane.idle w.clock hz occasions) = occasions.flatMap fun
      | .start now => [{ now, hz }]
      | .look now => List.replicate 3 { now, hz } := by
  -- The clock of the worker is the one that each plane has its occasion's reading on.
  rw [clocks, Plane.idle, List.map_flatMap]
  congr 1
  funext occasion
  cases occasion with
  | start now => simp only [List.map_cons, List.map_nil, Plane.clock_clocksAlone]
  | look now => simp only [List.map_replicate, Plane.clock_clocksAlone]

/-- Idle cues are timed as their occasions are. -/
theorem timed_idle {occasions : List Occasion}
    (ordered : occasions.Pairwise fun earlier later => earlier.now ≤ later.now)
    (lower : ∀ occasion ∈ occasions, occasion.now.toNat < 1 <<< 63) :
    w.Timed hz (Plane.idle w.clock hz occasions) := by
  -- Every clock there is has the reading of some occasion.
  have copies : ∀ (occasion : Occasion) (c : Clock), c ∈ (match occasion with
      | .start now => [({ now, hz } : Clock)]
      | .look now => List.replicate 3 { now, hz }) → c = { now := occasion.now, hz } := by
    rintro (now | now) c member
    · exact List.mem_singleton.mp member
    · exact List.eq_of_mem_replicate member
  have found : ∀ c ∈ w.clocks (Plane.idle w.clock hz occasions),
      ∃ occasion ∈ occasions, c = { now := occasion.now, hz } := by
    intro c member
    rw [clocks_idle] at member
    obtain ⟨occasion, there, copy⟩ := List.mem_flatMap.mp member
    exact ⟨occasion, there, copies occasion c copy⟩
  constructor
  · intro c member
    obtain ⟨occasion, -, rfl⟩ := found c member
    rfl
  · rw [clocks_idle, List.pairwise_flatMap]
    constructor
    · rintro (now | now) -
      · exact List.pairwise_singleton _ _
      · exact List.pairwise_replicate.mpr (Or.inr (UInt64.le_refl now))
    · refine ordered.imp fun {earlier later} le one first other second => ?_
      rw [copies _ _ first, copies _ _ second]
      exact le
  · intro c member
    obtain ⟨occasion, there, rfl⟩ := found c member
    exact lower occasion there

/-- Two idle turns are timed when the second ends no sooner than the first, in the lower half. -/
theorem timed_pair {first second : UInt64} (ordered : first ≤ second)
    (lower : second.toNat < 1 <<< 63) :
    w.Timed hz (Plane.idle w.clock hz [.look first, .look second]) := by
  -- The two times bound the readings in between.
  have apart : [Occasion.look first, Occasion.look second].Pairwise fun earlier later =>
      earlier.now ≤ later.now := List.pairwise_pair.mpr ordered
  refine timed_idle apart fun occasion member => ?_
  rcases List.mem_pair.mp member with rfl | rfl
  · exact (UInt64.le_iff_toNat_le.mp ordered).trans_lt lower
  · exact lower

/-- The reports on idle cues are those that are found due on their occasions. -/
theorem reports_idle (w : Worker σ) (hz : UInt64) (occasions : List Occasion) :
    w.reports (Plane.idle w.clock hz occasions) =
      dueAmong w.statsInterval w.nextReport occasions := by
  -- On an idle plane every cue brings about the occasion it is named for.
  have ready : w.outset.point = .ready := rfl
  rw [reports_due]
  exact congrArg _ (Station.occasions_idle ready hz occasions)

/-- A plan is accepted with any interval between reports, or with none. -/
theorem build_every {plan : WorkerPlan σ} {plane : Plane} (built : (plan.build plane).1 = .ok w)
    (millis : UInt64) : ∃ other, ((plan.every millis).build plane).1 = .ok other := by
  -- The checks of a plan do not look at the interval.
  have check : (plan.every millis).check = plan.check := rfl
  rw [WorkerPlan.build] at built ⊢
  rw [check]
  cases checked : plan.check with
  | error fault =>
    rw [checked] at built
    cases built
  | ok input => exact ⟨_, rfl⟩

/-- A worker that was just made is due to report, and keeps the interval that its clock makes of its
settings. -/
theorem nextReport_build {plan : WorkerPlan σ} {plane : Plane}
    (built : (plan.build plane).1 = .ok w) :
    w.nextReport = 0 ∧ w.statsInterval = ((plan.build plane).2.clock w.clock).cyclesFor
      (Clock.nanosOfMillis plan.settings.statsIntervalMs.toNat) := by
  -- The interval is reckoned once, when the worker is made.
  rw [WorkerPlan.build] at built ⊢
  split at built
  · cases built
  · cases built
    exact ⟨rfl, rfl⟩

/-- Sums of readings and the interval never wrap just if the interval is at most half the range. -/
theorem sumsFit_iff (w : Worker σ) (hz : UInt64) :
    (∀ history, w.Timed hz history → w.SumsFit history) ↔ w.statsInterval.toNat ≤ 1 <<< 63 := by
  constructor
  · intro always
    -- A run that starts at the last reading of the lower half leaves just that much room.
    let here := Plane.clocksAlone w.clock { now := Clock.lastLower, hz }
    have position : Clock.lastLower.toNat = (1 <<< 63) - 1 := Clock.toNat_lastLower
    have timed : w.Timed hz (Plane.idle w.clock hz [.start Clock.lastLower]) := by
      refine timed_idle (List.pairwise_singleton _ _) (List.forall_mem_singleton.mpr ?_)
      exact position.trans_lt (by decide)
    have sum := (always _ timed).first { w.outset with plane := here } List.mem_cons_self rfl
    have reading : ({ w.outset with plane := here } : Station σ).now = Clock.lastLower :=
      congrArg Clock.now (Plane.clock_clocksAlone w.clock _)
    have size := UInt64.toNat_lt
      ({ w.outset with plane := here } : Station σ).begin.worker.nextReport
    rw [sum, reading] at size
    omega
  · exact fun short history timed => timed.sumsFit short

/-- Reports of a worker that is due to report from the first are always as far apart as some interval
just if that is at most half the range, and so is the one that is kept, or if half the range is kept. -/
theorem apart_iff {interval : Nat} (fresh : w.nextReport = 0)
    (kept : w.statsInterval.toNat = interval ↔ interval < UInt64.size) :
    (∀ history, w.Timed hz history → AtLeastApart interval (w.reports history)) ↔
      interval ≤ 1 <<< 63 ∨ w.statsInterval.toNat = 1 <<< 63 := by
  constructor
  · intro always
    by_cases half : w.statsInterval.toNat = 1 <<< 63
    · exact Or.inr half
    · left
      -- Idle turns end at two readings of the lower half, with a report at each.
      obtain ⟨first, second, ordered, lower, due⟩ := exists_dueAmong_pair half
      have apart := always _ (timed_pair ordered lower)
      rw [reports_idle, fresh, due] at apart
      have reached : first.toNat + interval ≤ second.toNat := atLeastApart_pair.mp apart
      omega
  · intro either history timed
    have lower := timed.lower_occasions
    rw [reports_due]
    rcases either with short | half
    · have same : w.statsInterval.toNat = interval := kept.mpr (short.trans_lt (by decide))
      rw [← same] at short ⊢
      refine (dueAmong_apart (Nat.zero_le _) timed.ordered_occasions (fun _ _ => Nat.zero_le _)
        fun occasion member => ?_).2
      have low := lower occasion member
      show _ < 2 ^ 64
      omega
    · exact dueAmong_half half timed.ordered_occasions lower interval

end Timing

/-- Take a worker made to any plan, on a clock of any frequency that never goes back and stays below
`1 <<< 63`. It takes single turns, begins runs and drains, and others are at work on its plane in any
way. The interval that it keeps has as many cycles as its settings say just if a word holds them. Sums of a
reading and that interval never wrap just if it is at most `1 <<< 63`. Reports are always as far apart
as the settings say just if those say no more than that, or if `1 <<< 63` is what is kept of more, so
that no two reports come about. A report is made just when a turn ends at a reading at which one is
due, and puts off the next one. Turns and drains that nobody interferes with are such steps. A plan is
accepted with any interval. -/
theorem schedule_exact_iff {plan : WorkerPlan σ} {plane : Plane} {w : Worker σ}
    (built : (plan.build plane).1 = .ok w) :
    let hz := ((plan.build plane).2.clock w.clock).hz
    let interval := plan.settings.reportCycles hz
    let kept := w.statsInterval.toNat
    (kept = interval ↔ interval < UInt64.size) ∧
    ((∀ history, w.Timed hz history → w.SumsFit history) ↔ kept ≤ 1 <<< 63) ∧
    ((∀ history, w.Timed hz history → AtLeastApart interval (w.reports history)) ↔
      interval ≤ 1 <<< 63 ∨ kept = 1 <<< 63) ∧
    (∀ history s cue, (s, cue) ∈ w.outset.trail history →
      s.step.schedule = s.schedule.after s.step.worker.counters s.reportTime? ∧
      (s.point = .ready → (∃ t, s.step.Walks t ∧ t.Ends (s.worker.turn s.plane) .ready) ∧
        ∃ t, s.stop.Walks t ∧ t.Ends (s.worker.drain s.plane) .finished)) ∧
    ∀ millis, ∃ other, ((plan.every millis).build plane).1 = .ok other := by
  intro hz interval kept
  obtain ⟨fresh, cycles⟩ := nextReport_build built
  have whole : kept = interval ↔ interval < UInt64.size := by
    have whole := ((plan.build plane).2.clock w.clock).cyclesFor_exact_iff
      (Clock.nanosOfMillis plan.settings.statsIntervalMs.toNat)
    rw [← cycles, Clock.nanosOfMillis_cycles] at whole
    exact whole
  refine ⟨whole, w.sumsFit_iff hz, apart_iff fresh whole, ?_, fun millis => build_every built millis⟩
  intro history s cue member
  refine ⟨s.step_schedule, fun ready => ?_⟩
  -- A worker that is ready has nothing in hand, and has counted all that it had.
  have began : Station.Comes { worker := w, plane := (plan.build plane).2 } w.outset :=
    Station.Comes.start.others {}
  have run := began.trail member
  have free := (run.bounded (Station.bounded_build built)).free (by rw [ready]; rfl)
  have counted := run.settled (fun _ => rfl) (by rw [ready]; rfl)
  have rests : s.Rests s.worker s.plane .ready := ⟨rfl, rfl, ready, free, counted⟩
  exact ⟨Station.walks_turn rests, Station.walks_drain rests⟩

/-- A worker with nothing to do that reports every so many milliseconds. -/
def sparePlan (millis : UInt64) : WorkerPlan Unit where
  id := 0
  input := some (.ring 0)
  output := .discard
  process := passThrough Unit
  memory := ()
  clock := some 0
  settings := { statsIntervalMs := millis }

/-- A clock of a billion cycles to the second. -/
def billionClock : Clock := { hz := 1000000000 }

/-- A plane with nothing on it but that clock. -/
def billionPlane : Plane :=
  Plane.clocksAlone 0 billionClock

/-- On that plane, such a worker is made and goes by that clock. -/
theorem build_sparePlan (millis : UInt64) :
    ∃ w, ((sparePlan millis).build billionPlane).1 = .ok w ∧
      ((sparePlan millis).build billionPlane).2.clock w.clock = billionClock ∧ w.nextReport = 0 ∧
      w.statsInterval = billionClock.cyclesFor (Clock.nanosOfMillis millis.toNat) :=
  ⟨_, rfl, rfl, rfl, rfl⟩

/-- A worker that reports every second never does so twice in less than a billion cycles. Of turns at the
start, just before the second is over and at its end, the first and the last report. When its run begins
half a second after the first of these turns, the second report is half a second later. -/
theorem schedule_exact_second :
    ∃ w, ((sparePlan 1000).build billionPlane).1 = .ok w ∧
      w.statsInterval.toNat = 1000000000 ∧
      (∀ history, w.Timed 1000000000 history → w.SumsFit history ∧
        AtLeastApart 1000000000 (w.reports history)) ∧
      w.reports (Plane.idle w.clock 1000000000
        [.look 0, .look 999999999, .look 1000000000]) = [0, 1000000000] ∧
      w.reports (Plane.idle w.clock 1000000000
        [.look 0, .start 500000000, .look 1000000000, .look 1500000000]) = [0, 1500000000] := by
  -- An interval of a second is far within half the range, so both conditions hold. The two histories
  -- are reckoned out.
  obtain ⟨w, built, clock, fresh, cycles⟩ := build_sparePlan 1000
  have kept : w.statsInterval = 1000000000 := cycles.trans (by decide)
  have half : w.statsInterval.toNat ≤ 1 <<< 63 := by
    rw [kept]
    decide
  obtain ⟨-, sums, apart, -⟩ := schedule_exact_iff built
  rw [clock] at sums apart
  refine ⟨w, built, congrArg UInt64.toNat kept, fun history timed => ⟨?_, ?_⟩, ?_, ?_⟩
  · exact sums.mpr half history timed
  · exact apart.mpr (Or.inl (by decide)) history timed
  · rw [reports_idle, fresh, kept]
    decide
  · rw [reports_idle, fresh, kept]
    decide

/-- Of 18446744073710 milliseconds, such a clock leaves 448384 cycles, and the next report is made after
these. Of 9223372036855 milliseconds it leaves all cycles, but at the last reading of the lower half the
sum wraps, and the next report is made at once. -/
theorem schedule_exact_fails :
    (∃ w, ((sparePlan 18446744073710).build billionPlane).1 = .ok w ∧
      (sparePlan 18446744073710).settings.reportCycles 1000000000 = 18446744073710000000 ∧
      w.statsInterval = 448384 ∧
      let turns := Plane.idle w.clock 1000000000 [.look 0, .look 448384]
      w.Timed 1000000000 turns ∧ w.reports turns = [0, 448384] ∧
      ¬ AtLeastApart 18446744073710000000 (w.reports turns)) ∧
    (∃ w, ((sparePlan 9223372036855).build billionPlane).1 = .ok w ∧
      (sparePlan 9223372036855).settings.reportCycles 1000000000 = 9223372036855000000 ∧
      w.statsInterval = 9223372036855000000 ∧
      ¬ (∀ history, w.Timed 1000000000 history → w.SumsFit history) ∧
      let turns := Plane.idle w.clock 1000000000 [.look Clock.lastLower, .look Clock.lastLower]
      w.Timed 1000000000 turns ∧ w.reports turns = [Clock.lastLower, Clock.lastLower] ∧
      ¬ AtLeastApart 9223372036855000000 (w.reports turns)) := by
  -- The first interval loses its upper bits when it is reckoned in 64. The second fits, but is more
  -- than half the range, so that the sum does not.
  constructor
  · obtain ⟨w, built, -, fresh, cycles⟩ := build_sparePlan 18446744073710
    have kept : w.statsInterval = 448384 := cycles.trans (by decide)
    have reported : w.reports (Plane.idle w.clock 1000000000 [.look 0, .look 448384]) =
        [0, 448384] := by
      rw [reports_idle, fresh, kept]
      decide
    refine ⟨w, built, by decide, kept, timed_pair (by decide) (by decide), reported, ?_⟩
    rw [reported, atLeastApart_pair]
    decide
  · obtain ⟨w, built, -, fresh, cycles⟩ := build_sparePlan 9223372036855
    have kept : w.statsInterval = 9223372036855000000 := cycles.trans (by decide)
    have reported : w.reports (Plane.idle w.clock 1000000000
        [.look Clock.lastLower, .look Clock.lastLower]) = [Clock.lastLower, Clock.lastLower] := by
      rw [reports_idle, fresh, kept]
      decide
    have long : ¬ w.statsInterval.toNat ≤ 1 <<< 63 := by
      rw [kept]
      decide
    refine ⟨w, built, by decide, kept, mt (w.sumsFit_iff 1000000000).mp long,
      timed_pair (UInt64.le_refl _) (by decide), reported, ?_⟩
    rw [reported, atLeastApart_pair]
    decide

end Worker

end PacketPlane
