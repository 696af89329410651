import PacketPlane.Proofs.Device.Failures
import PacketPlane.Proofs.Transmit.Retries
import PacketPlane.Proofs.Worker.Accounting
import PacketPlane.Proofs.Worker.Lookout

/-! Alarms: which turns of a worker count as device errors, and how many alarms streaks of them
raise. -/

namespace PacketPlane

/-- Which turns are error cycles, oldest first: those in which a network port that the worker
watches has another error count than it was last read to have. -/
def Worker.errorCycles (w : Worker σ) (source : Nat) (before : UInt16 → UInt64) :
    List Plane → List Bool
  -- Each turn is compared with the one before it.
  | [] => []
  | plane :: rest =>
    let turn := w.turn plane
    let now := turn.plane.errorCount source
    (watchedDevices w.input w.output).any (fun port => now port != before port) ::
      turn.worker.errorCycles source now rest

/-- How long the streaks of error cycles are that clean cycles part, the last one being still under
way. There is one of length zero between clean cycles that follow each other. -/
def streaks (cycles : List Bool) : List Nat :=
  (cycles.splitOn false).map List.length

/-- How many alarms a streak raises. The count of its cycles stays at its end, so that a threshold
there is met again by each further cycle. -/
def raised (threshold streak : Nat) : Nat :=
  if streak < threshold then 0
  else if threshold = UInt32.size - 1 then streak + 1 - threshold
  else 1

section Streaks

variable (rest cycles : List Bool)

/-- A clean cycle ends a streak of length zero in front of the others. -/
theorem streaks_cons_clean : streaks (false :: rest) = 0 :: streaks rest := by
  -- The cycles are cut at the clean one, in front of which there is none.
  simp [streaks, List.splitOn_cons_eq_if_modifyHead]

/-- An error cycle makes the first streak one longer. -/
theorem streaks_cons_error : streaks (true :: rest) = (streaks rest).modifyHead (· + 1) := by
  -- The cycles are cut where they were, and the first piece has one more.
  simp only [streaks, List.splitOn_cons_eq_if_modifyHead]
  cases rest.splitOn false with
  | nil => rfl
  | cons first others => rfl

/-- A clean cycle at the end begins a new streak. -/
theorem streaks_clean : streaks (cycles ++ [false]) = streaks cycles ++ [0] := by
  -- The cycles are cut at the last one, behind which there is none.
  rw [streaks, List.splitOn_append_cons_self, List.map_append]
  rfl

/-- An error cycle at the end goes on with the last streak. -/
theorem streaks_error : ∃ past last, streaks cycles = past ++ [last] ∧
    streaks (cycles ++ [true]) = past ++ [last + 1] := by
  -- The first cycle ends a streak of its own or belongs to the first of the others.
  induction cycles with
  | nil => exact ⟨[], 0, rfl, rfl⟩
  | cons first rest ih =>
    obtain ⟨past, last, before, after⟩ := ih
    cases first with
    | false =>
      refine ⟨0 :: past, last, ?_, ?_⟩
      · rw [streaks_cons_clean, before, List.cons_append]
      · rw [List.cons_append, streaks_cons_clean, after, List.cons_append]
    | true =>
      rw [List.cons_append, streaks_cons_error, streaks_cons_error, before, after]
      cases past with
      | nil => exact ⟨[], last + 1, rfl, rfl⟩
      | cons one others => exact ⟨(one + 1) :: others, last, rfl, rfl⟩

/-- Error cycles alone are one streak. -/
theorem streaks_replicate (count : Nat) : streaks (List.replicate count true) = [count] := by
  -- There is no clean cycle to cut at.
  have errors : false ∉ List.replicate count true := by
    intro clean
    exact Bool.noConfusion (List.eq_of_mem_replicate clean)
  rw [streaks, List.splitOn_eq_singleton errors, List.map_singleton, List.length_replicate]

variable {threshold : Nat}

/-- One more error cycle raises an alarm when the count of the streak meets the threshold. -/
theorem raised_succ (positive : 0 < threshold) (fits : threshold < UInt32.size) (streak : Nat) :
    raised threshold (streak + 1) = raised threshold streak +
      if min (streak + 1) (UInt32.size - 1) = threshold then 1 else 0 := by
  -- By cases on whether the streak is before its threshold, at it or beyond, and on the end of the
  -- count.
  simp only [raised, UInt32.size] at fits ⊢
  split_ifs <;> omega

/-- A streak raises one alarm when it reaches the threshold, unless its count has no way to go
beyond. -/
theorem raised_eq {streak : Nat}
    (moderate : threshold = UInt32.size - 1 → streak ≤ threshold) :
    raised threshold streak = if threshold ≤ streak then 1 else 0 := by
  -- By cases on whether the threshold is the end of the count.
  simp only [raised]
  split_ifs <;> omega

/-- Streaks raise one alarm each when they reach the threshold, unless the count of one of them has
no way to go beyond. -/
theorem sum_raised {lengths : List Nat}
    (moderate : threshold = UInt32.size - 1 → ∀ streak ∈ lengths, streak ≤ threshold) :
    (lengths.map (raised threshold)).sum = lengths.countP (threshold ≤ ·) := by
  -- By induction on the streaks.
  induction lengths with
  | nil => rfl
  | cons streak others ih =>
    have first := raised_eq fun last => moderate last streak List.mem_cons_self
    have rest := ih fun last other member => moderate last other (List.mem_cons_of_mem _ member)
    rw [List.map_cons, List.sum_cons, first, rest, List.countP_cons, Nat.add_comm]
    simp only [decide_eq_true_eq]

end Streaks

namespace Worker

variable {σ : Type}

/-- The error counts that a worker remembers as they are read again. -/
theorem refreshWatched_map (device : Device) (ports : List UInt16) (counts : UInt16 → UInt64) :
    refreshWatched device (ports.map fun port => (port, counts port)) =
      (ports.any fun port => device.errorCount port != counts port,
        ports.map fun port => (port, device.errorCount port)) := by
  -- Ports stay as they are watched, so the lists differ just if some count does.
  have fresh : (ports.map fun port => (port, counts port)).map
      (fun entry => (entry.1, device.errorCount entry.1)) =
        ports.map fun port => (port, device.errorCount port) := by
    rw [List.map_map]
    rfl
  have changed : (ports.map (fun port => (port, device.errorCount port)) !=
      ports.map fun port => (port, counts port)) =
        ports.any fun port => device.errorCount port != counts port := by
    rw [Bool.eq_iff_iff, bne_iff_ne, List.any_eq_true, ne_eq, List.map_inj_left]
    simp
  rw [refreshWatched, fresh, changed]

/-- What a worker is built to watch, and when it is to raise an alarm. -/
structure Watch where
  source : Nat
  ports : List UInt16
  threshold : UInt32

/-- A worker that read some error counts last and has counted its error cycles and alarms so far. -/
structure Tells (w : Worker σ) (watch : Watch) (counts : UInt16 → UInt64) (cycles : List Bool) :
    Prop where
  source : w.watch = some watch.source
  ports : watchedDevices w.input w.output = watch.ports
  threshold : w.settings.alarmThreshold = watch.threshold
  watched : w.watched = watch.ports.map fun port => (port, counts port)
  streak : w.errorStreak.toNat = min ((streaks cycles).getLastD 0) (UInt32.size - 1)
  errors : w.counters.deviceErrors = UInt64.ofNat (cycles.count true)
  alarms : w.counters.alarms =
    UInt64.ofNat ((streaks cycles).map (raised watch.threshold.toNat)).sum

section Tells

variable {w w' : Worker σ} {p q : Plane} {watch : Watch} {counts : UInt16 → UInt64}
  {cycles : List Bool}

/-- What a worker tells about errors lies in its look for them. -/
theorem Tells.of_lookout (tells : w.Tells watch counts cycles)
    (same : w'.lookout q = w.lookout p) : w'.Tells watch counts cycles where
  -- Each part is one of the parts of the look.
  source := (congrArg Lookout.source same).trans tells.source
  ports := (congrArg Lookout.ports same).trans tells.ports
  threshold := (congrArg Lookout.threshold same).trans tells.threshold
  watched := (congrArg Lookout.watched same).trans tells.watched
  streak := (congrArg (UInt32.toNat ∘ Lookout.streak) same).trans tells.streak
  errors := (congrArg Lookout.errors same).trans tells.errors
  alarms := (congrArg Lookout.alarms same).trans tells.alarms

/-- A look that finds the error counts as they were ends the streak. -/
theorem Tells.clean (tells : w.Tells watch counts cycles) (positive : 0 < watch.threshold.toNat)
    {now : UInt16 → UInt64} (same : ∀ port ∈ watch.ports, now port = counts port) :
    ({ w with errorStreak := 0 } : Worker σ).Tells watch now (cycles ++ [false]) where
  -- The counts read are those remembered, and the new streak is empty.
  source := tells.source
  ports := tells.ports
  threshold := tells.threshold
  watched := by
    rw [tells.watched]
    exact List.map_congr_left fun port member => by rw [same port member]
  streak := by
    rw [streaks_clean, List.getLastD_concat]
    rfl
  errors := by
    rw [tells.errors, List.count_append]
    rfl
  alarms := by
    have none : raised watch.threshold.toNat 0 = 0 := if_pos positive
    rw [tells.alarms, streaks_clean, List.map_append, List.sum_append, List.map_singleton, none]
    rfl

/-- A look that finds other error counts goes on with the streak, and raises an alarm when the count
of its cycles meets the threshold. -/
theorem Tells.error (tells : w.Tells watch counts cycles) (positive : 0 < watch.threshold.toNat)
    (now : UInt16 → UInt64) :
    let c := w.counters.recordDeviceError
    let streak := countStreak w.errorStreak
    ({ w with
        watched := watch.ports.map fun port => (port, now port)
        errorStreak := streak
        counters := if streak = w.settings.alarmThreshold then c.recordAlarm else c } :
      Worker σ).Tells watch now (cycles ++ [true]) := by
  obtain ⟨past, last, before, after⟩ := streaks_error cycles
  -- The worker's count is the length of the last streak, as far as it is counted.
  have counted : (countStreak w.errorStreak).toNat = min (last + 1) (UInt32.size - 1) := by
    have one : (countStreak w.errorStreak).toNat =
        min (w.errorStreak.toNat + 1) (UInt32.size - 1) := Backlog.toNat_countAttempt _
    rw [one, tells.streak, before, List.getLastD_concat]
    omega
  have met : countStreak w.errorStreak = w.settings.alarmThreshold ↔
      min (last + 1) (UInt32.size - 1) = watch.threshold.toNat := by
    rw [← UInt32.toNat_inj, counted, tells.threshold]
  have more := raised_succ positive watch.threshold.toNat_lt last
  refine ⟨tells.source, tells.ports, tells.threshold, rfl, ?_, ?_, ?_⟩
  · rw [after, List.getLastD_concat]
    exact counted
  · have cycle : ((if countStreak w.errorStreak = w.settings.alarmThreshold then
        w.counters.recordDeviceError.recordAlarm else w.counters.recordDeviceError) :
          Counters).deviceErrors = w.counters.deviceErrors + 1 := by
      split <;> rfl
    rw [cycle, tells.errors, List.count_append, UInt64.ofNat_add]
    rfl
  · -- The last streak is one longer, and raises one alarm more if it meets the threshold with that.
    have sum : ((streaks (cycles ++ [true])).map (raised watch.threshold.toNat)).sum =
        ((streaks cycles).map (raised watch.threshold.toNat)).sum +
          if min (last + 1) (UInt32.size - 1) = watch.threshold.toNat then 1 else 0 := by
      simp only [before, after, List.map_append, List.sum_append, List.map_singleton,
        List.sum_singleton, more, Nat.add_assoc]
    rw [sum, UInt64.ofNat_add, ← tells.alarms]
    by_cases alarm : countStreak w.errorStreak = w.settings.alarmThreshold
    · rw [if_pos alarm, if_pos (met.mp alarm)]
      rfl
    · rw [if_neg alarm, if_neg (mt met.mpr alarm)]
      exact (UInt64.add_zero _).symm

/-- A look for device errors. -/
theorem Tells.checkDevices (tells : w.Tells watch counts cycles)
    (positive : 0 < watch.threshold.toNat) (present : watch.source < p.devices.size) :
    let now := p.errorCount watch.source
    (w.checkDevices p).Tells watch now
      (cycles ++ [watch.ports.any fun port => now port != counts port]) := by
  have found : w.watch.bind p.device? = some p.devices[watch.source] := by
    rw [tells.source]
    exact Array.getElem?_eq_getElem present
  have now : p.errorCount watch.source = p.devices[watch.source].errorCount := by
    funext port
    rw [Plane.errorCount, Plane.device?, Array.getElem?_eq_getElem present]
  have read := refreshWatched_map p.devices[watch.source] watch.ports counts
  rw [← tells.watched] at read
  simp only [Worker.checkDevices, found, read, now]
  -- Without a change the counts that were read stay remembered, and they are the same ones.
  cases changed : watch.ports.any fun port =>
      p.devices[watch.source].errorCount port != counts port with
  | false =>
    rw [List.any_eq_false] at changed
    apply tells.clean positive
    intro port member
    simpa using changed port member
  | true => exact tells.error positive _

/-- A turn adds one cycle. -/
theorem Tells.turn (tells : w.Tells watch counts cycles) (positive : 0 < watch.threshold.toNat)
    (present : watch.source < p.devices.size) (alive : (w.turn p).crashed = false) :
    let turn := w.turn p
    let now := turn.plane.errorCount watch.source
    turn.worker.Tells watch now
      (cycles ++ [watch.ports.any fun port => now port != counts port]) := by
  -- Errors that the turn itself causes have been reported when it looks for them.
  obtain ⟨w', q, before, after, devices⟩ := w.turn_looks p alive
  have there : watch.source < q.devices.size := by
    have size : q.devices.size = p.devices.size := congrArg Lookout.devices before
    rwa [size]
  simp only [Plane.errorCount_congr devices]
  exact ((tells.of_lookout before).checkDevices positive there).of_lookout after

/-- Turns add their cycles, whatever others do to the devices in between. -/
theorem Tells.polls {last : Worker σ} {planes : List Plane} (tells : w.Tells watch counts cycles)
    (positive : 0 < watch.threshold.toNat)
    (present : ∀ plane ∈ planes, watch.source < plane.devices.size)
    (polled : w.polls planes = some last) :
    ∃ latest, last.Tells watch latest (cycles ++ w.errorCycles watch.source counts planes) := by
  -- Each turn compares with what the turn before it read.
  induction planes generalizing w counts cycles with
  | nil =>
    cases polled
    rw [errorCycles, List.append_nil]
    exact ⟨counts, tells⟩
  | cons plane rest ih =>
    simp only [Worker.polls] at polled
    split at polled
    · cases polled
    · rename_i living
      rw [Bool.not_eq_true] at living
      have turned := tells.turn positive (present plane List.mem_cons_self) living
      have later := ih turned (fun other member => present other (List.mem_cons_of_mem _ member))
        polled
      rw [errorCycles, tells.ports]
      rwa [List.append_assoc] at later

end Tells

/-- A plan that passes its check has a threshold of at least one cycle. -/
theorem threshold_pos {plan : WorkerPlan σ} {input : Input} (checked : plan.check = .ok input) :
    0 < plan.settings.alarmThreshold.toNat := by
  -- A threshold of zero is one of the faults that are checked for.
  obtain ⟨-, sane⟩ := WorkerPlan.check_ok checked
  obtain ⟨-, -, some⟩ := WorkerSettings.fault?_eq_none.mp sane
  exact Nat.pos_of_ne_zero fun none => some (UInt32.toNat_inj.mp none)

/-- A worker that is built has read no errors yet. -/
theorem build_tells {plan : WorkerPlan σ} {start : Plane} {w : Worker σ} {source : Nat}
    (built : (plan.build start).1 = .ok w) (watching : plan.watch = some source) :
    0 < plan.settings.alarmThreshold.toNat ∧
      w.Tells ⟨source, watchedDevices w.input w.output, plan.settings.alarmThreshold⟩
        (fun _ => 0) [] := by
  -- A worker that is built remembers zeros for the ports of its ends, and has no cycles behind it.
  rw [WorkerPlan.build] at built
  split at built
  · cases built
  · rename_i input checked
    have positive := threshold_pos checked
    cases built
    refine ⟨positive, watching, rfl, rfl, rfl, rfl, rfl, ?_⟩
    have none : raised plan.settings.alarmThreshold.toNat 0 = 0 := if_pos positive
    simp only [streaks, List.splitOn_nil, List.map_singleton, List.length_nil, List.sum_singleton,
      none]
    rfl

/-- A turn of a worker without output that finds nothing to pull leaves all devices as they are. -/
theorem turn_idle {w : Worker σ} {p : Plane} (silent : w.target? = none)
    (nothing : ∀ w' : Worker σ, w'.input = w.input → ∀ want, w'.pull p want = ([], p)) :
    (w.turn p).crashed = false ∧ (w.turn p).plane.devices = p.devices := by
  -- Without packets and without output, only the report is left of a turn.
  have fixed := (w.allowance_leads (p.clock w.clock).now p).fixed
  have pulled := nothing _ (congrArg Fixture.input fixed) (w.allowance (p.clock w.clock).now).1
  have unheard : (w.allowance (p.clock w.clock).now).2.target? = none :=
    (target?_eq fixed).trans silent
  simp only [turn, pulled, List.isEmpty_nil, if_true, finishTurn]
  refine ⟨trivial, (lookout_reportAt _ _ _).2.trans ?_⟩
  have quiet : ∀ w' : Worker σ, w'.target? = none → (w'.push p).2.devices = p.devices := by
    intro w' none
    simp only [push, none]
    rfl
  exact quiet _ unheard

end Worker

/-- A device of one network port after its only queue was opened and its link was cut a number of
times. -/
def cutOff : Nat → Traffic
  -- A link that is down can be cut again, and each time is reported as an error.
  | 0 => Traffic.pairMade.call (.openPort Traffic.onlyId 4 4)
  | times + 1 => (cutOff times).call (.setLink 0 false)

/-- Each time that the link was cut is an error, and no time leaves it up. -/
theorem cutOff_nic (times : Nat) : ∃ nic, (cutOff times).device.nic 0 = .ok nic ∧
    nic.errors = UInt64.ofNat times ∧ (0 < times → nic.linkUp = false) := by
  -- By induction on how often the link was cut.
  induction times with
  | zero => exact ⟨_, (by cbv), rfl, fun none => absurd none (Nat.lt_irrefl 0)⟩
  | succ times ih =>
    obtain ⟨nic, found, errors, -⟩ := ih
    have cut : (cutOff (times + 1)).device.nic 0 =
        .ok (({ nic with linkUp := false } : Nic).report .linkDown) := by
      simp only [cutOff, Traffic.call, Device.setLink, found]
      exact (Device.nic_setNic found 0).trans (if_pos rfl)
    refine ⟨_, cut, ?_, fun _ => rfl⟩
    rw [Nic.report, errors, UInt64.ofNat_add]
    rfl

/-- A plane with that device alone. -/
def Plane.cut (times : Nat) : Plane :=
  -- There are neither buffers nor clocks.
  { devices := #[(cutOff times).device] }

/-- The error count of the port whose link was cut. -/
theorem Plane.errorCount_cut (times : Nat) : (cut times).errorCount 0 0 = UInt64.ofNat times := by
  -- The only device has the only network port.
  obtain ⟨nic, found, errors, -⟩ := cutOff_nic times
  have there : (cut times).device? 0 = some (cutOff times).device := rfl
  simp only [errorCount, there, Device.errorCount, found, errors]

/-- Nothing is received from a port without link. -/
theorem Device.rxBurst_linkless {d : Device} {port : Port}
    (down : d.linkless port.id.device = true) (limit : Nat) : d.rxBurst port limit = ([], d) := by
  -- A port that owns nothing receives nothing either.
  rw [rxBurst]
  cases owned : d.owned? port with
  | none => rfl
  | some found =>
    obtain ⟨nic, queue, rings⟩ := found
    have there : d.nic port.id.device = .ok nic := by
      rw [Device.nic, (owned?_eq_some owned).1]
    rw [linkless_eq there] at down
    simp only [down, if_true]

/-- Nothing is received from the port whose link was cut. -/
theorem Plane.rxBurst_cut {times : Nat} (down : 0 < times) (limit : Nat) :
    (cut times).rxBurst Traffic.onlyPort limit = ([], cut times) := by
  -- The link was cut at least once, and is down since.
  obtain ⟨nic, found, -, severed⟩ := cutOff_nic times
  have linkless : (cutOff times).device.linkless 0 = true := by
    rw [Device.linkless_eq found, severed down]
    rfl
  have none : (cutOff times).device.rxBurst Traffic.onlyPort limit = ([], (cutOff times).device) :=
    Device.rxBurst_linkless linkless limit
  have there : (cut times).device? Traffic.onlyPort.device = some (cutOff times).device := rfl
  simp only [rxBurst, there, none]
  rfl

namespace Worker

/-- A worker without output that pulls from that port. -/
theorem turn_cut {w : Worker Unit} (input : w.input = .port Traffic.onlyPort)
    (output : w.output = .discard) {times : Nat} (down : 0 < times) :
    (w.turn (Plane.cut times)).crashed = false ∧
      (w.turn (Plane.cut times)).plane.errorCount 0 0 = UInt64.ofNat times := by
  -- The worker finds nothing to pull, and has no output.
  have silent : w.target? = none := by
    rw [target?, output]
  have idle : (w.turn (Plane.cut times)).crashed = false ∧
      (w.turn (Plane.cut times)).plane.devices = (Plane.cut times).devices := by
    apply turn_idle silent
    intro w' same want
    rw [pull, same, input]
    split
    · rfl
    · exact Plane.rxBurst_cut down want
  refine ⟨idle.1, ?_⟩
  rw [Plane.errorCount_congr idle.2, Plane.errorCount_cut]

/-- Which error counts differ from the one before. -/
def changes (before : UInt64) : List Nat → List Bool
  -- Each is compared as it is counted, in 64 bits.
  | [] => []
  | count :: rest => (UInt64.ofNat count != before) :: changes (UInt64.ofNat count) rest

/-- Counts that go up one by one differ each time. -/
theorem changes_range (count before : Nat) :
    changes (UInt64.ofNat before) (List.range' (before + 1) count) = List.replicate count true := by
  -- By induction on the counts, each of which is one more than the one before it in 64 bits.
  induction count generalizing before with
  | zero => rfl
  | succ count ih =>
    have apart : UInt64.ofNat (before + 1) ≠ UInt64.ofNat before := by
      intro same
      have equal := congrArg UInt64.toNat same
      simp only [UInt64.toNat_ofNat'] at equal
      omega
    rw [List.range'_succ, changes, ih, List.replicate_succ, bne_iff_ne.mpr apart]

/-- Polls of such a worker while the link is cut from time to time. -/
theorem polls_cut {w : Worker Unit} (input : w.input = .port Traffic.onlyPort)
    (output : w.output = .discard) {times : List Nat} (down : ∀ count ∈ times, 0 < count)
    (before : UInt16 → UInt64) :
    (∃ last, w.polls (times.map Plane.cut) = some last) ∧
      w.errorCycles 0 before (times.map Plane.cut) = changes (before 0) times := by
  -- A turn leaves the worker's ends as they are.
  induction times generalizing w before with
  | nil => exact ⟨⟨w, rfl⟩, rfl⟩
  | cons count rest ih =>
    obtain ⟨alive, read⟩ := turn_cut input output (down count List.mem_cons_self)
    obtain ⟨pulled, -, turned⟩ := w.turn_leads (Plane.cut count) alive
    have ends := turned.fixed
    obtain ⟨polled, cycles⟩ := ih ((congrArg Fixture.input ends).trans input)
      ((congrArg Fixture.output ends).trans output)
      (fun other member => down other (List.mem_cons_of_mem _ member))
      ((w.turn (Plane.cut count)).plane.errorCount 0)
    have ports : watchedDevices w.input w.output = [0] := by
      rw [input, output]
      rfl
    refine ⟨?_, ?_⟩
    · simpa only [List.map_cons, polls, alive, Bool.false_eq_true, if_false] using polled
    · simp only [List.map_cons, errorCycles, ports, cycles, changes, read, List.any_cons,
        List.any_nil, Bool.or_false]

/-- A plan for a worker that watches that port and raises alarms at some threshold. -/
def cutPlan (threshold : UInt32) : WorkerPlan Unit where
  id := 0
  input := some (.port Traffic.onlyPort)
  process := passThrough Unit
  memory := ()
  settings := { alarmThreshold := threshold }
  watch := some 0

/-- A worker made to this plan polls while the link is cut from time to time. -/
theorem exists_cut {threshold : UInt32} (positive : threshold ≠ 0) {times : List Nat}
    (down : ∀ count ∈ times, 0 < count) :
    ∃ w last, ((cutPlan threshold).build (Plane.cut 0)).1 = .ok w ∧
      w.polls (times.map Plane.cut) = some last ∧
      w.errorCycles 0 (fun _ => 0) (times.map Plane.cut) = changes 0 times := by
  -- The plan passes its check, since its threshold is not zero.
  have checked : (cutPlan threshold).check = .ok (.port Traffic.onlyPort) := by
    simp [WorkerPlan.check, WorkerSettings.fault?, cutPlan, positive, defaultBurst]
  obtain ⟨w, built, input, output⟩ : ∃ w, ((cutPlan threshold).build (Plane.cut 0)).1 = .ok w ∧
      w.input = .port Traffic.onlyPort ∧ w.output = .discard := by
    simp only [WorkerPlan.build, checked]
    exact ⟨_, rfl, rfl, rfl⟩
  obtain ⟨⟨last, polled⟩, cycles⟩ := polls_cut input output down fun _ => 0
  exact ⟨w, last, built, polled, cycles⟩

/-- The device is always there. -/
theorem present_cut (times : List Nat) : ∀ plane ∈ times.map Plane.cut, 0 < plane.devices.size := by
  -- Each plane is one with the device.
  intro plane member
  obtain ⟨count, -, rfl⟩ := List.mem_map.mp member
  exact Nat.one_pos

/-- Take a worker made to any plan that watches the errors of a device, and let it poll any number
of times while others change its plane in any way in between. A turn is an error cycle when one of
the network ports that the worker watches has another error count, at its end, than in the turn
before, or than zero in the first one. The worker counts the error cycles, and each streak of them
raises one alarm when it is as long as the threshold. Only with the largest threshold of all, which
the count of a streak cannot pass, each further cycle of the streak raises one more. -/
theorem streaks_raise_alarms {plan : WorkerPlan σ} {start : Plane} {w last : Worker σ}
    {planes : List Plane} {source : Nat} (built : (plan.build start).1 = .ok w)
    (watching : plan.watch = some source)
    (present : ∀ plane ∈ planes, source < plane.devices.size)
    (polled : w.polls planes = some last) :
    let threshold := plan.settings.alarmThreshold.toNat
    let cycles := w.errorCycles source (fun _ => 0) planes
    last.counters.deviceErrors = UInt64.ofNat (cycles.count true) ∧
    last.counters.alarms = UInt64.ofNat ((streaks cycles).map (raised threshold)).sum ∧
    ((threshold = UInt32.size - 1 → ∀ streak ∈ streaks cycles, streak ≤ threshold) →
      last.counters.alarms = UInt64.ofNat ((streaks cycles).countP (threshold ≤ ·))) := by
  -- The worker tells of the streaks as they come, and alarms are the sum of what each has raised.
  obtain ⟨positive, fresh⟩ := build_tells built watching
  obtain ⟨latest, tells⟩ := fresh.polls positive present polled
  rw [List.nil_append] at tells
  refine ⟨tells.errors, tells.alarms, ?_⟩
  intro moderate
  rw [tells.alarms, sum_raised moderate]

/-- With a threshold of two cycles, a streak of three and, after a clean cycle, a streak of two
raise one alarm each. -/
theorem streaks_raise_alarms_cut : ∃ w last,
    ((cutPlan 2).build (Plane.cut 0)).1 = .ok w ∧
    w.polls ([1, 2, 3, 3, 4, 5].map Plane.cut) = some last ∧
    w.errorCycles 0 (fun _ => 0) ([1, 2, 3, 3, 4, 5].map Plane.cut) =
      [true, true, true, false, true, true] ∧
    last.counters.deviceErrors = 5 ∧ last.counters.alarms = 2 := by
  -- The error cycles are computed from the counts, and the theorem turns them into alarms.
  obtain ⟨w, last, built, polled, cycles⟩ :=
    exists_cut (by decide : (2 : UInt32) ≠ 0) (by decide : ∀ count ∈ [1, 2, 3, 3, 4, 5], 0 < count)
  have counted : changes 0 [1, 2, 3, 3, 4, 5] = [true, true, true, false, true, true] := by decide
  obtain ⟨errors, -, alarms⟩ := streaks_raise_alarms built rfl (present_cut _) polled
  rw [counted] at cycles
  rw [cycles] at errors alarms
  refine ⟨w, last, built, polled, cycles, errors, ?_⟩
  exact alarms fun last => absurd last (by decide)

/-- When the link is cut before each of `2 ^ 32` turns, all of them are one streak of error cycles,
which reaches the largest threshold once. It raises two alarms. -/
theorem second_alarm : ∃ w last,
    let planes := (List.range' 1 UInt32.size).map Plane.cut
    let cycles := w.errorCycles 0 (fun _ => 0) planes
    ((cutPlan 0xffffffff).build (Plane.cut 0)).1 = .ok w ∧ w.polls planes = some last ∧
    (streaks cycles).countP ((0xffffffff : UInt32).toNat ≤ ·) = 1 ∧
    last.counters.alarms = 2 := by
  have positive : (0xffffffff : UInt32) ≠ 0 := by decide
  -- The number of turns has a name, lest they be counted one by one.
  generalize size : UInt32.size = count
  have down : ∀ time ∈ List.range' 1 count, 0 < time := by
    intro time member
    exact (List.mem_range'_1.mp member).1
  obtain ⟨w, last, built, polled, cycles⟩ := exists_cut positive down
  obtain ⟨met, fresh⟩ := build_tells built rfl
  obtain ⟨latest, tells⟩ := fresh.polls met (present_cut _) polled
  have streak : streaks (w.errorCycles 0 (fun _ => 0) ((List.range' 1 count).map Plane.cut)) =
      [count] := by
    rw [cycles, ← streaks_replicate count]
    exact congrArg streaks (changes_range count 0)
  refine ⟨w, last, built, polled, ?_, ?_⟩
  · rw [streak, ← size]
    rfl
  · have alarms : last.counters.alarms =
        UInt64.ofNat ((streaks (w.errorCycles 0 (fun _ => 0)
          ((List.range' 1 count).map Plane.cut))).map (raised (0xffffffff : UInt32).toNat)).sum :=
      tells.alarms
    rw [alarms, streak, ← size]
    rfl

end Worker

end PacketPlane
