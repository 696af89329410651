import Mathlib.Logic.Relation
import PacketPlane.Proofs.Worker.Custody

/-! Strokes: the small steps that a worker's work is made of, each with all that it changes. -/

namespace PacketPlane

/-- Planes with the same buffers, rings, devices and taps. -/
structure Plane.Alike (before after : Plane) : Prop where
  buffers : after.buffers = before.buffers
  rings : after.rings = before.rings
  devices : after.devices = before.devices
  taps : after.taps = before.taps

/-- A plane is like itself. -/
theorem Plane.Alike.refl (p : Plane) : p.Alike p :=
  -- Nothing that is compared differs.
  ⟨rfl, rfl, rfl, rfl⟩

/-- The capacity of the ring under a number. -/
def Plane.ringCapacity (p : Plane) (number : Nat) : Nat :=
  -- Nothing fits on a ring that does not exist.
  match p.ring? number with
  | none => 0
  | some ring => ring.capacity

/-- Packets fetched from a place by somebody who leaves taps and the sizes of rings alone. -/
structure Plane.Fetches (before after : Plane) (place : Place) (packets : List Packet) : Prop
    extends Plane.Pulls before after place packets where
  taps : after.taps = before.taps
  capacities : ∀ number, after.ringCapacity number = before.ringCapacity number

/-- The packets of a tally put on a worker's counters. -/
def Worker.recordTally (w : Worker σ) (tally : Tally) : Worker σ :=
  -- What the processor dropped is counted before what was sent.
  let w := if tally.dropped > 0 then
      { w with counters := w.counters.recordDrop (UInt64.ofNat tally.dropped) }
    else w
  w.recordOutcome tally.outcome

/-- A worker at work: itself and its plane, the packets in its hands, and what it has not counted
yet. -/
structure Desk (σ : Type) where
  worker : Worker σ
  plane : Plane
  hand : List Packet := []
  tally : Tally := {}

/-- One small step of a worker's work. Only a worker that loses packets gives up what waits. -/
inductive Stroke {σ : Type} (loses : Bool) : Desk σ → Desk σ → Prop
  /-- Times, reports, pacing and errors are noted. -/
  | note {w w' : Worker σ} {p p' : Plane} {hand : List Packet} {tally : Tally}
      (fixed : w'.fixture = w.fixture) (memory : w'.memory = w.memory)
      (pending : w'.backlog.pending = w.backlog.pending)
      (counters : w'.counters.stable = w.counters.stable) (alike : p.Alike p') :
      Stroke loses ⟨w, p, hand, tally⟩ ⟨w', p', hand, tally⟩
  /-- Packets are pulled off the input and counted. -/
  | take {w : Worker σ} {p p' : Plane} {packets : List Packet} {tally : Tally}
      (fetched : p.Fetches p' w.input.place packets) :
      Stroke loses ⟨w, p, [], tally⟩
        ⟨{ w with counters := w.counters.recordRx (UInt64.ofNat packets.length)
                    (UInt64.ofNat (p.buffers.totalLen packets)) }, p', packets, tally⟩
  /-- The processor drops a packet. -/
  | drop {w : Worker σ} {p : Plane} {packet : Packet} {rest : List Packet} {tally : Tally}
      {decision : Decision σ} (context : Context)
      (decided : w.process context packet w.memory p.toSurroundings = decision)
      (verdict : decision.verdict = .drop) :
      Stroke loses ⟨w, p, packet :: rest, tally⟩
        ⟨{ w with memory := decision.memory },
          ({ p with toSurroundings := decision.surroundings } : Plane).mapBuffers
            (·.release packet),
          rest, { tally with dropped := tally.dropped + 1 }⟩
  /-- The processor lets a packet through, which then waits for the output. -/
  | forward {w w' : Worker σ} {p p' : Plane} {packet : Packet} {rest : List Packet} {tally : Tally}
      {decision : Decision σ} (context : Context)
      (decided : w.process context packet w.memory p.toSurroundings = decision)
      (verdict : decision.verdict = .forward) (output : w.target?.isSome)
      (shown : ({ w with memory := decision.memory } : Worker σ).capturePacket packet
        { p with toSurroundings := decision.surroundings } = (w', p')) :
      Stroke loses ⟨w, p, packet :: rest, tally⟩
        ⟨{ w' with backlog := { w'.backlog with pending := w'.backlog.pending ++ [packet] } }, p',
          rest, tally⟩
  /-- The processor lets a packet through that no output is there for. -/
  | deliver {w w' : Worker σ} {p p' : Plane} {packet : Packet} {rest : List Packet} {tally : Tally}
      {decision : Decision σ} (context : Context)
      (decided : w.process context packet w.memory p.toSurroundings = decision)
      (verdict : decision.verdict = .forward) (output : w.target? = none)
      (shown : ({ w with memory := decision.memory } : Worker σ).capturePacket packet
        { p with toSurroundings := decision.surroundings } = (w', p')) :
      Stroke loses ⟨w, p, packet :: rest, tally⟩
        ⟨w', p'.mapBuffers (·.release packet), rest,
          { tally with outcome := { tally.outcome with
            sent := tally.outcome.sent + 1
            sentBytes := tally.outcome.sentBytes + p'.buffers.len packet } }⟩
  /-- What waits is handed to the output, which may refuse some of it. -/
  | offer {w : Worker σ} {p p' : Plane} {hand : List Packet} {tally : Tally} {target : Target}
      {outcome : Outcome} {backlog : Backlog} (output : w.target? = some target)
      (tried : w.backlog.tryFlush target.sender p = (outcome, backlog, p')) :
      Stroke loses ⟨w, p, hand, tally⟩
        ⟨{ w with backlog }, p', hand, { tally with outcome := tally.outcome.merge outcome }⟩
  /-- What waits is given up. -/
  | giveUp {w : Worker σ} {p : Plane} {hand : List Packet} {tally : Tally} (may : loses = true) :
      Stroke loses ⟨w, p, hand, tally⟩
        ⟨{ w with backlog := { w.backlog with pending := [] } }, p.releaseAll w.backlog.pending,
          hand, { tally with outcome := { tally.outcome with
            dropped := tally.outcome.dropped + w.backlog.len } }⟩
  /-- What came of packets is counted. -/
  | settle {w : Worker σ} {p : Plane} {tally : Tally} :
      Stroke loses ⟨w, p, [], tally⟩ ⟨w.recordTally tally, p, [], {}⟩

/-- Any number of small steps. -/
abbrev Strokes {σ : Type} (loses : Bool) : Desk σ → Desk σ → Prop :=
  Relation.ReflTransGen (Stroke loses)

namespace Plane

variable {p : Plane}

/-- A ring replaced by one of the same capacity leaves all capacities as they were. -/
theorem ringCapacity_setRing {number : Nat} {old r : Ring Packet}
    (found : p.ring? number = some old) (same : r.capacity = old.capacity) (other : Nat) :
    (p.setRing number r).ringCapacity other = p.ringCapacity other := by
  -- The ring itself or another one is asked for.
  have replaced := setRing_replaces found r
  by_cases here : other = number
  · have now : (p.setRing number r).ring? number = some r := replaced.here
    rw [here, ringCapacity, ringCapacity, now, found]
    exact same
  · have kept : (p.setRing number r).ring? other = p.ring? other :=
      replaced.elsewhere (.ring other) fun clash => here (Place.ring.inj clash)
    rw [ringCapacity, ringCapacity, kept]

/-- Packets taken off a ring are fetched from it. -/
theorem dequeueBulk_fetches (p : Plane) (number limit : Nat) :
    p.Fetches (p.dequeueBulk number limit).2.2 (.ring number) (p.dequeueBulk number limit).1 := by
  -- A ring that is not there gives nothing. One that is keeps its capacity when packets leave it.
  refine ⟨p.dequeueBulk_pulls number limit, ?_, ?_⟩
  · rw [dequeueBulk]
    split <;> rfl
  · intro other
    rw [dequeueBulk]
    cases found : p.ring? number with
    | none => rfl
    | some r => exact ringCapacity_setRing found (r.capacity_dequeueBulk limit) other

/-- Packets received from a port are fetched from its receive ring. -/
theorem rxBurst_fetches (p : Plane) (port : Port) (limit : Nat) :
    p.Fetches (p.rxBurst port limit).2 (.received port) (p.rxBurst port limit).1 := by
  -- A port's receive ring is no numbered one, so all capacities are out of reach.
  refine ⟨p.rxBurst_pulls port limit, ?_, ?_⟩
  · rw [rxBurst]
    split <;> rfl
  · intro other
    rw [rxBurst]
    split <;> rfl

/-- Nothing fetched. -/
theorem Fetches.refl (p : Plane) (place : Place) : p.Fetches p place [] :=
  -- Nothing is pulled, and nothing else differs.
  ⟨Pulls.refl p place, rfl, fun _ => rfl⟩

end Plane

namespace Worker

variable {σ : Type} {loses : Bool}

/-- A stroke that only notes something about the worker itself. -/
theorem note_worker {w w' : Worker σ} (p : Plane) (hand : List Packet) (tally : Tally)
    (fixed : w'.fixture = w.fixture) (memory : w'.memory = w.memory)
    (pending : w'.backlog.pending = w.backlog.pending)
    (counters : w'.counters.stable = w.counters.stable) :
    Strokes loses ⟨w, p, hand, tally⟩ ⟨w', p, hand, tally⟩ :=
  -- The plane stays, so it is like itself.
  .single (.note fixed memory pending counters (Plane.Alike.refl p))

/-- A worker that keeps its ends keeps its output. -/
theorem target?_eq {w w' : Worker σ} (fixed : w'.fixture = w.fixture) : w'.target? = w.target? := by
  -- The output is one of the ends, and these are fixed.
  have same := ends_eq fixed
  exact congrArg Ends.target same

/-- Showing a packet to a tap changes the counters and the plane alone. -/
theorem fixture_capturePacket (w : Worker σ) (packet : Packet) (p : Plane) :
    (w.capturePacket packet p).1.fixture = w.fixture ∧
      (w.capturePacket packet p).1.backlog = w.backlog ∧
      (w.capturePacket packet p).1.memory = w.memory := by
  -- With a tap or without, at most a count is raised.
  rw [capturePacket]
  split
  · exact ⟨rfl, rfl, rfl⟩
  · split <;> exact ⟨rfl, rfl, rfl⟩

/-- Counting a tally changes counters and nothing else. -/
theorem recordTally_eq (w : Worker σ) (tally : Tally) :
    w.recordTally tally = { w with counters := (w.recordTally tally).counters } := by
  -- Whether something was sent or not, the record is of counters.
  rw [recordTally]
  split <;> rfl

/-- A stroke leaves alone what stays of a worker. -/
theorem Stroke.fixed {a b : Desk σ} (stroke : Stroke loses a b) :
    b.worker.fixture = a.worker.fixture := by
  -- By stroke. Only an offer replaces the backlog by one computed elsewhere, which has the same
  -- threshold and policy.
  have shows : ∀ {w w' : Worker σ} {packet : Packet} {p p' : Plane},
      w.capturePacket packet p = (w', p') → w'.fixture = w.fixture := by
    intro w w' packet p p' shown
    have kept := (w.fixture_capturePacket packet p).1
    rwa [shown] at kept
  cases stroke with
  | note fixed => exact fixed
  | take => rfl
  | drop => rfl
  | forward context decided verdict output shown => exact (shows shown :)
  | deliver context decided verdict output shown => exact (shows shown :)
  | @offer w p p' hand tally target outcome backlog output tried =>
    have sink : w.ends.target = some target := output
    obtain ⟨⟨accepted, delivers⟩, -⟩ := Backlog.tryFlush_delivers sink w.backlog p
    rw [tried] at delivers
    have threshold : backlog.threshold = w.backlog.threshold := delivers.threshold
    have policy : backlog.policy = w.backlog.policy := delivers.policy
    simp only [fixture, threshold, policy]
  | giveUp => rfl
  | settle =>
    rw [recordTally_eq]
    rfl

/-- So do any number of strokes. -/
theorem Strokes.fixed {a b : Desk σ} (strokes : Strokes loses a b) :
    b.worker.fixture = a.worker.fixture := by
  -- One stroke follows the other.
  induction strokes with
  | refl => rfl
  | tail _ stroke ih => exact (Stroke.fixed stroke).trans ih

/-- A packet put behind the others waits, and all that wait may be handed to the output. -/
theorem buffer_strokes (w : Worker σ) {target : Target} (output : w.target? = some target)
    (packet : Packet) (rest : List Packet) (tally : Tally) (p : Plane) :
    let (outcome, backlog, after) := w.backlog.buffer packet target.sender p
    Strokes loses
      ⟨{ w with backlog := { w.backlog with pending := w.backlog.pending ++ [packet] } }, p, rest,
        tally⟩
      ⟨{ w with backlog }, after, rest, { tally with outcome := tally.outcome.merge outcome }⟩ := by
  -- A backlog below its threshold takes no further stroke. One that reached it is offered whole.
  simp only [Backlog.buffer]
  split
  · have nothing : tally.outcome.merge {} = tally.outcome := by
      simp [Outcome.merge]
    simp only [nothing]
    exact .refl
  · obtain ⟨⟨outcome, backlog, after⟩, tried⟩ : ∃ flushed, Backlog.tryFlush
        { w.backlog with pending := w.backlog.pending ++ [packet] } target.sender p = flushed :=
      ⟨_, rfl⟩
    have offered : Stroke loses
        ⟨{ w with backlog := { w.backlog with pending := w.backlog.pending ++ [packet] } }, p, rest,
          tally⟩
        ⟨{ w with backlog }, after, rest, { tally with outcome := tally.outcome.merge outcome }⟩ :=
      .offer output tried
    simp only [tried]
    split
    · -- An emptied backlog forgets its attempts.
      exact .tail (.single offered) (.note rfl rfl rfl rfl (Plane.Alike.refl after))
    · exact .single offered

/-- A packet let through leaves the worker's hands. -/
theorem forward_strokes {w : Worker σ} {context : Context} {packet : Packet} {p : Plane}
    {decision : Decision σ}
    (decided : w.process context packet w.memory p.toSurroundings = decision)
    (verdict : decision.verdict = .forward) (rest : List Packet) (tally : Tally) :
    let work := ({ w with memory := decision.memory } : Worker σ).forward packet tally
      { p with toSurroundings := decision.surroundings }
    Strokes loses ⟨w, p, packet :: rest, tally⟩ ⟨work.worker, work.plane, rest, work.tally⟩ := by
  -- The tap changes neither ends nor backlog, so the worker has an output after it when it had one
  -- before.
  obtain ⟨⟨w', p'⟩, shown⟩ : ∃ pair, ({ w with memory := decision.memory } : Worker σ).capturePacket
      packet { p with toSurroundings := decision.surroundings } = pair := ⟨_, rfl⟩
  have kept : w'.fixture = w.fixture := by
    have fixed := (({ w with memory := decision.memory } : Worker σ).fixture_capturePacket packet
      { p with toSurroundings := decision.surroundings })
    rw [shown] at fixed
    exact fixed.1
  have same := target?_eq kept
  simp only [forward, shown]
  cases output : w'.target? with
  | some target =>
    have there : w.target?.isSome := by
      rw [← same, output]
      rfl
    exact .head (.forward context decided verdict there shown)
      (w'.buffer_strokes output packet rest tally p')
  | none => exact .single (.deliver context decided verdict (same ▸ output) shown)

/-- Packets in hand are processed one after another, unless the processor dies. -/
theorem processAll_strokes (context : Context) (packets : List Packet) (work : Work σ)
    (alive : (processAll context packets work).crashed = false) :
    let done := processAll context packets work
    Strokes loses ⟨work.worker, work.plane, packets, work.tally⟩
      ⟨done.worker, done.plane, [], done.tally⟩ := by
  -- Each packet leaves the worker's hands in its turn.
  induction packets generalizing work with
  | nil => exact .refl
  | cons packet rest ih =>
    simp only [processAll] at alive ⊢
    generalize decided : work.worker.process context packet work.worker.memory
      work.plane.toSurroundings = decision at alive ⊢
    cases verdict : decision.verdict with
    | forward =>
      simp only [verdict] at alive ⊢
      exact (forward_strokes decided verdict rest work.tally).trans (ih _ alive)
    | drop =>
      simp only [verdict] at alive ⊢
      exact .head (.drop context decided verdict) (ih _ alive)
    | crash => simp [verdict] at alive

/-- Fetched packets are processed and counted, unless the processor dies. -/
theorem processBurst_strokes {w : Worker σ} {p q : Plane} {packets : List Packet}
    (fetched : p.Fetches q w.input.place packets) (now : UInt64)
    (alive : (w.processBurst now packets q).crashed = false) :
    let burst := w.processBurst now packets q
    Strokes loses ⟨w, p, [], {}⟩ ⟨burst.worker, burst.plane, [], {}⟩ := by
  -- One stroke takes the packets, one each decides about them, and one settles the count.
  have same : q.buffers.totalLen packets = p.buffers.totalLen packets := by
    rw [fetched.surroundings]
  simp only [processBurst, same] at alive ⊢
  have taken : Stroke loses ⟨w, p, [], {}⟩ _ := .take fetched
  split at alive
  · cases alive
  · rename_i living
    rw [if_neg living]
    rw [Bool.not_eq_true] at living
    exact (Relation.ReflTransGen.head taken (processAll_strokes _ _ _ living)).tail .settle

/-- What waits is given up, and counted with the rest. -/
theorem dropPending_strokes (may : loses = true) (w : Worker σ) (p : Plane) (outcome : Outcome)
    (none : outcome.dropped = 0) :
    let (dropped, backlog, after) := w.backlog.dropPending p
    Strokes loses ⟨w, p, [], { outcome }⟩
      ⟨({ w with backlog }).recordOutcome { outcome with dropped }, after, [], {}⟩ := by
  -- Three strokes: what waits is given up, the backlog counts its drops, and the tally is settled.
  have given : Stroke loses ⟨w, p, [], { outcome }⟩ _ := .giveUp may
  simp only [none, Nat.zero_add] at given
  let emptied : Worker σ := { w with
    backlog := { w.backlog with
      pending := [], attempts := 0, dropped := w.backlog.dropped + UInt64.ofNat w.backlog.len } }
  have noted : Stroke loses
      ⟨{ w with backlog := { w.backlog with pending := [] } }, p.releaseAll w.backlog.pending, [],
        { outcome := { outcome with dropped := w.backlog.len } }⟩
      ⟨emptied, p.releaseAll w.backlog.pending, [],
        { outcome := { outcome with dropped := w.backlog.len } }⟩ :=
    .note rfl rfl rfl rfl (Plane.Alike.refl _)
  exact .tail (.tail (.single given) noted) .settle

/-- What waits is handed to an output, with what came of it still to be counted. -/
theorem tryFlush_strokes (loses : Bool) (w : Worker σ) {target : Target}
    (output : w.target? = some target) (p : Plane) :
    let (outcome, backlog, after) := w.backlog.tryFlush target.sender p
    Strokes loses ⟨w, p, [], {}⟩ ⟨{ w with backlog }, after, [], { outcome }⟩ := by
  -- One offer from an empty tally, to which merging adds nothing.
  obtain ⟨⟨outcome, backlog, after⟩, tried⟩ : ∃ flushed,
      w.backlog.tryFlush target.sender p = flushed := ⟨_, rfl⟩
  have merged : ({} : Tally).outcome.merge outcome = outcome := by
    simp [Outcome.merge]
  have offered : Stroke loses ⟨w, p, [], {}⟩ _ := .offer output tried
  rw [merged] at offered
  rw [tried]
  exact .single offered

/-- What waits is pushed out through an output. A worker that loses nothing needs one that accepts
everything. -/
theorem push_strokes (w : Worker σ) {target : Target} (output : w.target? = some target) (p : Plane)
    (yields : loses = true ∨ (w.backlog.tryFlush target.sender p).2.1.pending = []) :
    Strokes loses ⟨w, p, [], {}⟩ ⟨(w.push p).1, (w.push p).2, [], {}⟩ := by
  -- After the offer the attempts are noted and the tally is settled. In between, a backlog that has
  -- had enough gives up, which a worker that loses nothing never comes to.
  have offered := w.tryFlush_strokes loses output p
  have sink : w.ends.target = some target := output
  have kept := (Backlog.tryFlush_delivers sink w.backlog p).2
  simp only [push, output, Backlog.flush]
  generalize w.backlog.tryFlush target.sender p = flushed at yields offered kept ⊢
  obtain ⟨outcome, backlog, after⟩ := flushed
  simp only at yields offered kept ⊢
  have noted : ∀ attempts, Strokes loses ⟨w, p, [], {}⟩
      ⟨{ w with backlog := { backlog with attempts } }, after, [], { outcome }⟩ := by
    intro attempts
    exact offered.tail (.note rfl rfl rfl rfl (Plane.Alike.refl after))
  split
  · exact (noted 0).tail .settle
  · rename_i waiting
    split
    · have may : loses = true := by
        apply yields.resolve_right
        intro empty
        exact waiting (List.isEmpty_iff.mpr empty)
      exact (noted _).trans (dropPending_strokes may _ after outcome kept)
    · exact (noted _).tail .settle

/-- A worker without output that nothing waits for pushes nothing. -/
theorem push_idle (w : Worker σ) (output : w.target? = none) (empty : w.backlog.pending = [])
    (p : Plane) :
    Strokes loses ⟨w, p, [], {}⟩ ⟨(w.push p).1, (w.push p).2, [], {}⟩ := by
  -- Discarding nothing counts nothing.
  have nothing : (w.push p).2 = p := by
    simp only [push, output, Backlog.discard, empty]
    rfl
  rw [nothing]
  apply note_worker
  · simp [push, output, Backlog.discard, fixture, recordOutcome]
  · simp [push, output, Backlog.discard, recordOutcome]
  · simp [push, output, Backlog.discard, recordOutcome, empty]
  · simp [push, output, Backlog.discard, recordOutcome, empty, Backlog.len]

/-- The end of a turn notes times and errors after pushing out what waits. -/
theorem finishTurn_strokes (w : Worker σ) (began : UInt64) (pulled : Nat) (p : Plane) :
    let turn := w.finishTurn began pulled p
    Strokes loses ⟨(w.push p).1, (w.push p).2, [], {}⟩ ⟨turn.worker, turn.plane, [], {}⟩ := by
  -- The check and the report are notes, as neither touches packets.
  have checked : ∀ (w : Worker σ) (q : Plane),
      (w.checkDevices q).fixture = w.fixture ∧ (w.checkDevices q).memory = w.memory ∧
        (w.checkDevices q).backlog = w.backlog ∧
        (w.checkDevices q).counters.stable = w.counters.stable := by
    intro w q
    rw [checkDevices]
    split
    · exact ⟨rfl, rfl, rfl, rfl⟩
    · split
      · exact ⟨rfl, rfl, rfl, rfl⟩
      · refine ⟨rfl, rfl, rfl, ?_⟩
        dsimp only
        split <;> rfl
  have reported : ∀ (w : Worker σ) (q : Plane) (now : UInt64),
      Strokes loses ⟨w, q, [], {}⟩ ⟨(w.reportAt q now).1, (w.reportAt q now).2, [], {}⟩ := by
    intro w q now
    rw [reportAt]
    split
    · exact .single (.note rfl rfl rfl rfl ⟨rfl, rfl, rfl, rfl⟩)
    · exact .refl
  obtain ⟨fixed, memory, backlog, counters⟩ := checked (w.push p).1 (w.push p).2
  simp only [finishTurn]
  refine .trans ?_ (reported _ _ _)
  exact note_worker _ [] {} fixed memory (congrArg Backlog.pending backlog) counters

/-- Pulled packets are fetched from the input. -/
theorem pull_fetches (w : Worker σ) (p : Plane) (want : Nat) :
    p.Fetches (w.pull p want).2 w.input.place (w.pull p want).1 := by
  -- The input is asked for packets, if any are wanted.
  rw [pull]
  split
  · exact Plane.Fetches.refl p _
  · split
    · rename_i input
      rw [input]
      exact p.rxBurst_fetches _ want
    · rename_i input
      rw [input]
      exact p.dequeueBulk_fetches _ want

/-- A turn fetches and processes packets before its end, unless the processor dies. -/
theorem turn_strokes (loses : Bool) (w : Worker σ) (p : Plane) (alive : (w.turn p).crashed = false) :
    ∃ w' q began pulled, Strokes loses ⟨w, p, [], {}⟩ ⟨w', q, [], {}⟩ ∧
      w.turn p = w'.finishTurn began pulled q := by
  -- The allowance and what it spends are notes. After them the turn goes straight to its end, or
  -- processes what was fetched.
  simp only [turn] at alive ⊢
  obtain ⟨⟨want, w'⟩, allowed⟩ : ∃ wanted, w.allowance (p.clock w.clock).now = wanted := ⟨_, rfl⟩
  have asked : Strokes loses ⟨w, p, [], {}⟩ ⟨w', p, [], {}⟩ := by
    rw [allowance] at allowed
    split at allowed
    · cases allowed
      exact .refl
    · cases allowed
      exact note_worker p [] {} rfl rfl rfl rfl
  have fetched := w'.pull_fetches p want
  rw [allowed] at alive ⊢
  dsimp only at alive ⊢
  generalize w'.pull p want = pulled at fetched alive ⊢
  obtain ⟨packets, q⟩ := pulled
  dsimp only at fetched alive ⊢
  have spent : Strokes loses ⟨w, p, [], {}⟩ ⟨w'.spend packets.length, p, [], {}⟩ :=
    asked.trans (note_worker p [] {} rfl rfl rfl rfl)
  have fetched : p.Fetches q (w'.spend packets.length).input.place packets := fetched
  split
  · rename_i empty
    rw [List.isEmpty_iff] at empty
    subst empty
    have taken : Strokes loses ⟨w, p, [], {}⟩ _ := spent.tail (.take fetched)
    -- An empty turn notes that it was idle.
    have idle : Strokes loses ⟨w, p, [], {}⟩
        ⟨{ w'.spend ([] : List Packet).length with
            counters := (w'.spend ([] : List Packet).length).counters.recordIdle }, q, [], {}⟩ := by
      refine taken.trans (note_worker q [] {} rfl rfl rfl ?_)
      simp [Counters.recordIdle, Counters.stable, Counters.recordRx, Buffers.totalLen]
    exact ⟨_, q, _, 0, idle, rfl⟩
  · rename_i some
    rw [if_neg some] at alive
    split at alive
    · rename_i dead
      rw [dead] at alive
      cases alive
    · rename_i living
      rw [if_neg living]
      rw [Bool.not_eq_true] at living
      exact ⟨_, _, _, _, spent.trans (processBurst_strokes fetched _ living), rfl⟩

/-- One attempt to push out what waits. -/
theorem attempt_strokes (w : Worker σ) {target : Target} (output : w.target? = some target)
    (p : Plane) :
    Strokes loses ⟨w, p, [], {}⟩ ⟨(w.attempt p).1, (w.attempt p).2, [], {}⟩ := by
  -- One offer, and its outcome is settled.
  have offered := w.tryFlush_strokes loses output p
  simp only [attempt, output]
  exact offered.tail .settle

/-- A batch of a drain that finds packets processes them before it pushes out what waits, unless the
processor dies. -/
theorem drainBatch_strokes (loses : Bool) (w : Worker σ) (p : Plane) {number : Nat} (left : Nat)
    (input : w.input = .ring number) (alive : (w.drainBatch p left).crashed = false)
    (found : (p.dequeueBulk number (min left w.settings.burstSize.toNat)).1 ≠ []) :
    ∃ w' q, Strokes loses ⟨w, p, [], {}⟩ ⟨w', q, [], {}⟩ ∧ w.drainBatch p left =
      ⟨(p.dequeueBulk number (min left w.settings.burstSize.toNat)).1.length, false,
        (w'.flushPending q).1, (w'.flushPending q).2⟩ := by
  -- The packets are processed as in a turn. A batch that finds any goes on to its flush.
  have fetched := p.dequeueBulk_fetches number (min left w.settings.burstSize.toNat)
  simp only [drainBatch, input] at alive ⊢
  generalize p.dequeueBulk number (min left w.settings.burstSize.toNat) = taken at *
  obtain ⟨packets, remaining, q⟩ := taken
  have some : ¬ packets.isEmpty = true := fun empty => found (List.isEmpty_iff.mp empty)
  dsimp only at fetched alive ⊢
  rw [if_neg some] at alive ⊢
  split at alive
  · rename_i dead
    rw [dead] at alive
    cases alive
  · rename_i living
    rw [if_neg living]
    rw [Bool.not_eq_true] at living
    have place : w.input.place = .ring number := by
      rw [input]
      rfl
    have count : (w.processBurst (q.clock w.clock).now packets q).pulled = packets.length := by
      rw [processBurst]
      split <;> rfl
    refine ⟨_, _, processBurst_strokes (place ▸ fetched) _ living, ?_⟩
    rw [count]

end Worker

end PacketPlane
