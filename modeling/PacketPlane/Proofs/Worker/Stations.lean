import Mathlib.Logic.Function.Iterate
import PacketPlane.Proofs.Worker.Amid

/-! Stations: a worker between two of its small steps, with whoever else uses the plane in between. -/

namespace PacketPlane

/-- What a burst belongs to: a turn, with its beginning and how many packets it pulled, or a drain, with
how many packets it has left to take. -/
inductive Errand where
  | turn (began : UInt64) (pulled : Nat)
  | drain (left : Nat)
deriving DecidableEq, Repr

/-- What a worker does next: begin a turn, process a packet of a burst or count what became of all,
send what reached the threshold, end a turn in two steps, take a batch of a drain, or make one of so
many attempts to push out what waits before the drain goes on or ends. -/
inductive Point where
  | ready
  | working (context : Context) (errand : Errand)
  | sending (context : Context) (errand : Errand)
  | pushing (began : UInt64) (pulled : Nat)
  | closing (began : UInt64) (pulled : Nat)
  | draining (left : Nat)
  | flushing (attempts : Nat) (left : Option Nat)
  | finished
  | dead (errand : Errand)
deriving DecidableEq, Repr

/-- What follows on a burst: what waits is pushed out, in as many attempts as a drain makes. -/
def Errand.next (attempts : Nat) : Errand → Point
  -- A turn makes a single attempt.
  | .turn began pulled => .pushing began pulled
  | .drain left => .flushing attempts (some left)

/-- What follows on a flush: the next batch, unless the drain is over. -/
def Point.afterFlush : Option Nat → Point
  | some left => .draining left
  | none => .finished

/-- Whether a worker has come to a halt at a point: between two turns, or for good. -/
def Point.halts : Point → Bool
  | .ready | .finished | .dead _ => true
  | _ => false

/-- A worker between two small steps: itself and its plane, what it does next, the packets in its hands,
what it has not counted yet, the verdicts of its processor so far, and what its output accepted so far,
as it looked then. -/
structure Station (σ : Type) where
  worker : Worker σ
  plane : Plane
  point : Point := .ready
  hand : List Packet := []
  tally : Tally := {}
  verdicts : List Verdict := []
  sent : List Captured := []

namespace Station

variable {σ : Type}

/-- The part of what waits that the output accepts when it is handed all of it. -/
def accepted (s : Station σ) : List Captured :=
  -- Without an output, nothing is handed to any.
  match s.worker.target? with
  | none => []
  | some target =>
    let (outcome, _, _) := s.worker.backlog.tryFlush target.sender s.plane
    (s.worker.backlog.pending.take outcome.sent).map s.plane.buffers.capture

/-- A burst that was pulled is counted, and taken in hand. -/
def take (s : Station σ) (now : UInt64) (errand : Errand) (packets : List Packet) : Station σ :=
  -- The processor is told the time of the pull.
  let counters := s.worker.counters.recordRx (UInt64.ofNat packets.length)
    (UInt64.ofNat (s.plane.buffers.totalLen packets))
  { s with
    worker := { s.worker with counters }, hand := packets, tally := {}
    point := .working (s.worker.context s.plane now) errand }

/-- A turn begins: as many packets are pulled as the worker may. -/
def pull (s : Station σ) : Station σ :=
  -- A turn that pulls nothing goes on with what waits.
  let now := (s.plane.clock s.worker.clock).now
  let (want, w) := s.worker.allowance now
  let (packets, plane) := w.pull s.plane want
  let w := w.spend packets.length
  if packets.isEmpty then
    { s with worker := { w with counters := w.counters.recordIdle }, plane, point := .pushing now 0 }
  else ({ s with worker := w, plane } : Station σ).take now (.turn now packets.length) packets

/-- A packet that the processor lets through is shown to the tap and waits for the output. -/
def pass (s : Station σ) (context : Context) (errand : Errand) (packet : Packet)
    (rest : List Packet) : Station σ :=
  -- Without an output, the packet counts as sent and is given back.
  let (w, plane) := s.worker.capturePacket packet s.plane
  match w.target? with
  | some _ =>
    let backlog := { w.backlog with pending := w.backlog.pending ++ [packet] }
    { s with
      worker := { w with backlog }, plane, hand := rest
      point := if backlog.len < backlog.threshold then .working context errand
        else .sending context errand }
  | none =>
    let outcome := { s.tally.outcome with
      sent := s.tally.outcome.sent + 1
      sentBytes := s.tally.outcome.sentBytes + plane.buffers.len packet }
    { s with
      worker := w, plane := plane.mapBuffers (·.release packet), hand := rest
      tally := { s.tally with outcome } }

/-- The first packet in hand is processed. -/
def process (s : Station σ) (context : Context) (errand : Errand) (packet : Packet)
    (rest : List Packet) : Station σ :=
  -- A processor that dies takes the rest along.
  let decision := s.worker.process context packet s.worker.memory s.plane.toSurroundings
  let s := { s with
    worker := { s.worker with memory := decision.memory }
    plane := { s.plane with toSurroundings := decision.surroundings }
    verdicts := s.verdicts ++ [decision.verdict] }
  match decision.verdict with
  | .forward => s.pass context errand packet rest
  | .drop =>
    { s with
      plane := s.plane.mapBuffers (·.release packet), hand := rest
      tally := { s.tally with dropped := s.tally.dropped + 1 } }
  | .crash =>
    { s with plane := s.plane.releaseAll (packet :: rest), hand := [], point := .dead errand }

/-- What waits is handed to the output once the threshold is reached. -/
def send (s : Station σ) (context : Context) (errand : Errand) : Station σ :=
  -- Refused packets go on waiting.
  match s.worker.target? with
  | none => { s with point := .working context errand }
  | some target =>
    let (outcome, backlog, plane) := s.worker.backlog.tryFlush target.sender s.plane
    let backlog := if backlog.isEmpty then { backlog with attempts := 0 } else backlog
    { s with
      worker := { s.worker with backlog }, plane, point := .working context errand
      tally := { s.tally with outcome := s.tally.outcome.merge outcome }
      sent := s.sent ++ s.accepted }

/-- What became of a burst is counted. -/
def settle (s : Station σ) (errand : Errand) : Station σ :=
  -- What waits is pushed out next.
  { s with
    worker := s.worker.recordTally s.tally, tally := {}
    point := errand.next s.worker.settings.drainAttempts.toNat }

/-- What waits at the end of a turn is pushed out, and the policy is applied to the rest. -/
def push (s : Station σ) (began : UInt64) (pulled : Nat) : Station σ :=
  let (worker, plane) := s.worker.push s.plane
  { s with worker, plane, point := .closing began pulled, sent := s.sent ++ s.accepted }

/-- The end of a turn: a look for errors, the time, and a report when it is due. -/
def close (s : Station σ) (began : UInt64) (pulled : Nat) : Station σ :=
  -- Only turns that pulled something were busy.
  let w := s.worker.checkDevices s.plane
  let now := (s.plane.clock w.clock).now
  let busy := if pulled > 0 then Worker.cyclesSince began now else 0
  let w := { w with counters := w.counters.recordCycles busy (Worker.cyclesSince w.started now) }
  let (worker, plane) := w.reportAt s.plane now
  { s with worker, plane, point := .ready }

/-- A drain ends, but for what waits. -/
def conclude (s : Station σ) : Station σ :=
  { s with point := .flushing s.worker.settings.drainAttempts.toNat none }

/-- A batch of a drain is taken, as long as packets are left to take. -/
def batch (s : Station σ) (left : Nat) : Station σ :=
  -- No further packets are received from a port.
  match s.worker.input with
  | .port _ => s.conclude
  | .ring number =>
    if left = 0 then s.conclude
    else
      let (packets, _, plane) :=
        s.plane.dequeueBulk number (min left s.worker.settings.burstSize.toNat)
      let s := { s with plane }
      if packets.isEmpty then s.conclude
      else s.take (plane.clock s.worker.clock).now (.drain (left - packets.length)) packets

/-- One of the attempts of a flush, or its end. -/
def flush (s : Station σ) (attempts : Nat) (left : Option Nat) : Station σ :=
  -- What will not go is dropped.
  if s.worker.backlog.isEmpty then { s with point := .afterFlush left }
  else match attempts with
    | 0 =>
      let (dropped, backlog, plane) := s.worker.backlog.dropPending s.plane
      let counters := s.worker.counters.recordTxDrop (UInt64.ofNat dropped)
      { s with worker := { s.worker with backlog, counters }, plane, point := .afterFlush left }
    | attempts + 1 =>
      let (worker, plane) := s.worker.attempt s.plane
      { s with worker, plane, point := .flushing attempts left, sent := s.sent ++ s.accepted }

/-- The next small step. -/
def step (s : Station σ) : Station σ :=
  match s.point with
  | .ready => s.pull
  | .working context errand =>
    match s.hand with
    | [] => s.settle errand
    | packet :: rest => s.process context errand packet rest
  | .sending context errand => s.send context errand
  | .pushing began pulled => s.push began pulled
  | .closing began pulled => s.close began pulled
  | .draining left => s.batch left
  | .flushing attempts left => s.flush attempts left
  | .finished | .dead _ => s

/-- A worker that is ready turns to draining. -/
def stop (s : Station σ) : Station σ :=
  -- The bound is taken once, when the drain begins.
  { s with point := .draining (s.worker.drainCount s.plane) }

/-- A worker whose place, times or reports are set, as they are when its run begins. -/
def note (s : Station σ) (core : Option Nat) (reporter : Reporter) (started nextReport : UInt64) :
    Station σ :=
  { s with worker := { s.worker with core, reporter, started, nextReport } }

/-- Stations that a worker comes to: by its own steps, by turning to draining when it is ready, and with
anything done to the plane by others in between. -/
inductive Comes (start : Station σ) : Station σ → Prop
  | start : Comes start start
  | step {s : Station σ} (run : Comes start s) : Comes start s.step
  | note {s : Station σ} (run : Comes start s) (ready : s.point = .ready) (core : Option Nat)
    (reporter : Reporter) (started nextReport : UInt64) :
    Comes start (s.note core reporter started nextReport)
  | stop {s : Station σ} (run : Comes start s) (ready : s.point = .ready) : Comes start s.stop
  | others {s : Station σ} (run : Comes start s) (plane : Plane) : Comes start { s with plane }

/-- A worker goes on for any number of its own steps. -/
theorem Comes.steps {start s : Station σ} (run : start.Comes s) (count : Nat) :
    start.Comes (Station.step^[count] s) := by
  -- By induction on how many steps there are.
  induction count with
  | zero => exact run
  | succ count ih =>
    rw [Function.iterate_succ_apply']
    exact ih.step

/-- Stations that a worker's own steps lead to while nobody else uses the plane, without coming to a halt
before. -/
abbrev Walks : Station σ → Station σ → Prop :=
  Relation.ReflTransGen fun a b => a.point.halts = false ∧ b = a.step

/-- One own step first. -/
theorem Walks.head {a b : Station σ} (going : a.point.halts = false) (walks : a.step.Walks b) :
    a.Walks b :=
  -- The worker goes by its own step as long as it does not halt.
  Relation.ReflTransGen.head ⟨going, rfl⟩ walks

/-- A single own step. -/
theorem Walks.one {a : Station σ} (going : a.point.halts = false) : a.Walks a.step :=
  -- A walk of length one.
  .single ⟨going, rfl⟩

/-- A worker that halts has walked no further. -/
theorem Walks.halted {a b : Station σ} (halts : a.point.halts = true) (walks : a.Walks b) : b = a := by
  -- Its first step would need a worker that goes on.
  rcases walks.cases_head with same | ⟨next, ⟨going, -⟩, -⟩
  · exact same.symm
  · rw [halts] at going
    cases going

/-- There is only one station at which a worker comes to a halt. -/
theorem Walks.unique {a s t : Station σ} (first : a.Walks s) (second : a.Walks t)
    (halts : s.point.halts = true) (halts' : t.point.halts = true) : s = t := by
  -- As long as it has not come to a halt, its next step is the same on both ways.
  induction first using Relation.ReflTransGen.head_induction_on with
  | refl => exact (second.halted halts).symm
  | head moved rest ih =>
    obtain ⟨going, rfl⟩ := moved
    rcases second.cases_head with rfl | ⟨next, ⟨-, rfl⟩, more⟩
    · rw [going] at halts'
      cases halts'
    · exact ih more

/-- One packet is processed, and what waits is sent when that reached the threshold. -/
theorem walks_packet (s : Station σ) {context : Context} {errand : Errand} {packet : Packet}
    {rest : List Packet} (point : s.point = .working context errand) (hand : s.hand = packet :: rest) :
    let one := Worker.processAll context [packet] ⟨s.worker, s.tally, s.plane, false⟩
    ∃ t, s.Walks t ∧ t.worker = one.worker ∧ if one.crashed then t.point = .dead errand ∧
        t.plane = one.plane.releaseAll rest
      else t.point = .working context errand ∧ t.hand = rest ∧ t.plane = one.plane ∧
        t.tally = one.tally := by
  -- By verdict. Only a packet that goes forward and fills the backlog takes two steps, one to process
  -- it and one to send.
  have first : s.step = s.process context errand packet rest := by
    simp only [step, point, hand]
  have going : s.point.halts = false := by
    rw [point]
    rfl
  cases verdict : (s.worker.process context packet s.worker.memory s.plane.toSurroundings).verdict with
  | drop =>
    refine ⟨s.step, .one going, ?_⟩
    simp only [first, process, Worker.processAll, verdict, point, Bool.false_eq_true, if_false,
      and_self]
  | crash =>
    refine ⟨s.step, .one going, ?_⟩
    simp only [first, process, Worker.processAll, verdict, if_true, true_and]
    rfl
  | forward =>
    simp only [Worker.processAll, verdict, Worker.forward]
    simp only [process, verdict, pass] at first
    generalize ({ s.worker with memory := _ } : Worker σ).capturePacket packet _ = shown at first ⊢
    obtain ⟨w, p⟩ := shown
    cases output : w.target? with
    | none =>
      simp only [output] at first ⊢
      exact ⟨s.step, .one going, by simp [first, point]⟩
    | some target =>
      simp only [output] at first ⊢
      by_cases short : w.backlog.pending.length + 1 < w.backlog.threshold
      · refine ⟨s.step, .one going, ?_⟩
        simp [first, Backlog.buffer, Backlog.len, short, Outcome.merge]
      · -- The threshold is reached, so one more step sends what waits.
        have full : ¬ (w.backlog.pending ++ [packet]).length < w.backlog.threshold := by
          rwa [List.length_append, List.length_singleton]
        simp only [Backlog.len, full, if_false] at first
        have second : s.step.step = s.step.send context errand := by
          rw [first, step]
        have still : s.step.point.halts = false := by
          rw [first]
          rfl
        refine ⟨s.step.step, Walks.head going (.one still), ?_⟩
        have same : s.step.worker.target? = some target := by
          rw [first]
          exact output
        rw [second, send]
        simp only [same]
        simp only [first, Backlog.buffer, Backlog.len, full, if_false, Bool.false_eq_true, and_self]

/-- The packets in hand are processed one after another. -/
theorem walks_packets (s : Station σ) {context : Context} {errand : Errand}
    (point : s.point = .working context errand) :
    let work := Worker.processAll context s.hand ⟨s.worker, s.tally, s.plane, false⟩
    ∃ t, s.Walks t ∧ t.worker = work.worker ∧ t.plane = work.plane ∧
      if work.crashed then t.point = .dead errand
      else t.point = .working context errand ∧ t.hand = [] ∧ t.tally = work.tally := by
  -- Each packet is processed where the one before left off.
  generalize hand : s.hand = packets
  induction packets generalizing s with
  | nil => exact ⟨s, .refl, rfl, rfl, by simp [Worker.processAll, point, hand]⟩
  | cons packet rest ih =>
    obtain ⟨t, walks, worker, ends⟩ := s.walks_packet point hand
    rw [Worker.processAll_cons]
    generalize Worker.processAll context [packet] ⟨s.worker, s.tally, s.plane, false⟩ = one at *
    obtain ⟨w, tally, p, crashed⟩ := one
    cases crashed with
    | true =>
      obtain ⟨dead, plane⟩ := ends
      exact ⟨t, walks, worker, plane, dead⟩
    | false =>
      obtain ⟨still, left, plane, counted⟩ := ends
      obtain ⟨last, more, ends⟩ := ih t still left
      rw [worker, counted, plane] at ends
      exact ⟨last, walks.trans more, ends⟩

/-- A burst that was pulled is processed and counted. -/
theorem walks_burst (s : Station σ) (now : UInt64) (errand : Errand) (packets : List Packet) :
    let burst := s.worker.processBurst now packets s.plane
    ∃ t, (s.take now errand packets).Walks t ∧ t.worker = burst.worker ∧ t.plane = burst.plane ∧
      if burst.crashed then t.point = .dead errand
      else t.hand = [] ∧ t.tally = {} ∧
        t.point = errand.next burst.worker.settings.drainAttempts.toNat := by
  obtain ⟨t, walks, worker, plane, ends⟩ := (s.take now errand packets).walks_packets rfl
  -- What is taken in hand is counted as received before it is processed.
  have same : Worker.processAll (s.worker.context s.plane now) (s.take now errand packets).hand
      ⟨(s.take now errand packets).worker, (s.take now errand packets).tally,
        (s.take now errand packets).plane, false⟩ =
      Worker.processAll (s.worker.context s.plane now) packets
        ⟨{ s.worker with counters := (s.worker.counters.recordRx (UInt64.ofNat packets.length)
            (UInt64.ofNat (s.plane.buffers.totalLen packets))) }, {}, s.plane, false⟩ := rfl
  simp only [same] at worker plane ends
  simp only [Worker.processBurst]
  generalize Worker.processAll _ packets _ = work at worker plane ends ⊢
  by_cases dead : work.crashed = true
  · rw [if_pos dead] at ends
    simp only [dead, if_true]
    exact ⟨t, walks, worker, plane, ends⟩
  · rw [if_neg dead] at ends
    obtain ⟨point, hand, tally⟩ := ends
    -- With nothing left in hand, the next step counts what became of the burst.
    have last : t.step = t.settle errand := by
      simp only [step, point, hand]
    have settings : (work.worker.recordTally work.tally).settings = work.worker.settings := by
      rw [Worker.recordTally_eq]
    have counted : t.step.worker = work.worker.recordTally work.tally := by
      rw [last, settle, worker, tally]
    have turned : t.step.point =
        errand.next (work.worker.recordTally work.tally).settings.drainAttempts.toNat := by
      rw [settings, last, settle, worker]
    have left : t.step.plane = work.plane ∧ t.step.hand = [] ∧ t.step.tally = {} := by
      rw [last, settle]
      exact ⟨plane, hand, rfl⟩
    have going : t.point.halts = false := by
      rw [point]
      rfl
    simp only [dead, if_false, Bool.false_eq_true]
    exact ⟨t.step, walks.tail ⟨going, rfl⟩, counted, left.1, left.2.1, left.2.2, turned⟩

/-- A station at which a worker has nothing in hand and nothing to count. -/
structure Rests (s : Station σ) (w : Worker σ) (p : Plane) (point : Point) : Prop where
  worker : s.worker = w
  plane : s.plane = p
  point : s.point = point
  hand : s.hand = []
  tally : s.tally = {}

/-- A station as a turn or a drain leaves it: dead when the processor died, and at rest otherwise. -/
def Ends (t : Station σ) (turn : Turn σ) (point : Point) : Prop :=
  if turn.crashed then (∃ errand, t.point = .dead errand) ∧
    t.worker = turn.worker ∧ t.plane = turn.plane
  else t.Rests turn.worker turn.plane point

/-- A worker at rest is where something left it that its processor survived. -/
theorem Rests.ends {t : Station σ} {turn : Turn σ} {point : Point} (alive : turn.crashed = false)
    (rests : t.Rests turn.worker turn.plane point) : t.Ends turn point := by
  -- A turn that did not crash ends at rest.
  rw [Ends, if_neg (by rw [alive]; exact Bool.false_ne_true)]
  exact rests

/-- A turn is pushed out and closed in two steps. -/
theorem walks_finish {s : Station σ} {w : Worker σ} {p : Plane} {began : UInt64} {pulled : Nat}
    (rests : s.Rests w p (.pushing began pulled)) :
    ∃ t, s.Walks t ∧ t.Ends (w.finishTurn began pulled p) .ready := by
  -- The push is one step, and all that follows it another.
  obtain ⟨rfl, rfl, point, hand, tally⟩ := rests
  have first : s.step = s.push began pulled := by
    simp only [step, point]
  have second : s.step.step = s.step.close began pulled := by
    rw [first, step, push]
  have going : s.point.halts = false := by
    rw [point]
    rfl
  have still : s.step.point.halts = false := by
    rw [first]
    rfl
  refine ⟨s.step.step, Walks.head going (.one still), Rests.ends rfl ?_⟩
  rw [second, first]
  exact ⟨rfl, rfl, rfl, hand, tally⟩

/-- A worker that nobody interferes with goes through its turn before it comes to a halt. -/
theorem walks_turn {s : Station σ} {w : Worker σ} {p : Plane} (rests : s.Rests w p .ready) :
    let turn := w.turn p
    ∃ t, s.step.Walks t ∧ t.Ends turn .ready := by
  -- The pull is the first step. A turn without packets is finished at once, another after its burst.
  obtain ⟨rfl, rfl, point, hand, tally⟩ := rests
  have first : s.step = s.pull := by
    simp only [step, point]
  simp only [Worker.turn]
  simp only [pull] at first
  generalize s.worker.allowance _ = granted at first ⊢
  obtain ⟨want, w⟩ := granted
  simp only at first ⊢
  generalize w.pull s.plane want = pulled at first ⊢
  obtain ⟨packets, p⟩ := pulled
  simp only at first ⊢
  split
  · rename_i empty
    rw [if_pos empty] at first
    obtain ⟨t, walks, ends⟩ := walks_finish (s := s.step) (by
      rw [first]
      exact ⟨rfl, rfl, rfl, hand, tally⟩)
    exact ⟨t, walks, ends⟩
  · rename_i some
    rw [if_neg some] at first
    obtain ⟨t, walks, worker, plane, ends⟩ := walks_burst ({ s with
      worker := w.spend packets.length, plane := p } : Station σ)
      (s.plane.clock s.worker.clock).now (.turn (s.plane.clock s.worker.clock).now packets.length)
      packets
    rw [← first] at walks
    -- The turn knows how many packets it pulled.
    have count := (w.spend packets.length).pulled_processBurst
      (s.plane.clock s.worker.clock).now packets p
    simp only at worker plane ends
    generalize (w.spend packets.length).processBurst _ packets p = burst at *
    split
    · rename_i dead
      rw [if_pos dead] at ends
      refine ⟨t, walks, ?_⟩
      rw [Ends, if_pos dead]
      exact ⟨⟨_, ends⟩, worker, plane⟩
    · rename_i alive
      rw [if_neg alive] at ends
      obtain ⟨hand, tally, point⟩ := ends
      rw [count]
      obtain ⟨last, more, ends⟩ := walks_finish ⟨worker, plane, point, hand, tally⟩
      exact ⟨last, walks.trans more, ends⟩

/-- A flush makes its attempts one after another, and drops what will not go. -/
theorem walks_attempts {s : Station σ} {w : Worker σ} {p : Plane} {attempts : Nat}
    {left : Option Nat} (rests : s.Rests w p (.flushing attempts left)) :
    let tried := w.attempts p attempts
    let dropped := tried.1.backlog.dropPending tried.2
    ∃ t, s.Walks t ∧ if tried.1.backlog.isEmpty then t.Rests tried.1 tried.2 (.afterFlush left)
      else t.Rests { tried.1 with
        backlog := dropped.2.1, counters := (tried.1.counters.recordTxDrop (UInt64.ofNat dropped.1)) }
        dropped.2.2 (.afterFlush left) := by
  -- By induction on the attempts that are left. The flush ends early once nothing waits.
  have going : ∀ {s : Station σ} {attempts : Nat}, s.point = .flushing attempts left →
      s.point.halts = false := by
    intro s attempts point
    rw [point]
    rfl
  induction attempts generalizing s w p with
  | zero =>
    obtain ⟨rfl, rfl, point, hand, tally⟩ := rests
    refine ⟨s.step, .one (going point), ?_⟩
    simp only [step, point, flush, Worker.attempts]
    split
    · exact ⟨rfl, rfl, rfl, hand, tally⟩
    · exact ⟨rfl, rfl, rfl, hand, tally⟩
  | succ attempts ih =>
    obtain ⟨rfl, rfl, point, hand, tally⟩ := rests
    have first : s.step = s.flush (attempts + 1) left := by
      simp only [step, point]
    by_cases empty : s.worker.backlog.isEmpty = true
    · refine ⟨s.step, .one (going point), ?_⟩
      simp only [first, flush, Worker.attempts, empty, if_true]
      exact ⟨rfl, rfl, rfl, hand, tally⟩
    · obtain ⟨t, walks, ends⟩ := ih (s := s.step) (w := (s.worker.attempt s.plane).1)
        (p := (s.worker.attempt s.plane).2) (by
          simp only [first, flush, empty]
          exact ⟨rfl, rfl, rfl, hand, tally⟩)
      refine ⟨t, Walks.head (going point) walks, ?_⟩
      simp only [Worker.attempts, empty]
      exact ends

/-- What waits is pushed out, and dropped when it will not go. -/
theorem walks_flush {s : Station σ} {w : Worker σ} {p : Plane} {left : Option Nat}
    (rests : s.Rests w p (.flushing w.settings.drainAttempts.toNat left)) :
    let flushed := w.flushPending p
    ∃ t, s.Walks t ∧ t.Rests flushed.1 flushed.2 (.afterFlush left) := by
  -- The worker's flush is the same attempts, and drops what is left at the same place.
  obtain ⟨t, walks, ends⟩ := walks_attempts rests
  refine ⟨t, walks, ?_⟩
  simp only [Worker.flushPending]
  split
  · rename_i empty
    rwa [if_pos empty] at ends
  · rename_i some
    rwa [if_neg some] at ends

/-- Batches are taken until none is left, and the drain ends. -/
theorem walks_batches {s : Station σ} {w : Worker σ} {p : Plane} {left : Nat}
    (rests : s.Rests w p (.draining left)) :
    let drained := w.drainFrom p left
    ∃ t, s.Walks t ∧ t.Ends drained
      (.flushing drained.worker.settings.drainAttempts.toNat none) := by
  -- Every batch but the last leaves fewer packets to take.
  induction left using Nat.strongRecOn generalizing s w p with
  | ind left ih =>
    obtain ⟨rfl, rfl, point, hand, tally⟩ := rests
    have first : s.step = s.batch left := by
      simp only [step, point]
    have going : s.point.halts = false := by
      rw [point]
      rfl
    -- A drain that takes nothing more leaves the worker as it is.
    have stays : ∀ p, s.step = ({ s with plane := p } : Station σ).conclude → ∃ t, s.Walks t ∧
        t.Ends ⟨0, false, s.worker, p⟩
          (.flushing s.worker.settings.drainAttempts.toNat none) := by
      intro p same
      refine ⟨s.step, .one going, Rests.ends rfl ?_⟩
      rw [same]
      exact ⟨rfl, rfl, rfl, hand, tally⟩
    cases input : s.worker.input with
    | port port =>
      have nothing : s.worker.drainFrom s.plane left = ⟨0, false, s.worker, s.plane⟩ := by
        rw [Worker.drainFrom]
        split
        · rfl
        · simp [Worker.drainBatch, input]
      rw [nothing]
      exact stays s.plane (by simp only [first, batch, input])
    | ring number =>
      simp only [batch, input] at first
      rw [Worker.drainFrom]
      by_cases none : left = 0
      · simp only [none, if_true] at first ⊢
        exact stays s.plane first
      · simp only [none, if_false, Worker.drainBatch, input] at first ⊢
        generalize s.plane.dequeueBulk number _ = taken at first ⊢
        obtain ⟨packets, remaining, p⟩ := taken
        simp only at first ⊢
        by_cases empty : packets.isEmpty = true
        · simp only [empty, if_true, or_true] at first ⊢
          exact stays p first
        · simp only [empty, if_false, Bool.false_eq_true] at first ⊢
          obtain ⟨t, walks, worker, plane, ends⟩ := walks_burst ({ s with plane := p } : Station σ)
            (p.clock s.worker.clock).now (.drain (left - packets.length)) packets
          rw [← first] at walks
          have count := s.worker.pulled_processBurst (p.clock s.worker.clock).now packets p
          simp only at worker plane ends
          generalize s.worker.processBurst _ packets p = burst at *
          by_cases dead : burst.crashed = true
          · simp only [dead, if_true, true_or] at ends ⊢
            refine ⟨t, Walks.head going walks, ?_⟩
            rw [Ends, if_pos dead]
            exact ⟨⟨_, ends⟩, worker, plane⟩
          · simp only [dead, if_false, Bool.false_eq_true, false_or] at ends ⊢
            obtain ⟨hand, tally, point⟩ := ends
            have positive : packets.length ≠ 0 := by
              simpa [List.isEmpty_iff] using empty
            obtain ⟨u, flushed, rests⟩ := walks_flush ⟨worker, plane, point, hand, tally⟩
            obtain ⟨last, more, ends⟩ := ih (left - packets.length) (by omega) rests
            rw [count, if_neg positive]
            exact ⟨last, (Walks.head going walks).trans (flushed.trans more), ends⟩

/-- A worker that nobody interferes with goes through its drain before it comes to a halt. -/
theorem walks_drain {s : Station σ} {w : Worker σ} {p : Plane} (rests : s.Rests w p .ready) :
    ∃ t, s.stop.Walks t ∧ t.Ends (w.drain p) .finished := by
  -- A stop only tells the worker to go on to its drain. The batches come first, and the flush follows
  -- if the processor survived.
  obtain ⟨rfl, rfl, point, hand, tally⟩ := rests
  obtain ⟨t, walks, ends⟩ := walks_batches (s := s.stop) ⟨rfl, rfl, rfl, hand, tally⟩
  have same : s.stop.worker.drainFrom s.stop.plane (s.worker.drainCount s.plane) =
      s.worker.drainFrom s.plane (s.worker.drainCount s.plane) := rfl
  simp only [same] at ends
  simp only [Worker.drain]
  generalize s.worker.drainFrom s.plane _ = drained at ends ⊢
  by_cases dead : drained.crashed = true
  · rw [Ends, if_pos dead] at ends
    refine ⟨t, walks, ?_⟩
    rw [if_pos dead, Ends, if_pos dead]
    exact ends
  · rw [Ends, if_neg dead] at ends
    obtain ⟨last, flushed, rests⟩ := walks_flush ends
    rw [if_neg dead]
    exact ⟨last, walks.trans flushed, Rests.ends (Bool.not_eq_true _ ▸ dead) rests⟩

end Station

end PacketPlane
