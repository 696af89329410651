import PacketPlane.Proofs.Worker.Drain
import PacketPlane.Proofs.Worker.Strokes

/-! Amid others: a drain step by step, with whoever else uses the plane in between. -/

namespace PacketPlane

/-- What others do to a plane, whenever it is their turn. -/
abbrev Others := Nat → Plane → Plane

/-- Others who do nothing. -/
def Others.idle : Others := fun _ plane =>
  -- Every turn of theirs goes by.
  plane

namespace Worker

variable {σ : Type}

/-- A packet is put on its way without the processor. -/
theorem crashed_forward (w : Worker σ) (packet : Packet) (tally : Tally) (p : Plane) :
    (w.forward packet tally p).crashed = false := by
  -- Neither with an output nor without one is the processor asked.
  simp only [forward]
  split <;> rfl

/-- A burst takes all packets that it is given. -/
theorem pulled_processBurst (w : Worker σ) (now : UInt64) (packets : List Packet) (p : Plane) :
    (w.processBurst now packets p).pulled = packets.length := by
  -- Whether the processor survives or not, the packets are no longer where they were.
  simp only [processBurst]
  split <;> rfl

/-- Packets are processed one by one, and a processor that dies takes the rest along. -/
theorem processAll_cons (context : Context) (packet : Packet) (rest : List Packet)
    (work : Work σ) :
    let one := processAll context [packet] work
    processAll context (packet :: rest) work =
      if one.crashed then { one with plane := one.plane.releaseAll rest }
      else processAll context rest one := by
  -- By cases on the verdict about the first packet.
  cases verdict : (work.worker.process context packet work.worker.memory
    work.plane.toSurroundings).verdict with
  | forward => simp only [processAll, verdict, crashed_forward, Bool.false_eq_true, if_false]
  | drop => simp only [processAll, verdict, Bool.false_eq_true, if_false]
  | crash =>
    simp only [processAll, verdict, if_true]
    rfl

end Worker

/-- A drain under way: the worker and its plane, how many turns others had, whether the processor died,
the packets taken off the input so far, and the attempts that each flush made. -/
structure Scene (σ : Type) where
  worker : Worker σ
  plane : Plane
  time : Nat := 0
  crashed : Bool := false
  taken : List Packet := []
  flushes : List Nat := []

namespace Scene

variable {σ : Type}

/-- A turn of the others. -/
def disturb (s : Scene σ) (others : Others) : Scene σ :=
  -- The next one may be different.
  { s with plane := others s.time s.plane, time := s.time + 1 }

/-- Up to a number of attempts to push out what waits, with a turn of the others before each, and how
many were made. -/
def attempts (others : Others) (s : Scene σ) : Nat → Nat × Scene σ
  -- An empty backlog needs no further attempt.
  | 0 => (0, s)
  | count + 1 =>
    if s.worker.backlog.isEmpty then (0, s)
    else
      let s := s.disturb others
      let (worker, plane) := s.worker.attempt s.plane
      let (made, s) := attempts others { s with worker, plane } count
      (made + 1, s)

/-- What waits pushed out amid others, and dropped when it will not go. -/
def flush (others : Others) (s : Scene σ) : Scene σ :=
  -- The attempts are those of the settings.
  let (made, s) := s.attempts others s.worker.settings.drainAttempts.toNat
  let s := { s with flushes := s.flushes ++ [made] }
  if s.worker.backlog.isEmpty then s
  else
    let (dropped, backlog, plane) := s.worker.backlog.dropPending s.plane
    let counters := s.worker.counters.recordTxDrop (UInt64.ofNat dropped)
    { s with plane, worker := { s.worker with backlog, counters } }

/-- Packets processed in turn, with a turn of the others before each. -/
def processAll (others : Others) (context : Context) :
    List Packet → Tally → Scene σ → Tally × Scene σ
  -- A processor that dies takes the rest along.
  | [], tally, s => (tally, s)
  | packet :: rest, tally, s =>
    let s := s.disturb others
    let work := Worker.processAll context [packet] ⟨s.worker, tally, s.plane, false⟩
    if work.crashed then
      (work.tally, { s with
        worker := work.worker, plane := work.plane.releaseAll rest, crashed := true })
    else processAll others context rest work.tally
      { s with worker := work.worker, plane := work.plane }

/-- A burst taken off the input and processed amid others. -/
def burst (others : Others) (s : Scene σ) (packets : List Packet) : Scene σ :=
  -- A processor that dies leaves what came of the burst uncounted.
  let counters := s.worker.counters.recordRx (UInt64.ofNat packets.length)
    (UInt64.ofNat (s.plane.buffers.totalLen packets))
  let context := s.worker.context s.plane (s.plane.clock s.worker.clock).now
  let (tally, s) := processAll others context packets {}
    { s with worker := { s.worker with counters }, taken := s.taken ++ packets }
  if s.crashed then s else { s with worker := s.worker.recordTally tally }

/-- A flush that follows unless the processor died. -/
def conclude (others : Others) (s : Scene σ) : Scene σ :=
  -- A processor that died ends the drain where it is.
  if s.crashed then s else s.flush others

/-- Up to a number of queued packets taken off the input, processed and pushed out amid others, and how
many were taken. -/
def batch (others : Others) (s : Scene σ) (number left : Nat) : Nat × Scene σ :=
  -- Others have a turn before anything is taken.
  let s := s.disturb others
  let (packets, _, plane) :=
    s.plane.dequeueBulk number (min left s.worker.settings.burstSize.toNat)
  if packets.isEmpty then (0, { s with plane })
  else (packets.length, (burst others { s with plane } packets).conclude others)

/-- Batches amid others, until a number of packets has been taken or the input is empty. -/
def drainFrom (others : Others) (s : Scene σ) (number left : Nat) : Scene σ :=
  -- Somebody else may have emptied the input meanwhile.
  if left = 0 then s
  else
    let (pulled, s) := s.batch others number left
    if s.crashed ∨ pulled = 0 then s
    else drainFrom others s number (left - pulled)
termination_by left

/-- A whole drain amid others. -/
def drain (others : Others) (s : Scene σ) : Scene σ :=
  -- The bound is taken once, when the drain begins.
  match s.worker.input with
  | .ring number =>
    (s.drainFrom others number (s.worker.drainCount s.plane)).conclude others
  | .port _ => s.conclude others

/-- A scene in which a worker ended up as it does in a turn. -/
def Shows (s : Scene σ) (turn : Turn σ) : Prop :=
  s.worker = turn.worker ∧ s.plane = turn.plane ∧ s.crashed = turn.crashed

variable (s : Scene σ)

/-- Attempts that nobody interferes with. -/
theorem attempts_idle (count : Nat) :
    let tried := (s.attempts .idle count).2
    (tried.worker, tried.plane) = s.worker.attempts s.plane count ∧ tried.crashed = s.crashed := by
  -- One attempt follows the other.
  induction count generalizing s with
  | zero => exact ⟨rfl, rfl⟩
  | succ count ih =>
    simp only [attempts, Worker.attempts]
    split
    · exact ⟨rfl, rfl⟩
    · exact ih _

/-- A flush that nobody interferes with. -/
theorem flush_idle :
    let flushed := s.flush .idle
    (flushed.worker, flushed.plane) = s.worker.flushPending s.plane ∧
      flushed.crashed = s.crashed := by
  -- Attempts are the same while nobody interferes, and what they leave is discarded in both.
  obtain ⟨same, alive⟩ := s.attempts_idle s.worker.settings.drainAttempts.toNat
  simp only [flush, Worker.flushPending, ← same]
  split
  · exact ⟨rfl, alive⟩
  · exact ⟨rfl, alive⟩

/-- Packets processed while nobody interferes. -/
theorem processAll_idle (context : Context) (packets : List Packet) (tally : Tally)
    (alive : s.crashed = false) :
    let done := s.processAll .idle context packets tally
    (⟨done.2.worker, done.1, done.2.plane, done.2.crashed⟩ : Work σ) =
      Worker.processAll context packets ⟨s.worker, tally, s.plane, false⟩ := by
  -- One packet follows the other.
  induction packets generalizing s tally with
  | nil => simp only [processAll, Worker.processAll, alive]
  | cons packet rest ih =>
    simp only [processAll]
    rw [Worker.processAll_cons context packet rest]
    have same : s.disturb .idle = { s with time := s.time + 1 } := rfl
    simp only [same]
    generalize Worker.processAll context [packet] ⟨s.worker, tally, s.plane, false⟩ = one
    obtain ⟨w, counted, p, crashed⟩ := one
    cases crashed with
    | true => rfl
    | false => exact ih _ _ alive

/-- A burst that nobody interferes with. -/
theorem burst_idle (packets : List Packet) (alive : s.crashed = false) :
    (s.burst .idle packets).Shows
      (s.worker.processBurst (s.plane.clock s.worker.clock).now packets s.plane) := by
  -- The packets are counted first, and then processed one by one while nobody interferes.
  have same := processAll_idle
    { s with
      worker := { s.worker with
        counters := s.worker.counters.recordRx (UInt64.ofNat packets.length)
          (UInt64.ofNat (s.plane.buffers.totalLen packets)) }
      taken := s.taken ++ packets }
    (s.worker.context s.plane (s.plane.clock s.worker.clock).now) packets {} alive
  simp only [burst, Worker.processBurst, ← same]
  split
  · rename_i dead
    exact ⟨rfl, rfl, dead⟩
  · rename_i living
    exact ⟨rfl, rfl, Bool.not_eq_true _ ▸ living⟩

/-- A flush that nobody interferes with, unless the processor died. -/
theorem conclude_idle {turn : Turn σ} (shows : s.Shows turn) :
    let done := s.conclude .idle
    done.crashed = turn.crashed ∧ (done.worker, done.plane) =
      if turn.crashed then (turn.worker, turn.plane) else turn.worker.flushPending turn.plane := by
  -- A processor that died leaves no flush to be made.
  obtain ⟨worker, plane, crashed⟩ := shows
  rw [conclude, crashed]
  split
  · exact ⟨crashed, by rw [worker, plane]⟩
  · obtain ⟨same, kept⟩ := s.flush_idle
    rw [worker, plane] at same
    exact ⟨kept.trans crashed, same⟩

/-- A batch that nobody interferes with. -/
theorem batch_idle {number : Nat} (left : Nat) (alive : s.crashed = false)
    (input : s.worker.input = .ring number) :
    let batch := s.worker.drainBatch s.plane left
    (s.batch .idle number left).1 = batch.pulled ∧ (s.batch .idle number left).2.Shows batch := by
  -- The same packets are taken off the ring, and an empty batch ends the drain in both.
  have undisturbed : s.disturb .idle = { s with time := s.time + 1 } := rfl
  simp only [batch, Worker.drainBatch, undisturbed, input]
  generalize s.plane.dequeueBulk number (min left s.worker.settings.burstSize.toNat) = found
  obtain ⟨packets, remaining, q⟩ := found
  simp only
  split
  · exact ⟨rfl, rfl, rfl, alive⟩
  · have count := s.worker.pulled_processBurst (q.clock s.worker.clock).now packets q
    obtain ⟨crashed, same⟩ := conclude_idle _
      (burst_idle { s with time := s.time + 1, plane := q } packets alive)
    simp only at crashed same
    split
    · rename_i dead
      rw [if_pos dead] at same
      exact ⟨count.symm, congrArg Prod.fst same, congrArg Prod.snd same, crashed⟩
    · rename_i living
      rw [if_neg living] at same
      refine ⟨count.symm, congrArg Prod.fst same, congrArg Prod.snd same, crashed.trans ?_⟩
      exact Bool.not_eq_true _ ▸ living

/-- Batches that nobody interferes with. -/
theorem drainFrom_idle {number left : Nat} (alive : s.crashed = false)
    (input : s.worker.input = .ring number) :
    (s.drainFrom .idle number left).Shows (s.worker.drainFrom s.plane left) := by
  -- Every batch but the last leaves fewer packets to take.
  induction left using Nat.strongRecOn generalizing s with
  | ind left ih =>
    rw [drainFrom, Worker.drainFrom]
    split
    · exact ⟨rfl, rfl, alive⟩
    · rename_i more
      obtain ⟨pulled, shows⟩ := s.batch_idle left alive input
      obtain ⟨worker, plane, crashed⟩ := shows
      simp only [pulled, crashed]
      split
      · exact ⟨worker, plane, crashed⟩
      · rename_i goes
        rw [not_or, Bool.not_eq_true] at goes
        obtain ⟨_, -, leads⟩ := s.worker.drainBatch_leads s.plane left goes.1
        rw [← worker, ← plane]
        refine ih _ (by omega) _ (crashed.trans goes.1) ?_
        rw [worker]
        exact (congrArg Fixture.input leads.fixed).trans input

/-- A drain that nobody interferes with. -/
theorem drain_idle (alive : s.crashed = false) :
    (s.drain .idle).Shows (s.worker.drain s.plane) := by
  -- By cases on the input: a port has nothing to drain, and a ring is drained batch by batch.
  have concludes : ∀ (s' : Scene σ) (drained : Turn σ), s'.Shows drained →
      (s'.conclude .idle).Shows
        (if drained.crashed then drained
        else
          let (w, plane) := drained.worker.flushPending drained.plane
          { drained with worker := w, plane }) := by
    intro s' drained shows
    obtain ⟨crashed, same⟩ := s'.conclude_idle shows
    split
    · rename_i dead
      rw [if_pos dead] at same
      exact ⟨congrArg Prod.fst same, congrArg Prod.snd same, crashed⟩
    · rename_i living
      rw [if_neg living] at same
      exact ⟨congrArg Prod.fst same, congrArg Prod.snd same, crashed⟩
  rw [drain, Worker.drain]
  cases input : s.worker.input with
  | ring number => exact concludes _ _ (s.drainFrom_idle alive input)
  | port port =>
    refine concludes s _ ?_
    simp only [Worker.drainCount, input]
    rw [Worker.drainFrom, if_pos rfl]
    exact ⟨rfl, rfl, alive⟩

end Scene

end PacketPlane
