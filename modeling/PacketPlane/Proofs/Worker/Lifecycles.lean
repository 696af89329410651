import PacketPlane.Proofs.Worker.Accounting

/-! Lifecycles: a worker at work leaves every lifecycle as it is, and only the steps at the ends of
a run change its own. -/

namespace PacketPlane

/-- A processor that does not reach for lifecycles. -/
def Processor.LeavesLives (process : Processor σ) : Prop :=
  ∀ context packet memory (s : Surroundings),
    (process context packet memory s).surroundings.lives = s.lives

namespace Plane

/-- A lifecycle after one of them was set. -/
theorem life_setLife (p : Plane) (number : Nat) (state : LifeState) (other : Nat) :
    (p.setLife number state).life other =
      if number = other ∧ number < p.lives.size then state else p.life other := by
  -- A number past the end sets nothing, and reads as it did before.
  rw [life, life, setLife]
  simp only [Array.getD_eq_getD_getElem?, Array.getElem?_setIfInBounds]
  by_cases same : number = other
  · subst same
    by_cases inside : number < p.lives.size
    · simp [inside]
    · simp [inside]
  · simp [same]

/-- A step of a lifecycle sets it. -/
theorem advanceLife_eq (p : Plane) (number : Nat) (before after : LifeState) :
    p.advanceLife number before after =
      (((p.life number).advance before after).1,
        p.setLife number ((p.life number).advance before after).2) := rfl

end Plane

namespace Worker

variable {σ : Type}

open Moment

/-- An attempt to push out what waits leaves lifecycles as they are. -/
theorem attempt_lives (w : Worker σ) (p : Plane) : (w.attempt p).2.lives = p.lives := by
  -- What an output delivers is described together with the lives it leaves alone.
  rw [attempt]
  cases output : w.target? with
  | some target =>
    have sink : w.ends.target = some target := output
    obtain ⟨⟨accepted, delivers⟩, -⟩ := Backlog.tryFlush_delivers sink w.backlog p
    exact delivers.lives
  | none => rfl

/-- Attempts to push out what waits leave lifecycles as they are. -/
theorem attempts_lives (w : Worker σ) (p : Plane) (count : Nat) :
    (w.attempts p count).2.lives = p.lives := by
  -- One attempt follows the other.
  induction count generalizing w p with
  | zero => rfl
  | succ count ih =>
    rw [attempts]
    split
    · rfl
    · exact (ih _ _).trans (w.attempt_lives p)

/-- Pushing out all that waits leaves lifecycles as they are. -/
theorem flushPending_lives (w : Worker σ) (p : Plane) :
    (w.flushPending p).2.lives = p.lives := by
  -- Both ends of the flush are reached from the plane after the attempts, and drops are of packets.
  have tried := w.attempts_lives p w.settings.drainAttempts.toNat
  simp only [flushPending]
  split
  · exact tried
  · exact tried

/-- Showing a packet to the tap leaves lifecycles as they are. -/
theorem capturePacket_lives (w : Worker σ) (packet : Packet) (p : Plane) :
    (w.capturePacket packet p).2.lives = p.lives := by
  -- A tap takes a reference to the packet, or counts a drop, and returns.
  rw [capturePacket]
  split
  · rfl
  · rename_i number watched
    have tapped : (p.tapPacket number packet).2.lives = p.lives := by
      rw [Plane.tapPacket]
      split <;> rfl
    split
    · rename_i told
      rw [told] at tapped
      exact tapped
    · rename_i told
      rw [told] at tapped
      exact tapped

/-- Putting a packet on its way leaves lifecycles as they are. -/
theorem forward_lives (w : Worker σ) (packet : Packet) (tally : Tally) (p : Plane) :
    (w.forward packet tally p).plane.lives = p.lives := by
  -- First the tap sees the packet, then the backlog takes it or the packet is given back.
  have shown := w.capturePacket_lives packet p
  simp only [forward]
  generalize w.capturePacket packet p = pair at shown
  obtain ⟨w', p'⟩ := pair
  cases output : w'.target? with
  | some target =>
    have sink : w'.ends.target = some target := output
    obtain ⟨f, delivers⟩ := Backlog.buffer_delivers sink w'.backlog packet p'
    exact delivers.lives.trans shown
  | none => exact shown

/-- Processing packets leaves lifecycles as they are when the processor does. -/
theorem processAll_lives (context : Context) (packets : List Packet) (work : Work σ)
    (leaves : work.worker.process.LeavesLives) :
    (processAll context packets work).plane.lives = work.plane.lives := by
  -- Each packet leaves the processor as it was.
  induction packets generalizing work with
  | nil => rfl
  | cons packet rest ih =>
    have kept := leaves context packet work.worker.memory work.plane.toSurroundings
    simp only [processAll]
    generalize work.worker.process context packet work.worker.memory
      work.plane.toSurroundings = decision at kept ⊢
    cases decision.verdict with
    | forward =>
      have sent := forward_leads { work.worker with memory := decision.memory } packet rest
        work.tally { work.plane with toSurroundings := decision.surroundings }
      have later := ih (({ work.worker with memory := decision.memory } : Worker σ).forward packet
        work.tally { work.plane with toSurroundings := decision.surroundings }) (by
          rw [process_eq sent]
          exact leaves)
      exact later.trans ((forward_lives _ _ _ _).trans kept)
    | drop =>
      refine Eq.trans (ih _ ?_) kept
      exact leaves
    | crash => exact kept

/-- Processing a burst leaves lifecycles as they are when the processor does. -/
theorem processBurst_lives (w : Worker σ) (now : UInt64) (packets : List Packet) (p : Plane)
    (leaves : w.process.LeavesLives) : (w.processBurst now packets p).plane.lives = p.lives := by
  -- The counts before and after a burst are the worker's own.
  simp only [processBurst]
  split
  · exact processAll_lives _ _ _ leaves
  · exact processAll_lives _ _ _ leaves

/-- The end of a turn leaves lifecycles as they are. -/
theorem finishTurn_lives (w : Worker σ) (began : UInt64) (pulled : Nat) (p : Plane) :
    (w.finishTurn began pulled p).plane.lives = p.lives := by
  -- After the push there are errors to look for and a report to make, neither of which reaches a
  -- lifecycle.
  have pushed : (w.push p).2.lives = p.lives := by
    rw [push]
    cases output : w.target? with
    | some target =>
      have sink : w.ends.target = some target := output
      obtain ⟨f, delivers⟩ := Backlog.flush_delivers sink w.backlog p
      exact delivers.lives
    | none => rfl
  simp only [finishTurn, reportAt]
  split
  · exact pushed
  · exact pushed

/-- Pulling leaves lifecycles as they are. -/
theorem pull_lives (w : Worker σ) (p : Plane) (want : Nat) : (w.pull p want).2.lives = p.lives := by
  -- A pull is described together with all surroundings that it leaves alone.
  rw [pull]
  split
  · rfl
  · split
    · exact congrArg Surroundings.lives (p.rxBurst_pulls _ want).surroundings
    · exact congrArg Surroundings.lives (p.dequeueBulk_pulls _ want).surroundings

/-- A turn leaves lifecycles as they are when the processor does. -/
theorem turn_lives (w : Worker σ) (p : Plane) (leaves : w.process.LeavesLives) :
    (w.turn p).plane.lives = p.lives := by
  -- The allowance changes the worker alone, and leaves it its processor. Then the phases of a turn
  -- follow in order.
  have same := process_eq (w.allowance_leads (p.clock w.clock).now p)
  simp only at same
  simp only [turn]
  have pulled := (w.allowance (p.clock w.clock).now).2.pull_lives p
    (w.allowance (p.clock w.clock).now).1
  split
  · exact (finishTurn_lives _ _ _ _).trans pulled
  · have processed := fun (q : Plane) packets => processBurst_lives
      ((w.allowance (p.clock w.clock).now).2.spend packets.length) (p.clock w.clock).now packets q
      (by
        show (w.allowance _).2.process.LeavesLives
        rw [same]
        exact leaves)
    split
    · exact (processed _ _).trans pulled
    · exact (finishTurn_lives _ _ _ _).trans ((processed _ _).trans pulled)

/-- A batch of a drain leaves lifecycles as they are when the processor does. -/
theorem drainBatch_lives (w : Worker σ) (p : Plane) (left : Nat)
    (leaves : w.process.LeavesLives) : (w.drainBatch p left).plane.lives = p.lives := by
  -- A batch is pulled from a ring, processed and flushed, and each of these leaves lifecycles.
  simp only [drainBatch]
  split
  · rfl
  · rename_i number input
    have pulled := congrArg Surroundings.lives
      (p.dequeueBulk_pulls number (min left w.settings.burstSize.toNat)).surroundings
    split
    · exact pulled
    · have processed := fun (q : Plane) now packets => w.processBurst_lives now packets q leaves
      split
      · exact (processed _ _ _).trans pulled
      · exact (flushPending_lives _ _).trans ((processed _ _ _).trans pulled)

end Worker

namespace Member

variable {σ : Type}

/-- The last step of a drain changes no lifecycle but the worker's own. -/
theorem close_lives (m : Member σ) (plane : Plane) :
    (m.close plane).2.lives = plane.lives.setIfInBounds m.worker.life .stopped := by
  -- The worker keeps its own number while it flushes, so it is that lifecycle which is set.
  obtain ⟨flushed, -⟩ := m.worker.flushPending_leads plane
  have life : (m.worker.flushPending plane).1.life = m.worker.life :=
    congrArg Fixture.life flushed.fixed
  show ((m.worker.flushPending plane).2.lives.setIfInBounds
    (m.worker.flushPending plane).1.life .stopped) = _
  rw [life, m.worker.flushPending_lives plane]

end Member

end PacketPlane
