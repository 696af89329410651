import PacketPlane.Proofs.Worker.Turn

/-! Custody over a drain and a whole run: nothing waits any more once a run is over. -/

namespace PacketPlane

namespace Worker

variable {σ : Type}

open Moment

/-- An attempt to push out what waits keeps account of it. -/
theorem attempt_leads (w : Worker σ) (p : Plane) :
    Leads ⟨w, p, [], 0, 0⟩ ⟨(w.attempt p).1, (w.attempt p).2, [], 0, 0⟩ [] := by
  -- Without output all that waits is discarded, and otherwise an attempt is made.
  rw [attempt]
  cases output : w.target? with
  | some target =>
    have sink : w.ends.target = some target := output
    obtain ⟨⟨accepted, delivers⟩, -⟩ := Backlog.tryFlush_delivers sink w.backlog p
    have flushed := Leads.of_delivers [] 0 0 delivers
    exact flushed.trans (recordOutcome_leads _ _ _ [] 0 0)
  | none =>
    have delivers := Backlog.discard_delivers w.ends w.backlog p
    have discarded := Leads.of_delivers [] 0 0 delivers
    exact discarded.trans (recordOutcome_leads _ _ _ [] 0 0)

/-- Attempts to push out what waits keep account of it. -/
theorem attempts_leads (w : Worker σ) (p : Plane) (count : Nat) :
    Leads ⟨w, p, [], 0, 0⟩ ⟨(w.attempts p count).1, (w.attempts p count).2, [], 0, 0⟩ [] := by
  -- One attempt follows the other.
  induction count generalizing w p with
  | zero => exact Leads.refl _
  | succ count ih =>
    rw [attempts]
    split
    · exact Leads.refl _
    · exact (w.attempt_leads p).trans (ih _ _)

/-- Pushing out all that waits keeps account of it, and nothing waits afterwards. -/
theorem flushPending_leads (w : Worker σ) (p : Plane) :
    Leads ⟨w, p, [], 0, 0⟩ ⟨(w.flushPending p).1, (w.flushPending p).2, [], 0, 0⟩ [] ∧
      (w.flushPending p).1.backlog.pending = [] := by
  -- What the attempts leave is given up, and counted as dropped.
  have tried := w.attempts_leads p w.settings.drainAttempts.toNat
  simp only [flushPending]
  generalize w.attempts p w.settings.drainAttempts.toNat = pair at tried ⊢
  obtain ⟨w', q⟩ := pair
  simp only at tried ⊢
  split
  · rename_i empty
    exact ⟨tried, List.isEmpty_iff.mp empty⟩
  · refine ⟨?_, rfl⟩
    have given := Leads.of_delivers [] 0 0 (Backlog.dropPending_delivers w'.ends w'.backlog q)
    refine tried.trans (given.trans (Carries.leads ?_))
    apply Carries.of_still
    · rfl
    · exact Plane.SameRings.refl _
    · exact fun _ _ => rfl
    · rfl
    · rfl
    · rw [Moment.settled, Moment.settled, Counters.settled_recordTxDrop, Nat.zero_add, Nat.zero_add]
      exact UInt64.add_zero _

/-- A batch of a drain keeps account of every packet, unless the processor dies. -/
theorem drainBatch_leads (w : Worker σ) (p : Plane) (left : Nat)
    (alive : (w.drainBatch p left).crashed = false) :
    ∃ pulled : List Packet, pulled.length = (w.drainBatch p left).pulled ∧
      Leads ⟨w, p, [], 0, 0⟩
        ⟨(w.drainBatch p left).worker, (w.drainBatch p left).plane, [], 0, 0⟩ pulled := by
  -- By cases on the input: a port has nothing to drain, and an empty batch moves nothing.
  rw [drainBatch] at alive ⊢
  cases input : w.input with
  | port owned => exact ⟨[], rfl, Leads.refl _⟩
  | ring number =>
    have place : w.ends.input.place = .ring number := by
      rw [ends, input]
      rfl
    have pulls := p.dequeueBulk_pulls number (min left w.settings.burstSize.toNat)
    simp only [input] at alive ⊢
    generalize p.dequeueBulk number (min left w.settings.burstSize.toNat) = found at pulls alive ⊢
    obtain ⟨packets, remaining, q⟩ := found
    -- What was pulled is in hand and still to be counted.
    have pulled : Leads ⟨w, p, [], 0, 0⟩ ⟨w, q, packets, packets.length, 0⟩ packets := by
      refine ⟨{ pulled := packets }, ⟨rfl, ?_, ?_, ?_, ?_⟩, rfl⟩
      · exact Plane.Hauls.of_pulls (place ▸ pulls)
      · simp [kept]
      · simp [Moment.received]
      · simp [Moment.settled]
    simp only at alive ⊢
    split
    · rename_i empty
      rw [List.isEmpty_iff] at empty
      subst empty
      exact ⟨[], rfl, pulled⟩
    · rename_i some
      rw [if_neg some] at alive
      split at alive
      · rename_i dead
        rw [dead] at alive
        cases alive
      · rename_i living
        rw [if_neg living]
        rw [Bool.not_eq_true] at living
        obtain ⟨processed, count⟩ := processBurst_leads _ _ packets q living
        refine ⟨packets, count.symm, ?_⟩
        exact (pulled.andThen processed).andThen (flushPending_leads _ _).1

/-- A processor that survives every packet survives a batch. -/
theorem drainBatch_alive (w : Worker σ) (p : Plane) (left : Nat)
    (survives : w.process.Survives) : (w.drainBatch p left).crashed = false := by
  -- Only a batch with packets asks the processor.
  simp only [drainBatch]
  split
  · rfl
  · split
    · rfl
    · rw [if_neg]
      rw [Bool.not_eq_true]
      exact processBurst_alive _ _ _ _ survives

/-- Batches keep account of every packet, unless the processor dies. -/
theorem drainFrom_leads (w : Worker σ) (p : Plane) (left : Nat)
    (alive : (w.drainFrom p left).crashed = false) :
    ∃ pulled, Leads ⟨w, p, [], 0, 0⟩
      ⟨(w.drainFrom p left).worker, (w.drainFrom p left).plane, [], 0, 0⟩ pulled := by
  -- Every batch but the last leaves fewer packets to take.
  induction left using Nat.strongRecOn generalizing w p with
  | ind left ih =>
    rw [drainFrom] at alive ⊢
    split
    · exact ⟨[], Leads.refl _⟩
    · rename_i more
      rw [if_neg more] at alive
      dsimp only at alive ⊢
      split
      · rename_i last
        rw [if_pos last] at alive
        obtain ⟨pulled, -, batch⟩ := w.drainBatch_leads p left alive
        exact ⟨pulled, batch⟩
      · rename_i living
        rw [if_neg living] at alive
        rw [not_or, Bool.not_eq_true] at living
        obtain ⟨pulled, -, batch⟩ := w.drainBatch_leads p left living.1
        have fewer : left - (w.drainBatch p left).pulled < left := by omega
        obtain ⟨others, rest⟩ := ih _ fewer _ _ alive
        exact ⟨pulled ++ others, batch.trans rest⟩

/-- A drain keeps account of every packet, and nothing waits afterwards. -/
theorem drain_leads (w : Worker σ) (p : Plane) (alive : (w.drain p).crashed = false) :
    (∃ pulled, Leads ⟨w, p, [], 0, 0⟩ ⟨(w.drain p).worker, (w.drain p).plane, [], 0, 0⟩ pulled) ∧
      (w.drain p).worker.backlog.pending = [] := by
  -- The batches come first, and a flush at the end leaves nothing.
  simp only [drain] at alive ⊢
  split
  · rename_i dead
    rw [if_pos dead, dead] at alive
    cases alive
  · rename_i living
    rw [Bool.not_eq_true] at living
    obtain ⟨pulled, drained⟩ := w.drainFrom_leads p (w.drainCount p) living
    obtain ⟨flushed, empty⟩ := (w.drainFrom p (w.drainCount p)).worker.flushPending_leads
      (w.drainFrom p (w.drainCount p)).plane
    exact ⟨⟨pulled, drained.andThen flushed⟩, empty⟩

/-- The start of a run moves no packet. -/
theorem begin_leads (w : Worker σ) (p : Plane) :
    Leads ⟨w, p, [], 0, 0⟩ ⟨w.begin p, p, [], 0, 0⟩ [] := by
  -- Only the worker's own notes change.
  exact Carries.leads (Carries.of_worker p [] 0 0 rfl rfl rfl rfl)

/-- The end of a run moves no packet, and ends the lifecycle. -/
theorem finish_leads (w : Worker σ) (p : Plane) :
    Leads ⟨w, p, [], 0, 0⟩ ⟨(w.finish p).1, (w.finish p).2, [], 0, 0⟩ [] ∧
      (w.finish p).2.life w.life = .stopped ∧ (w.finish p).1.backlog = w.backlog := by
  -- Only the lifecycle and what is reported change.
  refine ⟨Carries.leads ?_, ?_, rfl⟩
  · apply Carries.of_still
    · rfl
    · exact Plane.SameRings.congr rfl rfl rfl
    · exact fun _ _ => rfl
    · rfl
    · rfl
    · rfl
  · show (p.lives.setIfInBounds w.life .stopped).getD w.life .stopped = .stopped
    rw [Array.getD_eq_getD_getElem?, Array.getElem?_setIfInBounds_self]
    split <;> rfl

/-- Changing a lifecycle moves no packet. -/
theorem setLife_leads (w : Worker σ) (p : Plane) (number : Nat) (state : LifeState) :
    Leads ⟨w, p, [], 0, 0⟩ ⟨w, p.setLife number state, [], 0, 0⟩ [] := by
  -- Rings, references and counters stay.
  apply Carries.leads
  apply Carries.of_still
  · rfl
  · exact Plane.SameRings.congr rfl rfl rfl
  · exact fun _ _ => rfl
  · rfl
  · rfl
  · rfl

/-- Turns keep account of every packet, unless the processor dies. -/
theorem turns_leads (w : Worker σ) (p : Plane) (bound : Nat)
    (alive : (w.turns p bound).crashed = false) :
    ∃ pulled, Leads ⟨w, p, [], 0, 0⟩
      ⟨(w.turns p bound).worker, (w.turns p bound).plane, [], 0, 0⟩ pulled := by
  -- One turn follows the other.
  induction bound generalizing w p with
  | zero => exact ⟨[], Leads.refl _⟩
  | succ bound ih =>
    rw [turns] at alive ⊢
    split
    · rename_i running
      rw [if_pos running] at alive
      dsimp only at alive ⊢
      split
      · rename_i dead
        rw [if_pos dead, dead] at alive
        cases alive
      · rename_i living
        rw [if_neg living] at alive
        rw [Bool.not_eq_true] at living
        obtain ⟨pulled, -, turn⟩ := w.turn_leads p living
        obtain ⟨others, rest⟩ := ih _ _ alive
        exact ⟨pulled ++ others, turn.trans rest⟩
    · exact ⟨[], Leads.refl _⟩

/-- What follows the turns of a run: the drain and the end. -/
def conclude (polled : Turn σ) : Turn σ :=
  -- A processor that died ends the run where it is.
  if polled.crashed then polled
  else
    let drained := polled.worker.drain polled.plane
    if drained.crashed then drained
    else
      let (w, plane) := drained.worker.finish drained.plane
      { drained with worker := w, plane }

/-- The end of a run keeps account of every packet, unless the processor dies. Afterwards nothing
waits and the lifecycle is over. -/
theorem conclude_leads (polled : Turn σ) (alive : (conclude polled).crashed = false) :
    polled.crashed = false ∧
      (∃ pulled, Leads ⟨polled.worker, polled.plane, [], 0, 0⟩
        ⟨(conclude polled).worker, (conclude polled).plane, [], 0, 0⟩ pulled) ∧
      (conclude polled).worker.backlog.pending = [] ∧
      (conclude polled).plane.life polled.worker.life = .stopped := by
  -- A processor that died ends the run, and otherwise the drain and the end of the run follow.
  simp only [conclude] at alive ⊢
  split at alive
  · rename_i dead
    rw [dead] at alive
    cases alive
  · rename_i living
    rw [if_neg living]
    rw [Bool.not_eq_true] at living
    split at alive
    · rename_i dead
      rw [dead] at alive
      cases alive
    · rename_i drained
      rw [if_neg drained]
      rw [Bool.not_eq_true] at drained
      obtain ⟨⟨pulled, emptied⟩, empty⟩ := polled.worker.drain_leads polled.plane drained
      obtain ⟨finished, concluded, backlog⟩ :=
        (polled.worker.drain polled.plane).worker.finish_leads
          (polled.worker.drain polled.plane).plane
      have life : (polled.worker.drain polled.plane).worker.life = polled.worker.life :=
        congrArg Fixture.life emptied.fixed
      rw [life] at concluded
      have nothing := (congrArg Backlog.pending backlog).trans empty
      exact ⟨living, ⟨pulled, emptied.andThen finished⟩, nothing, concluded⟩

/-- A run keeps account of every packet, unless the processor dies. Afterwards nothing waits and the
lifecycle is over. -/
theorem run_leads (w : Worker σ) (p : Plane) (bound : Nat)
    (alive : (w.run p bound).crashed = false) :
    (∃ pulled, Leads ⟨w, p, [], 0, 0⟩
        ⟨(w.run p bound).worker, (w.run p bound).plane, [], 0, 0⟩ pulled) ∧
      (w.run p bound).worker.backlog.pending = [] ∧
      (w.run p bound).plane.life w.life = .stopped := by
  -- The lifecycle is set, the worker polls, and what concludes the run comes after that.
  have begun := w.begin_leads p
  have advanced : Leads ⟨w.begin p, p, [], 0, 0⟩
      ⟨w.begin p, (p.advanceLife w.life .created .running).2, [], 0, 0⟩ [] := by
    rw [Plane.advanceLife]
    exact (w.begin p).setLife_leads p _ _
  obtain ⟨⟨taken, q⟩, outcome⟩ : ∃ advance, p.advanceLife w.life .created .running = advance :=
    ⟨_, rfl⟩
  have whole : w.run p bound =
      conclude (if taken then (w.begin p).turns q bound else ⟨0, false, w.begin p, q⟩) := by
    have begins : p.advanceLife (w.begin p).life .created .running = (taken, q) := outcome
    rw [run, begins]
    cases taken <;> rfl
  rw [outcome] at advanced
  rw [whole] at alive ⊢
  have before := begun.trans advanced
  cases taken with
  | true =>
    rw [if_pos rfl] at alive ⊢
    obtain ⟨living, ⟨second, ended⟩, empty, concluded⟩ := conclude_leads _ alive
    obtain ⟨first, turned⟩ := (w.begin p).turns_leads q bound living
    have life : ((w.begin p).turns q bound).worker.life = w.life :=
      congrArg Fixture.life (before.trans turned).fixed
    rw [life] at concluded
    exact ⟨⟨_, (before.trans turned).trans ended⟩, empty, concluded⟩
  | false =>
    rw [if_neg Bool.false_ne_true] at alive ⊢
    obtain ⟨-, ⟨second, ended⟩, empty, concluded⟩ := conclude_leads _ alive
    exact ⟨⟨_, before.trans ended⟩, empty, concluded⟩

end Worker

end PacketPlane
