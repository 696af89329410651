import PacketPlane.Proofs.Fleet.Steps

/-! Progress: a worker that nobody has asked to stop goes on, and one that was asked drains its
input and comes to its end within a bounded number of steps. -/

namespace PacketPlane

/-- What a flow does to the number of packets on a ring. -/
theorem Plane.Hauls.ring_length {w : Worker σ} {p q : Plane} {f : Flow}
    (hauls : Plane.Hauls w.ends p q f) (rest : p.AtRest) (k : Nat) :
    (if w.input = .ring k then f.pulled.length else 0) + (q.contents (.ring k)).length =
      (p.contents (.ring k)).length + if w.output = .ring k then f.accepted.length else 0 := by
  -- The places tell in which order packets move, of which only the number is kept.
  have moved := congrArg List.length ((hauls.places rest).2 (.ring k))
  rw [List.length_append, List.length_append, Flow.outOf_ring, Flow.into_ring] at moved
  rw [apply_ite List.length, apply_ite List.length] at moved
  exact moved

/-- How many steps a worker takes at most until its run is over, once it was asked to stop. -/
def Stage.due : Stage → Nat
  -- A drain takes at least one packet with each step, or ends.
  | .idle | .ended => 0
  | .starting | .polling => maxRingCapacity + 2
  | .draining left => left + 1

/-- A drain never takes more packets than a ring has room for. -/
theorem Worker.drainCount_le (w : Worker σ) (p : Plane) : w.drainCount p ≤ maxRingCapacity := by
  -- Only rings are counted, and no ring has a larger capacity.
  rw [drainCount]
  split
  · rename_i number input
    rw [Plane.ringCount]
    split
    · exact Nat.zero_le _
    · rename_i ring found
      exact Nat.le_trans (Nat.min_le_right _ _) ring.capacity_valid.2
  · exact Nat.zero_le _

namespace Member

variable {σ : Type} {m : Member σ} {p : Plane}

open Moment

/-- A worker that was started and that nobody has asked to stop. -/
def Unasked (m : Member σ) (p : Plane) : Prop :=
  -- Its lifecycle goes with its stage.
  m.stage = .starting ∧ p.life m.worker.life = .created ∨
    m.stage = .polling ∧ p.life m.worker.life = .running

/-- A worker that was asked to stop, whatever it has done since. -/
def Asked (m : Member σ) (p : Plane) : Prop :=
  p.life m.worker.life ≠ .created ∧ p.life m.worker.life ≠ .running

/-- A worker whose drain is never behind what is left on its input. -/
def Bounded (m : Member σ) (p : Plane) : Prop :=
  -- Nothing is left once the run is over.
  ∀ k, m.worker.input = .ring k →
    (∀ left, m.stage = .draining left → (p.contents (.ring k)).length ≤ left) ∧
      (m.stage = .ended → p.contents (.ring k) = [])

/-- A worker that nobody has asked to stop is not asked by its own steps. -/
theorem step_unasked (unasked : m.Unasked p) (calm : m.Calm p)
    (inside : m.worker.life < p.lives.size) : (m.step p).1.Unasked (m.step p).2 := by
  -- By cases on the stage: starting sets the worker running, and a turn leaves its lifecycle.
  obtain ⟨starting, created⟩ | ⟨polling, running⟩ := unasked
  · rw [step_starting starting, if_pos created]
    refine Or.inr ⟨rfl, ?_⟩
    exact (Plane.life_setLife p _ _ _).trans (if_pos ⟨rfl, inside⟩)
  · obtain ⟨going, lives⟩ := calm (Or.inl polling)
    obtain ⟨f, moves⟩ := moves_exists calm
    have life : (m.step p).1.worker.life = m.worker.life :=
      congrArg Fixture.life (step_stepped calm moves).fixed
    refine Or.inr ⟨?_, ?_⟩
    · rw [step_polling polling, if_pos running] at going ⊢
      rw [(after_alive going).2]
    · rw [life, Plane.life, lives]
      exact running

/-- A worker that was asked to stop stays so. -/
theorem step_asked (asked : m.Asked p) (calm : m.Calm p) : (m.step p).1.Asked (m.step p).2 := by
  -- By cases on the stage: no step brings a lifecycle back to running.
  obtain ⟨f, moves⟩ := moves_exists calm
  have life : (m.step p).1.worker.life = m.worker.life :=
    congrArg Fixture.life (step_stepped calm moves).fixed
  rw [Asked, life]
  cases stage : m.stage with
  | idle =>
    simp only [step, stage]
    exact asked
  | ended =>
    simp only [step, stage]
    exact asked
  | starting =>
    rw [step_starting stage, if_neg asked.1, Plane.life_setLife, ite_self]
    exact asked
  | polling =>
    rw [step_polling stage, if_neg asked.2]
    exact asked
  | draining left =>
    cases left with
    | zero =>
      -- The last step sets the lifecycle to stopped.
      have leaves := (m.close p).2.dismiss_leaves (m.close p).1
      have lives : ((m.close p).2.dismiss (m.close p).1).life m.worker.life =
          (p.setLife m.worker.life .stopped).life m.worker.life := by
        rw [Plane.life, leaves.lives, m.close_lives p]
        rfl
      rw [step_close stage, lives, Plane.life_setLife]
      split
      · exact ⟨LifeState.noConfusion, LifeState.noConfusion⟩
      · exact asked
    | succ left =>
      rw [Plane.life, (calm (Or.inr ⟨left, stage⟩)).2]
      exact asked

/-- A worker that was asked to stop comes closer to its end with every step. -/
theorem step_due (asked : m.Asked p) : (m.step p).1.stage.due ≤ m.stage.due - 1 := by
  -- By cases on the stage: each step is the last one of its stage or takes at least one packet.
  cases stage : m.stage with
  | idle => simp [step, stage, Stage.due]
  | ended => simp [step, stage, Stage.due]
  | starting =>
    rw [step_starting stage, if_neg asked.1]
    have most := (m.worker.begin p).drainCount_le (p.setLife m.worker.life (p.life m.worker.life))
    simp only [Stage.due]
    omega
  | polling =>
    rw [step_polling stage, if_neg asked.2]
    have most := m.worker.drainCount_le p
    simp only [Stage.due]
    omega
  | draining left =>
    cases left with
    | zero =>
      rw [step_close stage]
      exact Nat.zero_le _
    | succ left =>
      rw [step_draining stage, after]
      split
      · exact Nat.zero_le _
      · simp only [Stage.due]
        split
        · omega
        · omega

/-- A batch takes as many packets as are left to take, as fit in a burst, or as are there. -/
theorem drainBatch_count {w : Worker σ} {k left : Nat} (input : w.input = .ring k)
    (rest : p.AtRest) (alive : (w.drainBatch p left).crashed = false) :
    (w.drainBatch p left).pulled =
      min (min left w.settings.burstSize.toNat) (p.contents (.ring k)).length := by
  -- What is dequeued is what the processor is given, unless it dies.
  rw [← p.length_dequeueBulk rest k]
  simp only [Worker.drainBatch, input] at alive ⊢
  split
  · rename_i empty
    rw [List.isEmpty_iff.mp empty]
    rfl
  · rename_i some
    rw [if_neg some] at alive
    split at alive
    · rename_i dead
      rw [dead] at alive
      cases alive
    · rename_i living
      rw [if_neg living]
      rw [Bool.not_eq_true] at living
      exact (Worker.processBurst_leads _ _ _ _ living).2

/-- A batch leaves as much less on the input as it pulled, when nothing goes back there. -/
theorem drainBatch_rest {w : Worker σ} {k left : Nat} (input : w.input = .ring k)
    (apart : w.output ≠ .ring k) (rest : p.AtRest)
    (alive : (w.drainBatch p left).crashed = false) :
    ((w.drainBatch p left).plane.contents (.ring k)).length + (w.drainBatch p left).pulled =
      (p.contents (.ring k)).length := by
  -- What was pulled has left the ring, and nothing else has come to it.
  obtain ⟨pulled, length, f, carries, same⟩ := w.drainBatch_leads p left alive
  have moved := carries.hauls.ring_length rest k
  rw [if_pos input, if_neg apart, same, Nat.add_zero] at moved
  rw [← length, Nat.add_comm]
  exact moved

/-- A drain starts out with everything that is there. -/
theorem bounded_drainCount (w : Worker σ) (rest : p.AtRest) :
    Member.Bounded ⟨w, .draining (w.drainCount p)⟩ p := by
  -- The drain is to take as many packets as it finds on the ring.
  intro k input
  refine ⟨?_, fun impossible => Stage.noConfusion impossible⟩
  intro left draining
  have source : w.input = .ring k := input
  have drainCount : left = p.ringCount k := by
    rw [← Stage.draining.inj draining, Worker.drainCount]
    simp only [source]
  exact Nat.le_of_eq ((drainCount.trans (Plane.ringCount_eq rest k)).symm)

/-- A step of a worker that nobody feeds keeps its drain from falling behind. -/
theorem step_bounded (bounded : m.Bounded p) (calm : m.Calm p) (rest : p.AtRest)
    (apart : ∀ k, m.worker.input = .ring k → m.worker.output ≠ .ring k)
    (burst : 0 < m.worker.settings.burstSize.toNat) : (m.step p).1.Bounded (m.step p).2 := by
  -- By cases on the stage: a batch takes a packet off the ring for each one it counts as taken.
  cases stage : m.stage with
  | idle =>
    simp only [step, stage]
    exact bounded
  | ended =>
    simp only [step, stage]
    exact bounded
  | starting =>
    have same : p.SameRings (p.setLife m.worker.life (p.life m.worker.life)) :=
      Plane.SameRings.congr rfl rfl rfl
    rw [step_starting stage]
    split
    · simp [Bounded]
    · exact bounded_drainCount (m.worker.begin p) (same.contents rest).1
  | polling =>
    rw [step_polling stage]
    split
    · rename_i running
      have going := (calm (Or.inl stage)).1
      rw [step_polling stage, if_pos running] at going
      rw [(after_alive going).2]
      simp [Bounded]
    · exact bounded_drainCount m.worker rest
  | draining left =>
    obtain ⟨f, moves⟩ := moves_exists calm
    have stepped := step_stepped calm moves
    intro k there
    have input : m.worker.input = .ring k :=
      (congrArg Fixture.input stepped.fixed).symm.trans there
    have most := (bounded k input).1 left stage
    cases left with
    | zero =>
      obtain ⟨q, count, hauls, leaves, -⟩ := stepped.rings
      -- Nothing is left to take, so what the step moved off the ring is all that was there.
      have moved := hauls.ring_length rest k
      rw [if_pos input, if_neg (apart k input), Nat.add_zero] at moved
      have empty : (m.step p).2.contents (.ring k) = [] := by
        obtain same | ⟨-, -, empty⟩ := leaves.contents (hauls.places rest).1 k
        · rw [same]
          exact List.eq_nil_of_length_eq_zero (by omega)
        · exact empty
      rw [step_close stage] at empty ⊢
      exact ⟨fun left impossible => Stage.noConfusion impossible, fun _ => empty⟩
    | succ left =>
      have going := (calm (Or.inr ⟨left, stage⟩)).1
      rw [step_draining stage] at going
      obtain ⟨alive, whole⟩ := after_alive going
      -- As many packets leave the ring as the batch took from what it had left to take.
      have count := drainBatch_count input rest alive
      have batch := drainBatch_rest input (apart k input) rest alive
      rw [step_draining stage, whole]
      refine ⟨?_, fun impossible => Stage.noConfusion impossible⟩
      intro remaining draining
      rw [← Stage.draining.inj draining]
      simp only
      split
      · omega
      · omega

end Member

end PacketPlane
