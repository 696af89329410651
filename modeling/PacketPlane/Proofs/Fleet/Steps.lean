import PacketPlane.Proofs.Plane.Holders
import PacketPlane.Proofs.Worker.Lifecycles

/-! Steps: what one step of one worker does to its packets, to the rings it holds, and to
lifecycles. -/

namespace PacketPlane

/-- Packets come off a ring when it is the input. -/
theorem Flow.outOf_ring (f : Flow) (w : Worker σ) (k : Nat) :
    f.outOf w.ends (.ring k) = if w.input = .ring k then f.pulled else [] := by
  -- A ring is the place of one input only.
  rw [outOf]
  by_cases same : w.input = .ring k
  · have here : Place.ring k = w.ends.input.place := by
      rw [Worker.ends, same]
      rfl
    rw [if_pos here, if_pos same]
  · have apart : Place.ring k ≠ w.ends.input.place := by
      intro here
      cases input : w.input with
      | port owned => simp [Worker.ends, input, Input.place] at here
      | ring number =>
        simp only [Worker.ends, input, Input.place, Place.ring.injEq] at here
        exact same (by rw [input, here])
    rw [if_neg apart, if_neg same]

/-- Packets go on a ring when it is the output. -/
theorem Flow.into_ring (f : Flow) (w : Worker σ) (k : Nat) :
    f.into w.ends (.ring k) = if w.output = .ring k then f.accepted else [] := by
  -- A tap is no ring, and a worker that loops back puts packets on the queue of a port.
  have tap : w.capture.map Place.tap ≠ some (.ring k) := by
    cases w.capture <;> simp
  have target : w.target?.map Target.place = some (.ring k) ↔ w.output = .ring k := by
    rw [Worker.target?]
    cases w.output with
    | port owned => simp [Target.place]
    | ring number => simp [Target.place]
    | loopback => cases w.input <;> simp [Target.place]
    | discard => simp
  simp only [into, Worker.ends, tap, target, if_false, List.append_nil]

namespace Member

variable {σ : Type} {m : Member σ} {p : Plane} {f : Flow}

open Moment

/-- How often a member holds a ring. -/
def holds (m : Member σ) (k : Nat) : Nat :=
  -- A worker whose run is over holds nothing.
  if m.stage = .ended then 0 else ringHolds m.worker.input m.worker.output k

/-- A flow that says what one step of a member moves. -/
def Moves (m : Member σ) (p : Plane) (f : Flow) : Prop :=
  -- The last step is looked at before the worker gives back what it holds.
  let after := if m.stage = .draining 0 then m.close p else ((m.step p).1.worker, (m.step p).2)
  Carries ⟨m.worker, p, [], 0, 0⟩ ⟨after.1, after.2, [], 0, 0⟩ f

/-- A member whose processor neither dies nor reaches for lifecycles in its next step. -/
def Calm (m : Member σ) (p : Plane) : Prop :=
  -- Only turns and batches run the processor.
  m.stage = .polling ∨ (∃ left, m.stage = .draining (left + 1)) →
    (m.step p).1.stage ≠ .ended ∧ (m.step p).2.lives = p.lives

/-- What a change of one member does to rings and to lifecycles: it moves what a flow says, and then
the worker may let go of its ends. -/
structure Effect (m m' : Member σ) (p p' : Plane) (f : Flow) : Prop where
  fixed : m'.worker.fixture = m.worker.fixture
  lives : ∀ other, other ≠ m.worker.life → p'.life other = p.life other
  size : p'.lives.size = p.lives.size
  rings : ∃ q count, Plane.Hauls m.worker.ends p q f ∧ Plane.Leaves q p' count ∧
    ∀ k, m'.holds k + count k = m.holds k

/-- What one step does, with the account of its packets and the stages that it may lead to. -/
structure Stepped (m m' : Member σ) (p p' : Plane) (f : Flow) : Prop
    extends Effect m m' p p' f where
  custody : (m.worker.backlog.pending ++ f.pulled).Perm
    (f.accepted ++ f.released ++ m'.worker.backlog.pending)
  received : m'.worker.counters.rxPackets =
    m.worker.counters.rxPackets + UInt64.ofNat f.pulled.length
  settled : m'.worker.counters.settled =
    m.worker.counters.settled + UInt64.ofNat (f.accepted.length + f.released.length)
  idle : m'.stage = .idle ↔ m.stage = .idle
  ended : m.stage = .ended → m' = m
  empty : m.stage ≠ .ended → m'.stage = .ended → m'.worker.backlog.pending = []
  leaving : ∀ k, m'.holds k < m.holds k → m.stage = .draining 0

/-- A turn or batch after which the run goes on does what its flow says. -/
theorem Stepped.of_carries {m' : Member σ} {p' : Plane}
    (carries : Carries ⟨m.worker, p, [], 0, 0⟩ ⟨m'.worker, p', [], 0, 0⟩ f)
    (idle : m'.stage = .idle ↔ m.stage = .idle) (ended : m'.stage = .ended ↔ m.stage = .ended)
    (finished : m.stage = .ended → m' = m)
    (lives : ∀ other, other ≠ m.worker.life → p'.life other = p.life other)
    (size : p'.lives.size = p.lives.size) : Stepped m m' p p' f := by
  -- The worker gives up no end, so it holds what it held.
  have fixed : m'.worker.fixture = m.worker.fixture := carries.fixed
  have input : m'.worker.input = m.worker.input := congrArg Fixture.input fixed
  have output : m'.worker.output = m.worker.output := congrArg Fixture.output fixed
  have holds : ∀ k, m'.holds k = m.holds k := by
    intro k
    simp only [Member.holds, ended, input, output]
  refine ⟨⟨fixed, lives, size, p', fun _ => 0, carries.hauls, Plane.Leaves.refl p', holds⟩,
    ?_, ?_, ?_, idle, finished, ?_, ?_⟩
  · simpa [kept] using carries.custody
  · simpa [Moment.received] using carries.received
  · simpa [Moment.settled] using carries.settled
  · intro going now
    exact absurd (ended.mp now) going
  · intro k fewer
    exact absurd (holds k ▸ fewer) (Nat.lt_irrefl _)

/-- A member that stays at work does what its flow says. -/
theorem Stepped.of_working {m' : Member σ} {p' : Plane}
    (carries : Carries ⟨m.worker, p, [], 0, 0⟩ ⟨m'.worker, p', [], 0, 0⟩ f)
    (before : m.stage ≠ .idle ∧ m.stage ≠ .ended) (after : m'.stage ≠ .idle ∧ m'.stage ≠ .ended)
    (lives : ∀ other, other ≠ m.worker.life → p'.life other = p.life other)
    (size : p'.lives.size = p.lives.size) : Stepped m m' p p' f :=
  of_carries carries (iff_of_false after.1 before.1) (iff_of_false after.2 before.2)
    (fun finished => absurd finished before.2) lives size

/-- A member that does nothing moves what its flow says. -/
theorem Stepped.of_still
    (carries : Carries ⟨m.worker, p, [], 0, 0⟩ ⟨m.worker, p, [], 0, 0⟩ f) : Stepped m m p p f :=
  of_carries carries Iff.rfl Iff.rfl (fun _ => rfl) (fun _ _ => rfl) rfl

/-- A worker that sets no lifecycle but its own leaves the others as they are. -/
theorem lives_setLife (p : Plane) (number : Nat) (state : LifeState) (other : Nat)
    (apart : other ≠ number) : (p.setLife number state).life other = p.life other := by
  -- The lifecycle set is another one.
  rw [Plane.life_setLife, if_neg]
  exact fun same => apart same.1.symm

/-- The step of a member that is starting. -/
theorem step_starting (starting : m.stage = .starting) (p : Plane) :
    m.step p = if p.life m.worker.life = .created then
        (⟨m.worker.begin p, .polling⟩, p.setLife m.worker.life .running)
      else
        (⟨m.worker.begin p, .draining ((m.worker.begin p).drainCount
            (p.setLife m.worker.life (p.life m.worker.life)))⟩,
          p.setLife m.worker.life (p.life m.worker.life)) := by
  -- By cases on the lifecycle: it goes on to running only if it is new.
  have life : (m.worker.begin p).life = m.worker.life := rfl
  simp only [step, starting, life, Plane.advanceLife_eq, LifeState.advance, beginDrain]
  by_cases created : p.life m.worker.life = .created
  · simp [created, LifeState.rank]
  · simp [created]

/-- The step of a member that is polling. -/
theorem step_polling (polling : m.stage = .polling) (p : Plane) :
    m.step p = if p.life m.worker.life = .running then m.after (m.worker.turn p) .polling
      else (⟨m.worker, .draining (m.worker.drainCount p)⟩, p) := by
  simp only [step, polling, beginDrain]

/-- The step of a member in the middle of its drain. -/
theorem step_draining {left : Nat} (draining : m.stage = .draining (left + 1)) (p : Plane) :
    m.step p = m.after (m.worker.drainBatch p (left + 1))
      (.draining (if (m.worker.drainBatch p (left + 1)).pulled = 0 then 0
        else left + 1 - (m.worker.drainBatch p (left + 1)).pulled)) := by
  simp only [step, draining]

/-- The last step of a member gives back its ends after its flow. -/
theorem close_stepped (last : m.stage = .draining 0)
    (carries : Carries ⟨m.worker, p, [], 0, 0⟩ ⟨(m.close p).1, (m.close p).2, [], 0, 0⟩ f) :
    Stepped m (m.step p).1 p (m.step p).2 f := by
  -- Packets are moved first, and the ends are given up after that.
  obtain ⟨-, empty, -⟩ := m.close_leads p
  have input : (m.close p).1.input = m.worker.input := congrArg Fixture.input carries.fixed
  have output : (m.close p).1.output = m.worker.output := congrArg Fixture.output carries.fixed
  have leaves := (m.close p).2.dismiss_leaves (m.close p).1
  have lives : ((m.close p).2.dismiss (m.close p).1).lives =
      (p.setLife m.worker.life .stopped).lives := leaves.lives.trans (m.close_lives p)
  rw [step_close last]
  refine ⟨⟨carries.fixed, ?_, ?_, (m.close p).2, _, carries.hauls, leaves, ?_⟩, ?_, ?_, ?_, ?_, ?_,
    fun _ _ => empty, fun _ _ => last⟩
  · intro other apart
    rw [Plane.life, lives]
    exact lives_setLife p _ _ other apart
  · rw [lives]
    exact Array.size_setIfInBounds ..
  · intro k
    simp [Member.holds, last, input, output]
  · simpa [kept] using carries.custody
  · simpa [Moment.received] using carries.received
  · simpa [Moment.settled] using carries.settled
  · simp [last]
  · simp [last]

/-- A member in the middle of its work is not idle after a step that does not end it. -/
theorem step_working (working : m.stage = .polling ∨ ∃ left, m.stage = .draining (left + 1))
    (going : (m.step p).1.stage ≠ .ended) : (m.step p).1.stage ≠ .idle := by
  -- By cases on the stage, and a worker that goes on is polling or draining.
  obtain polling | ⟨left, draining⟩ := working
  · rw [step_polling polling] at going ⊢
    split at going
    · rename_i running
      rw [if_pos running, (after_alive going).2]
      exact Stage.noConfusion
    · rename_i running
      rw [if_neg running]
      exact Stage.noConfusion
  · rw [step_draining draining] at going ⊢
    rw [(after_alive going).2]
    exact Stage.noConfusion

/-- A step in the middle of work that keeps calm does what its flow says. -/
theorem working_stepped (working : m.stage = .polling ∨ ∃ left, m.stage = .draining (left + 1))
    (calm : m.Calm p) (moves : m.Moves p f) : Stepped m (m.step p).1 p (m.step p).2 f := by
  -- The step goes on calmly, so it leaves all lifecycles as they are.
  obtain ⟨going, lives⟩ := calm working
  have before : m.stage ≠ .idle ∧ m.stage ≠ .ended ∧ m.stage ≠ .draining 0 := by
    obtain polling | ⟨left, draining⟩ := working
    · simp [polling]
    · simp [draining]
  rw [Moves, if_neg before.2.2] at moves
  refine Stepped.of_working moves ⟨before.1, before.2.1⟩ ⟨step_working working going, going⟩ ?_
    (congrArg Array.size lives)
  intro other _
  rw [Plane.life, lives, Plane.life]

/-- A step that keeps calm does what its flow says. -/
theorem step_stepped (calm : m.Calm p) (moves : m.Moves p f) :
    Stepped m (m.step p).1 p (m.step p).2 f := by
  -- By cases on the stage: a worker that rests does nothing, and each of the others has its lemma.
  cases stage : m.stage with
  | idle =>
    have still : m.step p = (m, p) := by simp only [step, stage]
    rw [Moves, stage, if_neg Stage.noConfusion, still] at moves
    rw [still]
    exact Stepped.of_still moves
  | ended =>
    have still : m.step p = (m, p) := by simp only [step, stage]
    rw [Moves, stage, if_neg Stage.noConfusion, still] at moves
    rw [still]
    exact Stepped.of_still moves
  | starting =>
    rw [Moves, stage, if_neg Stage.noConfusion] at moves
    rw [step_starting stage] at moves ⊢
    have before : m.stage ≠ .idle ∧ m.stage ≠ .ended := by simp [stage]
    -- Created or not, the worker takes up its work, and a lifecycle is set at most.
    split at moves
    · rename_i created
      rw [if_pos created]
      exact Stepped.of_working moves before ⟨Stage.noConfusion, Stage.noConfusion⟩
        (lives_setLife p _ _) (Array.size_setIfInBounds ..)
    · rename_i created
      rw [if_neg created]
      exact Stepped.of_working moves before ⟨Stage.noConfusion, Stage.noConfusion⟩
        (lives_setLife p _ _) (Array.size_setIfInBounds ..)
  | polling => exact working_stepped (Or.inl stage) calm moves
  | draining left =>
    cases left with
    | zero =>
      rw [Moves, if_pos stage] at moves
      exact close_stepped stage moves
    | succ left => exact working_stepped (Or.inr ⟨left, stage⟩) calm moves

/-- Every step that keeps calm has a flow. -/
theorem moves_exists (calm : m.Calm p) : ∃ f, m.Moves p f := by
  -- The last step has the flow of closing, and every other one that of a turn or a batch, if any.
  by_cases last : m.stage = .draining 0
  · obtain ⟨⟨f, carries, -⟩, -⟩ := m.close_leads p
    refine ⟨f, ?_⟩
    rw [Moves, if_pos last]
    exact carries
  · simp only [Moves, if_neg last]
    by_cases finished : m.stage = .ended
    · have still : m.step p = (m, p) := by simp only [step, finished]
      rw [still]
      exact ⟨{}, Carries.refl _⟩
    · have going : (m.step p).1.stage ≠ .ended := by
        cases stage : m.stage with
        | idle => simp [step, stage]
        | ended => exact absurd stage finished
        | starting =>
          rw [step_starting stage]
          split <;> simp
        | polling => exact (calm (Or.inl stage)).1
        | draining left =>
          cases left with
          | zero => exact absurd stage last
          | succ left => exact (calm (Or.inr ⟨left, stage⟩)).1
      obtain ⟨pulled, f, carries, -⟩ := step_leads going
      exact ⟨f, carries⟩

/-- A processor that survives every packet and leaves lifecycles alone keeps calm. -/
theorem calm_of_gentle (m : Member σ) (p : Plane) (survives : m.worker.process.Survives)
    (leaves : m.worker.process.LeavesLives) : m.Calm p := by
  -- Both a turn and a batch survive, and neither touches lifecycles.
  intro working
  obtain polling | ⟨left, draining⟩ := working
  · rw [step_polling polling]
    split
    · rw [after, if_neg (by rw [m.worker.turn_alive p survives]; exact Bool.noConfusion)]
      exact ⟨Stage.noConfusion, m.worker.turn_lives p leaves⟩
    · exact ⟨Stage.noConfusion, rfl⟩
  · rw [step_draining draining, after,
      if_neg (by rw [m.worker.drainBatch_alive p _ survives]; exact Bool.noConfusion)]
    exact ⟨Stage.noConfusion, m.worker.drainBatch_lives p _ leaves⟩

end Member

end PacketPlane
