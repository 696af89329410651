import PacketPlane.Proofs.Fleet.Reachable

/-! Rounds: stopping an engine round by round is one of the ways in which workers can be stopped,
and every worker comes to its end within the rounds that are waited for. -/

namespace PacketPlane

variable {σ : Type}

/-- A fleet whose processors survive every packet and leave lifecycles alone. -/
def Fleet.Gentle (f : Fleet σ) : Prop :=
  ∀ (number : Nat) (m : Member σ), f.members[number]? = some m →
    m.worker.process.Survives ∧ m.worker.process.LeavesLives

namespace History

variable {inputs quiet : Nat → Prop} {h after : History σ} {closed : List Nat}
  {live rest : List Placed} {number left : Nat} {placed : Placed}

/-- Everything that can happen to a gentle fleet leaves it gentle. -/
theorem Goes.gentle (goes : Goes inputs quiet h after) (gentle : h.fleet.Gentle) :
    after.fleet.Gentle := by
  -- A step keeps what a worker was built with, so it has the processor that it had.
  cases goes with
  | step found calm moves =>
    rename_i number m f
    have process : (m.step h.fleet.plane).1.worker.process = m.worker.process :=
      congrArg Fixture.process (Member.step_stepped calm moves).fixed
    intro other n there
    rw [Fleet.step, Fleet.onMember_eq found, Fleet.getElem?_set found] at there
    by_cases same : other = number
    · rw [if_pos same, Option.some.injEq] at there
      subst there
      rw [process]
      exact gentle number m found
    · rw [if_neg same] at there
      exact gentle other n there
  | disturb disturbs still => exact gentle

/-- A worker that was asked to stop and is over after a number of its own steps. -/
def Due (h : History σ) (number left : Nat) : Prop :=
  ∃ m : Member σ, h.fleet.members[number]? = some m ∧ m.stage ≠ .idle ∧
    m.Asked h.fleet.plane ∧ m.stage.due ≤ left

/-- A worker that takes no more steps is over. -/
theorem Due.finished (asked : h.Due number 0) : h.fleet.hasEnded number = true := by
  -- Every stage but the last takes a step at least.
  obtain ⟨m, found, started, -, none⟩ := asked
  rw [Fleet.hasEnded, found]
  cases stage : m.stage with
  | idle => exact absurd stage started
  | ended => simp [stage]
  | starting => simp [stage, Stage.due] at none
  | polling => simp [stage, Stage.due] at none
  | draining left => simp [stage, Stage.due] at none

/-- Whatever others do, a worker that was asked to stop comes no further from its end. -/
theorem Goes.due (goes : Goes inputs quiet h after) (sound : h.Sound inputs)
    (asked : h.Due number left) : after.Due number left := by
  -- By cases on what happens: a step of its own brings it closer, and a step of another leaves it.
  obtain ⟨n, here, started, asked, least⟩ := asked
  have made := sound.made number n here
  cases goes with
  | step found calm moves =>
    rename_i number' m f
    have stepped := Member.step_stepped calm moves
    rw [Due, Fleet.step, Fleet.onMember_eq found, Fleet.getElem?_set found]
    by_cases same : number = number'
    · rw [same, found, Option.some.injEq] at here
      subst here
      have closer := Member.step_due asked
      refine ⟨_, if_pos same, fun idle => started (stepped.idle.mp idle),
        Member.step_asked asked calm, ?_⟩
      omega
    · refine ⟨n, (if_neg same).trans here, started, ?_, least⟩
      have alike : (m.step h.fleet.plane).2.life n.worker.life =
          h.fleet.plane.life n.worker.life := by
        refine stepped.lives _ fun clash => same ?_
        exact sound.distinct number number' n m here found clash
      show (m.step h.fleet.plane).2.life _ ≠ _ ∧ (m.step h.fleet.plane).2.life _ ≠ _
      rw [alike]
      exact asked
  | disturb disturbs still =>
    rename_i plane puts
    refine ⟨n, here, started, ?_, least⟩
    show plane.life _ ≠ _ ∧ plane.life _ ≠ _
    rw [disturbs.lives _ made.life]
    exact asked

/-- One step of a worker of a gentle fleet can happen. A worker that was asked to stop comes closer
to its end with its own step. -/
theorem step_goes (gentle : h.fleet.Gentle) (inputs quiet : Nat → Prop) (number : Nat) :
    ∃ after, Relation.ReflTransGen (Goes inputs quiet) h after ∧
      after.fleet = h.fleet.step number ∧
      ∀ left, h.Due number left → after.Due number (left - 1) := by
  -- A gentle fleet keeps calm in every step, and a number without member takes none.
  cases found : h.fleet.members[number]? with
  | none =>
    refine ⟨h, Relation.ReflTransGen.refl, ?_, ?_⟩
    · rw [Fleet.step, Fleet.onMember, found]
    · rintro left ⟨m, here, -⟩
      rw [found] at here
      cases here
  | some m =>
    obtain ⟨survives, leaves⟩ := gentle number m found
    have calm := m.calm_of_gentle h.fleet.plane survives leaves
    obtain ⟨f, moves⟩ := Member.moves_exists calm
    refine ⟨_, Relation.ReflTransGen.single (Goes.step found calm moves), rfl, ?_⟩
    rintro left ⟨n, here, started, asked, least⟩
    rw [found, Option.some.injEq] at here
    subst here
    have closer := Member.step_due asked
    have stepped := Member.step_stepped calm moves
    rw [Due, Fleet.step, Fleet.onMember_eq found, Fleet.getElem?_set found]
    refine ⟨_, if_pos rfl, fun idle => started (stepped.idle.mp idle),
      Member.step_asked asked calm, ?_⟩
    omega

/-- What holds of a gentle history for whatever may happen next. -/
theorem waited_gentle (waited : Relation.ReflTransGen (Goes inputs quiet) h after)
    (sound : h.Sound inputs) (gentle : h.fleet.Gentle) :
    after.Sound inputs ∧ after.fleet.Gentle ∧
      ∀ number left, h.Due number left → after.Due number left := by
  -- By induction on what happens, each of which keeps all of it.
  induction waited with
  | refl => exact ⟨sound, gentle, fun _ _ => id⟩
  | tail _ goes ih =>
    obtain ⟨sound, gentle, kept⟩ := ih
    exact ⟨goes.sound sound, goes.gentle gentle,
      fun number left asked => goes.due sound (kept number left asked)⟩

/-- Steps of some workers in a row can happen. A worker among them that was asked to stop comes
closer to its end. -/
theorem steps_go (sound : h.Sound inputs) (gentle : h.fleet.Gentle) (quiet : Nat → Prop)
    (numbers : List Nat) :
    ∃ after, Relation.ReflTransGen (Goes inputs quiet) h after ∧
      after.fleet = numbers.foldl Fleet.step h.fleet ∧
      ∀ number ∈ numbers, ∀ left, h.Due number left → after.Due number (left - 1) := by
  -- The first of its own steps brings a worker closer, and the others do not undo it.
  induction numbers generalizing h with
  | nil => exact ⟨h, Relation.ReflTransGen.refl, rfl, by simp⟩
  | cons first others ih =>
    obtain ⟨middle, one, same, closer⟩ := step_goes gentle inputs quiet first
    obtain ⟨sound', gentle', kept⟩ := waited_gentle one sound gentle
    obtain ⟨after, two, same', closer'⟩ := ih sound' gentle'
    refine ⟨after, one.trans two, by rw [same', same, List.foldl_cons], ?_⟩
    intro number there left asked
    obtain rfl | there := List.mem_cons.mp there
    · obtain ⟨-, -, kept'⟩ := waited_gentle two sound' gentle'
      exact kept' number (left - 1) (closer left asked)
    · exact closer' number there left (kept number left asked)

/-- Clocks that run by themselves disturb nobody. -/
theorem tick_disturbs (sound : h.Sound inputs) :
    h.fleet.Disturbs inputs h.fleet.tick.plane fun _ => 0 := by
  -- Clocks are no part of any ring, and nothing is put anywhere.
  have same : h.fleet.plane.SameRings h.fleet.tick.plane := Plane.SameRings.congr rfl rfl rfl
  refine ⟨fun rest => (same.contents rest).1, fun _ _ => rfl, Nat.le_refl _, sound.held,
    fun _ gone => gone, ?_⟩
  intro k _
  exact Or.inl ⟨[], rfl, by rw [(same.contents sound.atRest).2, List.append_nil]⟩

/-- A round can happen, and brings a worker that was asked to stop closer to its end. -/
theorem round_goes (sound : h.Sound inputs) (gentle : h.fleet.Gentle) (quiet : Nat → Prop) :
    ∃ after, Relation.ReflTransGen (Goes inputs quiet) h after ∧
      after.fleet = h.fleet.round ∧
      ∀ number left, h.Due number left → after.Due number (left - 1) := by
  -- The members step one after another, and the clocks go on after that.
  obtain ⟨stepped, waited, same, closer⟩ :=
    steps_go sound gentle quiet (List.range h.fleet.members.size)
  obtain ⟨sound', gentle', -⟩ := waited_gentle waited sound gentle
  have ticked : Goes inputs quiet stepped _ := Goes.disturb (tick_disturbs sound') fun _ _ => rfl
  refine ⟨_, waited.tail ticked, ?_, ?_⟩
  · rw [Fleet.round, ← same]
    rfl
  · intro number left asked
    obtain ⟨m, found, -⟩ := id asked
    have inside := (Array.getElem?_eq_some_iff.mp found).1
    exact ticked.due sound' (closer number (List.mem_range.mpr inside) left asked)

/-- A worker that was asked to stop is over within as many rounds as it has steps left. -/
theorem rounds_go (sound : h.Sound inputs) (gentle : h.fleet.Gentle) (quiet : Nat → Prop)
    {bound : Nat} (asked : h.Due number bound) :
    ∃ after, Relation.ReflTransGen (Goes inputs quiet) h after ∧
      (h.fleet.roundsUntil (·.hasEnded number) bound).2 = after.fleet ∧
      after.fleet.hasEnded number = true := by
  -- Each round that is waited for leaves one step fewer.
  induction bound generalizing h with
  | zero => exact ⟨h, Relation.ReflTransGen.refl, rfl, asked.finished⟩
  | succ bound ih =>
    rw [Fleet.roundsUntil]
    by_cases finished : h.fleet.hasEnded number = true
    · rw [if_pos finished]
      exact ⟨h, Relation.ReflTransGen.refl, rfl, finished⟩
    · obtain ⟨middle, one, same, closer⟩ := round_goes sound gentle quiet
      obtain ⟨sound', gentle', -⟩ := waited_gentle one sound gentle
      obtain ⟨after, two, rounds, finished'⟩ := ih sound' gentle' (closer number (bound + 1) asked)
      rw [if_neg finished, ← same]
      exact ⟨after, one.trans two, rounds, finished'⟩

/-- A running worker that is asked to stop is over within the rounds that are waited for. -/
theorem Orderly.due (orderly : h.Orderly inputs closed (placed :: rest)) :
    (h.ask placed).Due placed.member stopRounds := by
  -- A stage that was asked has its drain ahead at most, which takes no more steps than a ring has
  -- room.
  obtain ⟨m, found, unasked⟩ := orderly.patient placed (List.mem_cons_self ..)
  have made := orderly.sound.made placed.member m found
  have asked : h.ask placed =
      { h with fleet := { h.fleet with plane := h.fleet.plane.requestStop m.worker.life } } := by
    rw [History.ask, Fleet.requestStop, found]
  have draining : (h.fleet.plane.requestStop m.worker.life).life m.worker.life = .draining := by
    rw [Plane.requestStop, Plane.life_setLife, if_pos ⟨rfl, made.life⟩]
    obtain ⟨-, life⟩ | ⟨-, life⟩ := unasked
    · rw [life]
      rfl
    · rw [life]
      rfl
  rw [asked]
  refine ⟨m, found, ?_, ?_, ?_⟩
  · obtain ⟨stage, -⟩ | ⟨stage, -⟩ := unasked <;> simp [stage]
  · rw [Member.Asked]
    show (h.fleet.plane.requestStop m.worker.life).life _ ≠ _ ∧
      (h.fleet.plane.requestStop m.worker.life).life _ ≠ _
    rw [draining]
    exact ⟨LifeState.noConfusion, LifeState.noConfusion⟩
  · obtain ⟨stage, -⟩ | ⟨stage, -⟩ := unasked <;>
      simp only [stage, Stage.due, stopRounds] <;> omega

/-- Stopping workers round by round is one of the ways in which they can be stopped. -/
theorem stopEach_stops (orderly : h.Orderly inputs closed live) (gentle : h.fleet.Gentle)
    (quiet : Nat → Prop) :
    ∃ after, Stops inputs quiet live h after ∧
      (h.engine.stopEach h.fleet stopRounds live).2 = (after.engine, after.fleet) ∧
      after.finals = h.finals ++ (h.engine.stopEach h.fleet stopRounds live).1 := by
  -- Each worker is joined in turn, on the fleet that the one before it left.
  induction live generalizing h closed with
  | nil => exact ⟨h, Stops.none h, rfl, (List.append_nil _).symm⟩
  | cons placed rest ih =>
    obtain ⟨sound, -, -⟩ := orderly.ask
    have gentle' : (h.ask placed).fleet.Gentle := by
      rw [ask, Fleet.requestStop]
      split
      · exact gentle
      · exact gentle
    obtain ⟨ended, waited, rounds, finished⟩ := rounds_go sound gentle' quiet orderly.due
    obtain ⟨joined, engine, finals⟩ := orderly.join waited finished
    obtain ⟨-, gentle'', -⟩ := waited_gentle waited sound gentle'
    obtain ⟨after, later, results, counted⟩ := ih joined gentle''
    have stopped : h.engine.stopOne h.fleet placed stopRounds =
        ((ended.join placed).engine, ended.fleet) := by
      have fleet : ((h.fleet.requestStop placed.member).roundsUntil
          (·.hasEnded placed.member) stopRounds).2 = ended.fleet := rounds
      rw [Engine.stopOne, History.join, engine, ← fleet]
    refine ⟨after, Stops.next waited finished later, ?_, ?_⟩
    · rw [Engine.stopEach, stopped]
      exact results
    · rw [Engine.stopEach, stopped, counted]
      show ended.finals ++ [ended.fleet.counters placed.member] ++ _ = _
      rw [finals, List.append_assoc]
      rfl

end History

end PacketPlane
