import PacketPlane.Proofs.Fleet.Reachable

/-! Stopping: while workers are stopped in the order in which packets flow, nobody at work puts
packets on a ring once a worker that takes from it was asked to stop, so the ring runs dry. -/

namespace PacketPlane

variable {σ : Type}

/-- Workers in an order in which every worker that puts packets on a ring comes before every worker
that takes packets from it. -/
def Fleet.Staged (f : Fleet σ) (live : List Placed) : Prop :=
  ∀ (i j : Nat) (source sink : Placed) (k : Nat), live[i]? = some source →
    live[j]? = some sink → f.Feeds source.member k → f.Takes sink.member k → i < j

/-- Fleets whose workers have the same ends. -/
def Fleet.SameEnds (f f' : Fleet σ) : Prop :=
  ∀ number : Nat, f'.members[number]?.map (fun m => m.worker.fixture) =
    f.members[number]?.map fun m => m.worker.fixture

namespace Fleet

variable {f f' f'' : Fleet σ} {number k : Nat} {live : List Placed}

/-- A worker takes from a ring as long as its ends stay the same. -/
theorem SameEnds.takes (same : f.SameEnds f') : f'.Takes number k ↔ f.Takes number k := by
  -- What a worker takes from is part of its fixture.
  have by_fixture : ∀ f : Fleet σ, f.Takes number k ↔
      ∃ fixture, f.members[number]?.map (fun m => m.worker.fixture) = some fixture ∧
        fixture.input = .ring k := by
    intro f
    simp [Takes, Worker.fixture]
  rw [by_fixture, by_fixture, same]

/-- A worker puts packets on a ring as long as its ends stay the same. -/
theorem SameEnds.feeds (same : f.SameEnds f') : f'.Feeds number k ↔ f.Feeds number k := by
  -- What a worker puts packets on is part of its fixture.
  have by_fixture : ∀ f : Fleet σ, f.Feeds number k ↔
      ∃ fixture, f.members[number]?.map (fun m => m.worker.fixture) = some fixture ∧
        fixture.output = .ring k := by
    intro f
    simp [Feeds, Worker.fixture]
  rw [by_fixture, by_fixture, same]

/-- An order of workers depends on their ends alone. -/
theorem Staged.congr (staged : f.Staged live) (same : f.SameEnds f') : f'.Staged live := by
  -- Only who feeds and who takes is looked at.
  intro i j source sink k first second feeds takes
  exact staged i j source sink k first second (same.feeds.mp feeds) (same.takes.mp takes)

/-- The workers behind the first one are in order. -/
theorem Staged.tail {placed : Placed} (staged : f.Staged (placed :: live)) : f.Staged live := by
  -- Positions behind the first one are one higher in the whole order.
  intro i j source sink k first second feeds takes
  exact Nat.lt_of_succ_lt_succ (staged (i + 1) (j + 1) source sink k first second feeds takes)

/-- Nobody in the order puts packets on a ring that the first worker takes from. -/
theorem Staged.head {placed other : Placed} (staged : f.Staged (placed :: live))
    (takes : f.Takes placed.member k) (there : other ∈ placed :: live) :
    ¬ f.Feeds other.member k := by
  -- Nobody comes before the first.
  intro feeds
  obtain ⟨i, found⟩ := List.mem_iff_getElem?.mp there
  exact Nat.not_lt_zero i (staged i 0 other placed k found rfl feeds takes)

end Fleet

namespace History

variable {inputs quiet : Nat → Prop} {h after : History σ} {closed : List Nat}
  {asked live rest : List Placed} {number k : Nat} {m : Member σ} {placed : Placed}

/-- A ring that nobody at work puts packets on. -/
def Dry (h : History σ) (k : Nat) : Prop :=
  -- Workers that were never started do not work either.
  ∀ (number : Nat) (m : Member σ), h.fleet.members[number]? = some m →
    m.worker.output = .ring k → m.stage = .idle ∨ m.stage = .ended

/-- A history in the middle of a stop: the rings of workers that were asked run dry, their drains
are not behind, and every packet on a ring between workers is known. -/
structure Stopping (h : History σ) (asked rest : List Placed) : Prop where
  dry : ∀ placed ∈ asked, ∀ k, h.fleet.Takes placed.member k → h.Dry k
  bounded : ∀ placed ∈ asked, ∀ m : Member σ, h.fleet.members[placed.member]? = some m →
    m.Bounded h.fleet.plane
  squared : ∀ placed ∈ asked ++ rest, ∀ k, h.fleet.Takes placed.member k → h.Squared k

/-- Workers keep their ends when one of them changes that keeps its own. -/
theorem sameEnds_replace {m' : Member σ} {plane : Plane}
    (found : h.fleet.members[number]? = some m) (fixed : m'.worker.fixture = m.worker.fixture) :
    h.fleet.SameEnds ⟨plane, h.fleet.members.setIfInBounds number m'⟩ := by
  -- The member is the one that was replaced, with its own fixture, or another.
  intro other
  rw [Fleet.getElem?_set found]
  by_cases same : other = number
  · rw [if_pos same, same, found, Option.map_some, Option.map_some, fixed]
  · rw [if_neg same]

/-- Nothing that happens changes the ends of a worker. -/
theorem Goes.sameEnds (goes : Goes inputs quiet h after) : h.fleet.SameEnds after.fleet := by
  -- A step keeps the fixture of the member, and others do not touch members.
  cases goes with
  | step found calm moves =>
    rename_i number m f
    rw [Fleet.step, Fleet.onMember_eq found]
    exact sameEnds_replace found (Member.step_stepped calm moves).fixed
  | disturb disturbs still => exact fun _ => rfl

/-- Running workers only take packets from rings that nobody else takes packets from. -/
theorem Reachable.between (reached : Reachable inputs h) (between : h.Between k) : inputs k := by
  -- By induction on the history: each event keeps the running workers, or adds one or removes some.
  induction reached with
  | start cores settings atRest =>
    obtain ⟨placed, there, -⟩ := between
    cases there
  | goes _ goes ih =>
    obtain ⟨placed, there, takes⟩ := between
    rw [goes.engine.1] at there
    exact ih ⟨placed, there, goes.sameEnds.takes.mp takes⟩
  | @build h reached plan held ih =>
    obtain ⟨placed, there, takes⟩ := between
    obtain ⟨closed, orderly⟩ := reached.orderly
    obtain ⟨n, here, -⟩ := orderly.patient placed there
    -- ⟨w, plane, -, built⟩ | The new member comes last, and is not running.
    obtain refused | ⟨w, plane, -, built⟩ := h.fleet.build_cases plan
    · rw [refused] at takes
      exact ih ⟨placed, there, takes⟩
    · rw [built] at takes
      obtain ⟨m, found, input⟩ := takes
      have inside := (Array.getElem?_eq_some_iff.mp here).1
      have old : (h.fleet.members.push { worker := w })[placed.member]? = some m := found
      rw [Array.getElem?_push, if_neg (Nat.ne_of_lt inside)] at old
      exact ih ⟨placed, there, m, old, input⟩
  | @poll h _ number m f found idle alive lives carries ih =>
    obtain ⟨placed, there, takes⟩ := between
    have ends : h.fleet.SameEnds (h.fleet.turnHere number).2 := by
      rw [Fleet.turnHere, found]
      simp only [Member.after, alive, Bool.false_eq_true, if_false]
      exact sameEnds_replace found carries.fixed
    exact ih ⟨placed, there, ends.takes.mp takes⟩
  | @dismiss h _ number m found idle ih =>
    obtain ⟨placed, there, takes⟩ := between
    have ends : h.fleet.SameEnds (h.fleet.dismiss number) := by
      rw [Fleet.dismiss, Fleet.onMember_eq found, idle]
      exact sameEnds_replace found rfl
    exact ih ⟨placed, there, ends.takes.mp takes⟩
  | disable _ disabled ih => exact ih between
  | @spawn h _ number m found idle used preference ih =>
    obtain ⟨placed, there, takes⟩ := between
    obtain ⟨_, refused⟩ | ⟨claim, cores, pins, core, reporter, -, spawned⟩ :=
      h.engine.spawn_cases found idle preference
    · -- A worker that could not be placed is dismissed, and nobody else is running than before.
      have ends : h.fleet.SameEnds (h.fleet.dismiss number) := by
        rw [Fleet.dismiss, Fleet.onMember_eq found, idle]
        exact sameEnds_replace found rfl
      rw [refused] at there takes
      exact ih ⟨placed, there, ends.takes.mp takes⟩
    · rw [spawned] at there takes
      have ends : h.fleet.SameEnds ⟨h.fleet.plane,
          h.fleet.members.setIfInBounds number ⟨{ m.worker with core, reporter }, .starting⟩⟩ :=
        sameEnds_replace found rfl
      -- The one that was placed is new among those running, and was built on a ring set apart as
      -- input.
      have before := ends.takes.mp takes
      obtain there | there := List.mem_append.mp there
      · exact ih ⟨placed, there, before⟩
      · rw [List.mem_singleton.mp there] at before
        obtain ⟨n, here, input⟩ := before
        have own : some n = some m := here.symm.trans found
        cases own
        exact used k input
  | @stop h after reached shuts ih =>
    obtain ⟨placed, there, -⟩ := between
    obtain ⟨closed, orderly⟩ := reached.orderly
    rw [(Stops.orderly shuts (orderly.setRunning [])).2] at there
    cases there

/-- A member that is not at work takes no step. -/
theorem step_resting (resting : m.stage = .idle ∨ m.stage = .ended) (p : Plane) :
    m.step p = (m, p) := by
  obtain idle | ended := resting
  · simp only [Member.step, idle]
  · simp only [Member.step, ended]

/-- A dry ring stays dry. -/
theorem Goes.dry (goes : Goes inputs quiet h after) (dry : h.Dry k) : after.Dry k := by
  -- A member that feeds the ring is over, and takes no step.
  cases goes with
  | step found calm moves =>
    rename_i number m f
    have fixed := (Member.step_stepped calm moves).fixed
    have output : (m.step h.fleet.plane).1.worker.output = m.worker.output :=
      congrArg Fixture.output fixed
    intro other n there feeds
    rw [Fleet.step, Fleet.onMember_eq found, Fleet.getElem?_set found] at there
    by_cases same : other = number
    · rw [if_pos same, Option.some.injEq] at there
      subst there
      have resting := dry number m found (output.symm.trans feeds)
      rw [step_resting resting]
      exact resting
    · rw [if_neg same] at there
      exact dry other n there feeds
  | disturb disturbs still => exact dry

/-- A dry ring that is quiet only loses packets. -/
theorem Goes.shrinks (goes : Goes inputs quiet h after) (sound : h.Sound inputs) (dry : h.Dry k)
    (input : inputs k) (calmly : quiet k) :
    (after.fleet.plane.contents (.ring k)).length ≤
      (h.fleet.plane.contents (.ring k)).length := by
  -- By cases on what happens: whoever feeds the ring is over, and others leave a quiet ring alone.
  cases goes with
  | step found calm moves =>
    rename_i number m f
    rw [Fleet.step, Fleet.onMember_eq found]
    by_cases feeds : m.worker.output = .ring k
    · rw [step_resting (dry number m found feeds)]
    · obtain ⟨q, count, hauls, leaves, -⟩ := (Member.step_stepped calm moves).rings
      have moved := hauls.ring_length sound.atRest k
      rw [if_neg feeds] at moved
      obtain same | ⟨-, -, empty⟩ := leaves.contents (hauls.places sound.atRest).1 k
      · show ((m.step h.fleet.plane).2.contents _).length ≤ _
        rw [same]
        omega
      · show ((m.step h.fleet.plane).2.contents _).length ≤ _
        rw [empty]
        exact Nat.zero_le _
  | disturb disturbs still =>
    rename_i plane puts
    show (plane.contents _).length ≤ _
    obtain ⟨packets, length, appended⟩ | ⟨-, empty⟩ := disturbs.puts k input
    · have none := still k calmly
      rw [appended, List.length_append]
      omega
    · rw [empty]
      exact Nat.zero_le _

/-- A drain does not fall behind when the worker's input only loses packets. -/
theorem bounded_shrinks {p p' : Plane} (bounded : m.Bounded p)
    (fewer : ∀ k, m.worker.input = .ring k →
      (p'.contents (.ring k)).length ≤ (p.contents (.ring k)).length) : m.Bounded p' := by
  -- Fewer packets than a drain has still to take remain fewer.
  intro k input
  obtain ⟨drains, ends⟩ := bounded k input
  have less := fewer k input
  refine ⟨fun left draining => Nat.le_trans less (drains left draining), fun ended => ?_⟩
  rw [ends ended, List.length_nil] at less
  exact List.eq_nil_of_length_eq_zero (Nat.le_zero.mp less)

/-- A drain of a worker whose input is dry and quiet does not fall behind. -/
theorem Goes.bounded (goes : Goes inputs quiet h after) (sound : h.Sound inputs)
    (found : h.fleet.members[number]? = some m) (bounded : m.Bounded h.fleet.plane)
    (dry : ∀ k, m.worker.input = .ring k → h.Dry k)
    (calmly : ∀ k, m.worker.input = .ring k → inputs k ∧ quiet k) :
    ∀ n, after.fleet.members[number]? = some n → n.Bounded after.fleet.plane := by
  -- A step of the member itself keeps up with its drain, and all others only take from the ring.
  have made := sound.made number m found
  have fewer := fun k input => goes.shrinks sound (dry k input) (calmly k input).1
    (calmly k input).2
  cases goes with
  | step found' calm moves =>
    rename_i number' m' f
    intro n there
    rw [Fleet.step, Fleet.onMember_eq found'] at there fewer ⊢
    have there : (h.fleet.members.setIfInBounds number' _)[number]? = some n := there
    rw [Fleet.getElem?_set found'] at there
    by_cases same : number = number'
    · rw [if_pos same, Option.some.injEq] at there
      rw [same, found', Option.some.injEq] at found
      subst found
      subst there
      -- A member that rests keeps what it has, and one that works does not feed its own input.
      by_cases resting : m'.stage = .idle ∨ m'.stage = .ended
      · rw [step_resting resting]
        exact bounded
      · refine Member.step_bounded bounded calm sound.atRest ?_ made.burst
        intro k input feeds
        exact resting (dry k input number' m' found' feeds)
    · rw [if_neg same, found, Option.some.injEq] at there
      subst there
      exact bounded_shrinks bounded fewer
  | disturb disturbs still =>
    intro n there
    rw [found, Option.some.injEq] at there
    subst there
    exact bounded_shrinks bounded fewer

/-- A worker whose input ring nobody holds any more is over. -/
theorem over_of_gone (sound : h.Sound inputs) (found : h.fleet.members[number]? = some m)
    (input : m.worker.input = .ring k) (gone : h.fleet.plane.holders? k = some 0) :
    m.stage = .ended := by
  -- A worker that is not over holds its input.
  have none := sound.held k
  have part := Fleet.le_sum found fun _ m => m.holds k
  rw [gone, Option.getD_some, Fleet.holds] at none
  by_cases finished : m.stage = .ended
  · exact finished
  · have some : 0 < m.holds k := by
      rw [Member.holds, if_neg finished, ringHolds, if_pos input]
      omega
    exact absurd (Nat.le_trans part none) (Nat.not_le_of_lt some)

/-- What is known of a worker that takes from a ring, asked or not, when nobody holds it any more.
-/
theorem empty_of_gone (sound : after.Sound inputs) (goes : Goes inputs quiet h after)
    (stopping : h.Stopping asked rest) (patient : after.Patient rest)
    (there : placed ∈ asked ++ rest) (takes : h.fleet.Takes placed.member k)
    (gone : after.fleet.plane.holders? k = some 0) :
    h.Dry k ∧ ∃ n : Member σ, h.fleet.members[placed.member]? = some n ∧
      n.worker.input = .ring k ∧ n.Bounded h.fleet.plane ∧
      ∃ n' : Member σ, after.fleet.members[placed.member]? = some n' ∧ n'.stage = .ended := by
  -- The worker is over by then, and one that nobody has asked would not be.
  obtain ⟨n', found', input'⟩ := goes.sameEnds.takes.mpr takes
  have finished := over_of_gone sound found' input' gone
  obtain ⟨n, found, input⟩ := takes
  obtain there | there := List.mem_append.mp there
  · exact ⟨stopping.dry placed there k ⟨n, found, input⟩, n, found, input,
      stopping.bounded placed there n found, n', found', finished⟩
  · -- A worker that nobody has asked to stop is not over.
    obtain ⟨n'', found'', unasked⟩ := patient placed there
    rw [found', Option.some.injEq] at found''
    subst found''
    rw [Member.Unasked, finished] at unasked
    simp at unasked

/-- Every packet on a ring between workers stays known. -/
theorem Goes.squared (goes : Goes inputs quiet h after) (sound : h.Sound inputs)
    (stopping : h.Stopping asked rest) (patient : after.Patient rest)
    (there : placed ∈ asked ++ rest) (takes : h.fleet.Takes placed.member k) (input : inputs k)
    (calmly : quiet k) : after.Squared k := by
  -- By cases on what happens: a step moves what its flow says, and a quiet ring gains nothing else.
  have known := stopping.squared placed there k takes
  have later := goes.sound sound
  have facts := fun gone => empty_of_gone later goes stopping patient there takes gone
  cases goes with
  | step found calm moves =>
    rename_i number m f
    have stepped := Member.step_stepped calm moves
    obtain ⟨q, count, hauls, leaves, lost⟩ := stepped.rings
    have moved := hauls.ring_length sound.atRest k
    rw [Fleet.step, Fleet.onMember_eq found] at facts ⊢
    refine known.replace found sound.atRest stepped.fixed hauls ?_
    obtain same | ⟨less, gone, empty⟩ := leaves.contents (hauls.places sound.atRest).1 k
    · exact same
    · -- The worker that leaves last has left nothing behind.
      obtain ⟨dry, n, here, source, bounded, n', here', finished⟩ := facts gone
      have fewer := lost k
      have leaving := stepped.leaving k (by omega)
      have apart : m.worker.output ≠ .ring k := by
        intro feeds
        have resting := dry number m found feeds
        rw [leaving] at resting
        simp at resting
      have before : h.fleet.plane.contents (.ring k) = [] := by
        obtain ⟨drains, ends⟩ := bounded k source
        by_cases same : placed.member = number
        · rw [same, found, Option.some.injEq] at here
          subst here
          exact List.eq_nil_of_length_eq_zero (Nat.le_zero.mp (drains 0 leaving))
        · have here' : (h.fleet.members.setIfInBounds number _)[placed.member]? = some n' := here'
          rw [Fleet.getElem?_set found, if_neg same, here, Option.some.injEq] at here'
          subst here'
          exact ends finished
      rw [if_neg apart, before, List.length_nil] at moved
      have nothing : q.contents (.ring k) = [] :=
        List.eq_nil_of_length_eq_zero (by omega)
      exact empty.trans nothing.symm
  | disturb disturbs still =>
    rename_i plane puts
    obtain ⟨packets, length, appended⟩ | ⟨gone, empty⟩ := disturbs.puts k input
    · exact known.offer packets length appended
    · obtain ⟨dry, n, here, source, bounded, n', here', finished⟩ := facts gone
      rw [here, Option.some.injEq] at here'
      subst here'
      have before := (bounded k source).2 finished
      have appended : plane.contents (.ring k) = h.fleet.plane.contents (.ring k) ++ [] := by
        rw [empty, before, List.append_nil]
      exact known.offer [] (still k calmly).symm appended

/-- Whatever happens in the middle of a stop, the rings of workers that were asked run dry. -/
theorem Goes.stopping (goes : Goes inputs quiet h after) (sound : h.Sound inputs)
    (patient : h.Patient rest) (stopping : h.Stopping asked rest)
    (calmly : ∀ placed ∈ asked ++ rest, ∀ k, h.fleet.Takes placed.member k →
      inputs k ∧ quiet k) : after.Stopping asked rest := by
  -- Each of the three parts is kept by itself, where workers keep their ends.
  have ends := goes.sameEnds
  refine ⟨?_, ?_, ?_⟩
  · intro placed there k takes
    exact goes.dry (stopping.dry placed there k (ends.takes.mp takes))
  · intro placed there n found'
    have same := ends placed.member
    rw [found', Option.map_some] at same
    obtain ⟨m, found, -⟩ := Option.map_eq_some_iff.mp same.symm
    refine goes.bounded sound found (stopping.bounded placed there m found) ?_ ?_ n found'
    · intro k input
      exact stopping.dry placed there k ⟨m, found, input⟩
    · intro k input
      exact calmly placed (List.mem_append_left _ there) k ⟨m, found, input⟩
  · intro placed there k takes
    have before := ends.takes.mp takes
    obtain ⟨input, still⟩ := calmly placed there k before
    exact goes.squared sound stopping (goes.patient sound patient) there before input still

end History

end PacketPlane
