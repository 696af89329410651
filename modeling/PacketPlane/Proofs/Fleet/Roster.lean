import PacketPlane.Proofs.Cores.Claims
import PacketPlane.Proofs.Fleet.Building

/-! Rosters: an engine knows which of its workers are running and which were stopped, and every
claim on a core belongs to a running one. -/

namespace PacketPlane

variable {σ : Type}

namespace History

/-- The workers that an engine stopped, those that it runs, and what it keeps of both. -/
structure Roster (h : History σ) (closed : List Nat) (live : List Placed) : Prop where
  registered : h.engine.registered = closed ++ live.map Placed.member
  once : h.engine.registered.Nodup
  finished : ∀ number ∈ closed, ∃ m : Member σ,
    h.fleet.members[number]? = some m ∧ m.stage = .ended
  started : ∀ placed ∈ live, ∃ m : Member σ,
    h.fleet.members[placed.member]? = some m ∧ m.stage ≠ .idle
  others : ∀ (number : Nat) (m : Member σ), h.fleet.members[number]? = some m →
    number ∉ h.engine.registered → m.stage = .idle ∨ m.stage = .ended
  finals : h.finals = closed.map h.fleet.counters
  cores : h.engine.cores.Holds (live.map Placed.claim)

/-- Running workers none of which was asked to stop. -/
def Patient (h : History σ) (live : List Placed) : Prop :=
  ∀ placed ∈ live, ∃ m : Member σ,
    h.fleet.members[placed.member]? = some m ∧ m.Unasked h.fleet.plane

variable {inputs quiet : Nat → Prop} {h after : History σ} {closed : List Nat}
  {live rest : List Placed} {number : Nat} {m m' : Member σ} {plane : Plane} {f : Flow}
  {placed : Placed}

/-- A worker that was never started is not registered. -/
theorem Roster.unregistered (roster : h.Roster closed live)
    (found : h.fleet.members[number]? = some m) (idle : m.stage = .idle) :
    number ∉ h.engine.registered := by
  -- Whoever is registered was stopped or is running, and neither is so without having been started.
  rw [roster.registered, List.mem_append, List.mem_map]
  rintro (there | ⟨placed, there, rfl⟩)
  · obtain ⟨n, here, finished⟩ := roster.finished number there
    rw [found, Option.some.injEq] at here
    subst here
    exact Stage.noConfusion (idle.symm.trans finished)
  · obtain ⟨n, here, started⟩ := roster.started placed there
    rw [found, Option.some.injEq] at here
    subst here
    exact started idle

/-- A roster depends on the members and on what the engine keeps. -/
theorem Roster.congr (roster : h.Roster closed live)
    (members : after.fleet.members = h.fleet.members)
    (registered : after.engine.registered = h.engine.registered)
    (cores : after.engine.cores = h.engine.cores) (finals : after.finals = h.finals) :
    after.Roster closed live := by
  -- Counters of members are read off the members.
  have counters : after.fleet.counters = h.fleet.counters := by
    funext number
    rw [Fleet.counters, members, Fleet.counters]
  refine ⟨?_, ?_, ?_, ?_, ?_, ?_, ?_⟩
  · rw [registered, roster.registered]
  · rw [registered]
    exact roster.once
  · rw [members]
    exact roster.finished
  · rw [members]
    exact roster.started
  · rw [members, registered]
    exact roster.others
  · rw [finals, counters, roster.finals]
  · rw [cores]
    exact roster.cores

/-- A roster stays when one member changes that is not over, and that does not start. -/
theorem Roster.replace (roster : h.Roster closed live)
    (found : h.fleet.members[number]? = some m) (ended : m.stage = .ended → m' = m)
    (idle : m'.stage = .idle → m.stage = .idle)
    (resting : m.stage = .idle → m'.stage = .idle ∨ m'.stage = .ended) :
    (h.replace number m' plane f).Roster closed live := by
  -- Members that are over do not change, so what is known of them stays true.
  have members := getElem?_replace found m' plane f
  have finished : ∀ other ∈ closed,
      (h.replace number m' plane f).fleet.members[other]? = h.fleet.members[other]? := by
    intro other there
    rw [members]
    by_cases same : other = number
    · obtain ⟨n, here, stage⟩ := roster.finished other there
      -- A closed member is over, and such a one is replaced by itself.
      have own : n = m := by
        rw [same, found, Option.some.injEq] at here
        exact here.symm
      rw [if_pos same, same, found, ended (own ▸ stage)]
    · rw [if_neg same]
  refine ⟨roster.registered, roster.once, ?_, ?_, ?_, ?_, roster.cores⟩
  · intro other there
    rw [finished other there]
    exact roster.finished other there
  · intro placed there
    obtain ⟨n, here, started⟩ := roster.started placed there
    rw [members]
    by_cases same : placed.member = number
    · rw [same, found, Option.some.injEq] at here
      subst here
      exact ⟨m', if_pos same, fun now => started (idle now)⟩
    · exact ⟨n, (if_neg same).trans here, started⟩
  · intro other n there unregistered
    rw [members] at there
    by_cases same : other = number
    · rw [if_pos same, Option.some.injEq] at there
      subst there
      rw [same] at unregistered
      obtain before | before := roster.others number m found unregistered
      · exact resting before
      · rw [ended before]
        exact Or.inr before
    · rw [if_neg same] at there
      exact roster.others other n there unregistered
  · -- The final counters are of closed members.
    refine roster.finals.trans (List.map_congr_left ?_)
    intro other there
    rw [Fleet.counters, Fleet.counters, finished other there]

/-- A roster stays when a worker is added that was never started. -/
theorem Roster.add (roster : h.Roster closed live) (plane : Plane) (w : Worker σ) :
    ({ h with fleet := ⟨plane, h.fleet.members.push { worker := w }⟩ } : History σ).Roster closed
      live := by
  -- The new member comes last, so all others are found where they were.
  have members : ∀ (other : Nat) (n : Member σ), h.fleet.members[other]? = some n →
      (h.fleet.members.push { worker := w })[other]? = h.fleet.members[other]? := by
    intro other n there
    have inside := (Array.getElem?_eq_some_iff.mp there).1
    rw [Array.getElem?_push, if_neg (Nat.ne_of_lt inside)]
  refine ⟨roster.registered, roster.once, ?_, ?_, ?_, ?_, roster.cores⟩
  · intro other there
    obtain ⟨n, here, stage⟩ := roster.finished other there
    exact ⟨n, (members other n here).trans here, stage⟩
  · intro placed there
    obtain ⟨n, here, started⟩ := roster.started placed there
    exact ⟨n, (members placed.member n here).trans here, started⟩
  · intro other n there unregistered
    have pushed : (h.fleet.members.push { worker := w })[other]? = some n := there
    rw [Array.getElem?_push] at pushed
    split at pushed
    · cases pushed
      exact Or.inl rfl
    · exact roster.others other n pushed unregistered
  · refine roster.finals.trans (List.map_congr_left ?_)
    intro other there
    obtain ⟨n, here, -⟩ := roster.finished other there
    rw [Fleet.counters, Fleet.counters]
    rw [members other n here]

/-- A worker whose run is over goes from the running ones to the stopped ones. -/
theorem Roster.join (roster : h.Roster closed (placed :: rest))
    (finished : h.fleet.hasEnded placed.member = true) :
    (h.join placed).Roster (closed ++ [placed.member]) rest := by
  -- The worker goes from the front of one list to the back of the other.
  refine ⟨?_, roster.once, ?_, ?_, roster.others, ?_, ?_⟩
  · rw [List.append_assoc]
    exact roster.registered
  · intro number there
    rw [List.mem_append, List.mem_singleton] at there
    obtain before | rfl := there
    · exact roster.finished number before
    · obtain ⟨m, found, -⟩ := roster.started placed (List.mem_cons_self ..)
      rw [Fleet.hasEnded, found] at finished
      exact ⟨m, found, beq_iff_eq.mp finished⟩
  · intro other there
    exact roster.started other (List.mem_cons_of_mem _ there)
  · rw [List.map_append]
    exact congrArg (· ++ [h.fleet.counters placed.member]) roster.finals
  · exact Cores.Holds.release roster.cores

/-- One thing that happens keeps a history sound, and its roster. -/
theorem Goes.sound (goes : Goes inputs quiet h after) (sound : h.Sound inputs) :
    after.Sound inputs := by
  -- By cases on what happens: a step of one member, or something that others do.
  cases goes with
  | step found calm moves =>
    rename_i number m f
    have stepped := Member.step_stepped calm moves
    have same := sound.replace found stepped.toEffect (by
      intro known
      refine (sound.kept number m found fun finished => known ?_).stepped stepped
      rw [stepped.ended finished]
      exact finished) (by
      intro idle
      have before := stepped.idle.mp idle
      have still : m.step h.fleet.plane = (m, h.fleet.plane) := by
        simp only [Member.step, before]
      rw [still]
      exact (sound.made number m found).idle before)
    rw [Fleet.step, Fleet.onMember_eq found]
    exact same
  | disturb disturbs still => exact sound.disturb disturbs

/-- One thing that happens keeps the roster. -/
theorem Goes.roster (goes : Goes inputs quiet h after) (roster : h.Roster closed live) :
    after.Roster closed live := by
  -- By cases on what happens: a step of one member, or something that others do.
  cases goes with
  | step found calm moves =>
    rename_i number m f
    have stepped := Member.step_stepped calm moves
    rw [Fleet.step, Fleet.onMember_eq found]
    exact roster.replace found stepped.ended stepped.idle.mp fun idle =>
      Or.inl (stepped.idle.mpr idle)
  | disturb disturbs still => exact roster.congr rfl rfl rfl rfl

/-- One thing that happens asks nobody to stop. -/
theorem Goes.patient (goes : Goes inputs quiet h after) (sound : h.Sound inputs)
    (patient : h.Patient live) : after.Patient live := by
  -- A running worker that takes a step asks nobody, and others leave its lifecycle alone.
  intro placed there
  obtain ⟨n, here, unasked⟩ := patient placed there
  have made := sound.made placed.member n here
  cases goes with
  | step found calm moves =>
    rename_i number m f
    have stepped := Member.step_stepped calm moves
    rw [Fleet.step, Fleet.onMember_eq found, Fleet.getElem?_set found]
    by_cases same : placed.member = number
    · rw [if_pos same]
      rw [same, found, Option.some.injEq] at here
      subst here
      exact ⟨_, rfl, Member.step_unasked unasked calm made.life⟩
    · rw [if_neg same]
      -- Another worker's step sets another lifecycle.
      have alike : (m.step h.fleet.plane).2.life n.worker.life =
          h.fleet.plane.life n.worker.life := by
        refine stepped.lives _ fun clash => same ?_
        exact sound.distinct placed.member number n m here found clash
      refine ⟨n, here, ?_⟩
      rw [Member.Unasked]
      show n.stage = .starting ∧ (m.step h.fleet.plane).2.life _ = _ ∨
        n.stage = .polling ∧ (m.step h.fleet.plane).2.life _ = _
      rw [alike]
      exact unasked
  | disturb disturbs still =>
    rename_i plane puts
    refine ⟨n, here, ?_⟩
    rw [Member.Unasked]
    show n.stage = .starting ∧ plane.life _ = _ ∨ n.stage = .polling ∧ plane.life _ = _
    rw [disturbs.lives _ made.life]
    exact unasked

/-- Nothing that happens changes the engine or what is known of stopped workers. -/
theorem Goes.engine (goes : Goes inputs quiet h after) :
    after.engine = h.engine ∧ after.finals = h.finals := by
  -- By cases on what happens, none of which goes through the engine.
  cases goes <;> exact ⟨rfl, rfl⟩

end History

end PacketPlane
