import PacketPlane.Proofs.Fleet.Soundness

/-! Building: a worker that is made to a plan holds its ends, has a lifecycle of its own, and has
moved nothing yet. -/

namespace PacketPlane

variable {σ : Type}

/-- A worker as it is when it was just made to a plan. -/
structure WorkerPlan.Makes (plan : WorkerPlan σ) (p p' : Plane) (w : Worker σ) : Prop where
  input : plan.input = some w.input
  output : plan.output = w.output
  process : plan.process = w.process
  capture : plan.capture = w.capture
  buffers : p'.buffers = p.buffers
  life : w.life = p.lives.size
  lives : p'.lives = p.lives.push .created
  joins : Plane.Joins p p' (ringHolds w.input w.output)
  burst : 0 < w.settings.burstSize.toNat
  counters : w.counters = {}
  empty : w.backlog.pending = []

/-- A plan that passes its check has bursts that are not empty. -/
theorem WorkerPlan.burst_pos {plan : WorkerPlan σ} {input : Input}
    (checked : plan.check = .ok input) : 0 < plan.settings.burstSize.toNat := by
  -- A burst size of zero is one of the faults that are checked for.
  obtain ⟨-, sane⟩ := check_ok checked
  obtain ⟨some, -⟩ := WorkerSettings.fault?_eq_none.mp sane
  exact Nat.pos_of_ne_zero fun none => some (UInt64.toNat_inj.mp none)

/-- Holding a worker's ends changes none of its surroundings. -/
theorem Plane.surroundings_holdEnds (p : Plane) (input : Input) (output : Output)
    (capture : Option Nat) : (p.holdEnds input output capture).toSurroundings = p.toSurroundings := by
  -- By cases on the ends, and only holders of rings are counted.
  cases input <;> cases output <;> cases capture <;> rfl

/-- A plan that is not refused makes a worker. -/
theorem WorkerPlan.build_makes {plan : WorkerPlan σ} {p p' : Plane} {w : Worker σ}
    (built : plan.build p = (.ok w, p')) : plan.Makes p p' w := by
  rw [build] at built
  split at built
  · cases built
  · rename_i input checked
    obtain ⟨there, -⟩ := check_ok checked
    have burst := burst_pos checked
    -- A clock that is added changes neither rings nor lifecycles.
    have made : ∀ q : Plane, q.lives = p.lives → q.buffers = p.buffers → p.SameRings q →
        (q.addLife.2.holdEnds input plan.output plan.capture).buffers = p.buffers ∧
          q.addLife.1 = p.lives.size ∧
          (q.addLife.2.holdEnds input plan.output plan.capture).lives = p.lives.push .created ∧
          p.Joins (q.addLife.2.holdEnds input plan.output plan.capture)
            (ringHolds input plan.output) := by
      intro q lives buffers same
      refine ⟨?_, congrArg Array.size lives, ?_, ?_⟩
      · rw [Plane.surroundings_holdEnds, ← buffers]
        rfl
      · rw [Plane.surroundings_holdEnds, ← lives]
        rfl
      · have living : Plane.SameRings q q.addLife.2 := Plane.SameRings.congr rfl rfl rfl
        have joins := ((Plane.Joins.of_same same).trans (Plane.Joins.of_same living)).trans
          (q.addLife.2.holdEnds_joins input plan.output plan.capture)
        simpa using joins
    -- The plan names a clock, or a new one is calibrated.
    cases clock : plan.clock with
    | some number =>
      simp only [clock] at built
      cases built
      obtain ⟨buffers, life, lives, joins⟩ := made p rfl rfl (Plane.SameRings.refl p)
      exact ⟨there, rfl, rfl, rfl, buffers, life, lives, joins, burst, rfl, rfl⟩
    | none =>
      simp only [clock] at built
      cases built
      obtain ⟨buffers, life, lives, joins⟩ :=
        made (p.addClock .calibrated).2 rfl rfl (Plane.SameRings.congr rfl rfl rfl)
      exact ⟨there, rfl, rfl, rfl, buffers, life, lives, joins, burst, rfl, rfl⟩

/-- A plan is refused, or makes a worker that is added under the next number. -/
theorem Fleet.build_cases (f : Fleet σ) (plan : WorkerPlan σ) :
    (f.build plan).2 = { f with plane := f.plane.closeEnds plan.input plan.output } ∨
      ∃ w plane, plan.Makes f.plane plane w ∧
        (f.build plan).2 = ⟨plane, f.members.push { worker := w }⟩ := by
  -- A plan that is refused has let go of its ends, and has made no worker.
  rw [build]
  cases built : plan.build f.plane with
  | mk result plane =>
    cases result with
    | error fault =>
      left
      rw [WorkerPlan.build] at built
      split at built
      · cases built
        rfl
      · cases built
    | ok w => exact Or.inr ⟨w, plane, WorkerPlan.build_makes built, rfl⟩

/-- A plane that lost no holder of a ring was not disturbed. -/
theorem Fleet.Disturbs.of_leaves {inputs : Nat → Prop} {f : Fleet σ} {plane : Plane}
    (leaves : f.plane.Leaves plane fun _ => 0) (rest : f.plane.AtRest)
    (held : ∀ k, f.holds k ≤ (f.plane.holders? k).getD 0) :
    f.Disturbs inputs plane fun _ => 0 := by
  -- Nobody let go of a ring, so every ring is held as it was and keeps its packets.
  have holders : ∀ k, plane.holders? k = f.plane.holders? k := by
    intro k
    rw [leaves.holders]
    simp
  refine ⟨leaves.atRest, ?_, ?_, ?_, ?_, ?_⟩
  · intro number _
    rw [Plane.life, leaves.lives, Plane.life]
  · rw [leaves.lives]
  · intro k
    rw [holders]
    exact held k
  · intro k gone
    rw [holders]
    exact gone
  · intro k _
    obtain same | ⟨some, -⟩ := leaves.contents rest k
    · exact Or.inl ⟨[], rfl, by rw [same, List.append_nil]⟩
    · exact absurd some (Nat.lt_irrefl 0)

/-- The members after one more was added: the new one is the last. -/
theorem Fleet.getElem?_add {f : Fleet σ} {w : Worker σ} {number : Nat} {m : Member σ}
    (found : (f.members.push { worker := w })[number]? = some m) :
    number = f.members.size ∧ m = { worker := w } ∨ f.members[number]? = some m := by
  -- The number is the one behind the last, or one that was there before.
  rw [Array.getElem?_push] at found
  by_cases last : number = f.members.size
  · rw [if_pos last, Option.some.injEq] at found
    exact Or.inl ⟨last, found.symm⟩
  · rw [if_neg last] at found
    exact Or.inr found

namespace WorkerPlan.Makes

variable {plan : WorkerPlan σ} {p p' : Plane} {w : Worker σ} {k : Nat}

/-- Only rings that somebody holds gain a holder when a worker is made. -/
theorem existing (makes : plan.Makes p p' w)
    (held : ∀ k, plan.input = some (.ring k) ∨ plan.output = .ring k →
      0 < (p.holders? k).getD 0)
    (some : 0 < ringHolds w.input w.output k) : 0 < (p.holders? k).getD 0 := by
  -- Only rings that are an end of the worker gain a holder.
  by_cases taken : w.input = .ring k
  · exact held k (Or.inl (by rw [makes.input, taken]))
  · by_cases fed : w.output = .ring k
    · exact held k (Or.inr (by rw [makes.output, fed]))
    · simp [ringHolds, taken, fed] at some

/-- Making a worker moves no packet. -/
theorem contents (makes : plan.Makes p p' w) (place : Place) :
    p'.contents place = p.contents place := by
  -- Places stay, and packets are at places.
  rw [Plane.contents, makes.joins.places, Plane.contents]

/-- A worker that was just made has moved nothing. -/
theorem kept (makes : plan.Makes p p' w) : Member.Kept { worker := w } {} := by
  -- Nothing was pulled, sent or counted so far.
  refine ⟨?_, ?_, ?_, fun impossible => Stage.noConfusion impossible⟩
  · simp [makes.empty]
  · simp [makes.counters]
  · rw [makes.counters]
    rfl

/-- Lifecycles after a worker was made: its own is new, and all others are as they were. -/
theorem lives_eq (makes : plan.Makes p p' w) (number : Nat) :
    p'.life number = if number = w.life then .created else p.life number := by
  -- The lifecycle is added behind the others, so it is found under the next number.
  rw [Plane.life, Plane.life, makes.lives, makes.life, Array.getD_eq_getD_getElem?,
    Array.getD_eq_getD_getElem?, Array.getElem?_push]
  split <;> rfl

/-- A worker that was just made has a lifecycle of its own. -/
theorem made (makes : plan.Makes p p' w) : Member.Made p' { worker := w } := by
  -- Its lifecycle is the last one, and new.
  refine ⟨makes.burst, ?_, fun _ => ?_⟩
  · show w.life < p'.lives.size
    rw [makes.life, makes.lives, Array.size_push]
    exact Nat.lt_succ_self _
  · exact (makes.lives_eq _).trans (if_pos rfl)

/-- Making a worker leaves those alone that were made before. -/
theorem others (makes : plan.Makes p p' w) {m : Member σ} (before : m.Made p) : m.Made p' := by
  -- Lifecycles that were there before come before the new one.
  have size : p.lives.size ≤ p'.lives.size := by
    rw [makes.lives, Array.size_push]
    exact Nat.le_succ _
  exact before.lives size fun _ =>
    (makes.lives_eq _).trans (if_neg (makes.life ▸ Nat.ne_of_lt before.life))

/-- The holds of a worker that is made are counted. -/
theorem holds {f : Fleet σ} (makes : plan.Makes f.plane p' w)
    (some : 0 < ringHolds w.input w.output k → 0 < (f.plane.holders? k).getD 0)
    (before : f.holds k ≤ (f.plane.holders? k).getD 0) :
    Fleet.holds ⟨p', f.members.push { worker := w }⟩ k ≤ (p'.holders? k).getD 0 := by
  -- The new member's holds are what the rings gained.
  have sums := f.sum_push { worker := w } p' fun _ m => m.holds k
  have own : Member.holds ({ worker := w } : Member σ) k = ringHolds w.input w.output k := rfl
  rw [own] at sums
  rw [Fleet.holds] at before ⊢
  rw [sums, makes.joins.holders]
  cases there : f.plane.holders? k with
  | none =>
    rw [there] at before some
    simp only [Option.getD_none, Option.map_none] at before some ⊢
    omega
  | some n =>
    rw [there] at before
    simp only [Option.getD_some, Option.map_some] at before ⊢
    omega

/-- A ring that nobody holds stays so when a worker is made. -/
theorem gone (makes : plan.Makes p p' w)
    (existing : 0 < ringHolds w.input w.output k → 0 < (p.holders? k).getD 0)
    (none : p.holders? k = some 0) : p'.holders? k = some 0 := by
  -- A ring without holders is no end of the worker.
  rw [none] at existing
  simp only [Option.getD_some] at existing
  rw [makes.joins.holders, none, Option.map_some]
  congr 1
  omega

end WorkerPlan.Makes

namespace History

variable {inputs : Nat → Prop} {h : History σ} {plan : WorkerPlan σ} {plane : Plane}
  {w : Worker σ}

/-- A ring stays known when a worker is made that has moved nothing. -/
theorem Squared.add {k : Nat} (squared : h.Squared k) (makes : plan.Makes h.fleet.plane plane w)
    (fresh : h.flows h.fleet.members.size = {}) :
    ({ h with fleet := ⟨plane, h.fleet.members.push { worker := w }⟩ } : History σ).Squared k := by
  -- The new member's record is empty, so it adds nothing to either sum.
  have taken := h.fleet.sum_push { worker := w } plane fun number m =>
    if m.worker.input = .ring k then (h.flows number).pulled.length else 0
  have given := h.fleet.sum_push { worker := w } plane fun number m =>
    if m.worker.output = .ring k then (h.flows number).accepted.length else 0
  simp only [fresh, List.length_nil, ite_self, Nat.add_zero] at taken given
  rw [Squared, History.taken, History.given] at squared ⊢
  simp only [taken, given]
  rw [makes.contents]
  exact squared

/-- A history stays sound when a worker is added that holds its ends and has moved nothing. -/
theorem Sound.add (sound : h.Sound inputs) (makes : plan.Makes h.fleet.plane plane w)
    (held : ∀ k, plan.input = some (.ring k) ∨ plan.output = .ring k →
      0 < (h.fleet.plane.holders? k).getD 0) :
    ({ h with fleet := ⟨plane, h.fleet.members.push { worker := w }⟩ } : History σ).Sound
      inputs := by
  have fresh := sound.fresh h.fleet.members.size (Nat.le_refl _)
  -- The lifecycles of those made before have smaller numbers.
  have older : ∀ (number : Nat) (m : Member σ), h.fleet.members[number]? = some m →
      m.worker.life < w.life := by
    intro number m there
    rw [makes.life]
    exact (sound.made number m there).life
  refine ⟨?_, ?_, ?_, ?_, ?_, ?_, ?_⟩
  · intro place ring there
    rw [makes.joins.places] at there
    exact sound.atRest place ring there
  · exact fun k => makes.holds (makes.existing held) (sound.held k)
  · intro k there now
    -- A ring that is held now was held before, so its books were kept.
    exact (sound.squared k there fun none => now (makes.gone (makes.existing held) none)).add
      makes fresh
  · intro number m there known
    obtain ⟨rfl, rfl⟩ | old := Fleet.getElem?_add there
    · show Member.Kept _ (h.flows h.fleet.members.size)
      rw [fresh]
      exact makes.kept
    · exact sound.kept number m old known
  · intro number m there
    obtain ⟨-, rfl⟩ | old := Fleet.getElem?_add there
    · exact makes.made
    · exact makes.others (sound.made number m old)
  · intro number outside
    apply sound.fresh
    have more : h.fleet.members.size + 1 ≤ number := by
      rw [← Array.size_push]
      exact outside
    omega
  · intro number other m n first second same
    -- old := Fleet.getElem?_add first | Two members have the same lifecycle only when both are the
    -- new one or neither is.
    obtain ⟨last, rfl⟩ | old := Fleet.getElem?_add first
    · obtain ⟨last', rfl⟩ | old' := Fleet.getElem?_add second
      · rw [last, last']
      · exact absurd same.symm (Nat.ne_of_lt (older other n old'))
    · obtain ⟨last', rfl⟩ | old' := Fleet.getElem?_add second
      · exact absurd same (Nat.ne_of_lt (older number m old))
      · exact sound.distinct number other m n old old' same

/-- A history stays sound when a plan is built, whether it is refused or not. -/
theorem Sound.build (sound : h.Sound inputs)
    (held : ∀ k, plan.input = some (.ring k) ∨ plan.output = .ring k →
      0 < (h.fleet.plane.holders? k).getD 0) :
    ({ h with fleet := (h.fleet.build plan).2 } : History σ).Sound inputs := by
  -- By cases on whether the plan is refused.
  obtain refused | ⟨w, plane, makes, built⟩ := h.fleet.build_cases plan
  · rw [refused]
    exact sound.disturb (Fleet.Disturbs.of_leaves
      (h.fleet.plane.closeEnds_leaves plan.input plan.output) sound.atRest sound.held)
  · rw [built]
    exact sound.add makes held

end History

end PacketPlane
