import PacketPlane.Proofs.Fleet.History

/-! Soundness: a history knows of every packet on a held ring, and what it says of each worker
agrees with the worker's counters and backlog. -/

namespace PacketPlane

variable {σ : Type}

/-- What a history says of one worker agrees with the worker itself. -/
structure Member.Kept (m : Member σ) (f : Flow) : Prop where
  custody : f.pulled.Perm (f.accepted ++ f.released ++ m.worker.backlog.pending)
  received : m.worker.counters.rxPackets = UInt64.ofNat f.pulled.length
  settled : m.worker.counters.settled = UInt64.ofNat (f.accepted.length + f.released.length)
  ended : m.stage = .ended → m.worker.backlog.pending = []

/-- What holds of a worker from when it was made. -/
structure Member.Made (p : Plane) (m : Member σ) : Prop where
  burst : 0 < m.worker.settings.burstSize.toNat
  life : m.worker.life < p.lives.size
  idle : m.stage = .idle → p.life m.worker.life = .created

namespace Member

variable {p p' : Plane} {m m' : Member σ} {f g : Flow}

/-- A worker stays in agreement when it takes a step that moves what a flow says. -/
theorem Kept.stepped (kept : m.Kept f) (stepped : Stepped m m' p p' g) : m'.Kept (f ++ g) := by
  -- What was moved before and what the step moves follow each other, and so do their counts.
  refine ⟨?_, ?_, ?_, ?_⟩
  · exact @Moment.custody_trans _ _ [] _ _ kept.custody stepped.custody
  · show _ = UInt64.ofNat (f.pulled ++ g.pulled).length
    rw [stepped.received, kept.received, List.length_append, UInt64.ofNat_add]
  · show _ = UInt64.ofNat ((f.accepted ++ g.accepted).length + (f.released ++ g.released).length)
    rw [stepped.settled, kept.settled, ← UInt64.ofNat_add, List.length_append, List.length_append]
    congr 1
    omega
  · intro ended
    by_cases finished : m.stage = .ended
    · rw [stepped.ended finished]
      exact kept.ended finished
    · exact stepped.empty finished ended

/-- A worker stays as it was made when others change lifecycles that are not its own. -/
theorem Made.lives (made : m.Made p) (size : p.lives.size ≤ p'.lives.size)
    (same : m.stage = .idle → p'.life m.worker.life = p.life m.worker.life) : m.Made p' := by
  -- The worker's own lifecycle is inside and is not changed while it is idle.
  refine ⟨made.burst, Nat.lt_of_lt_of_le made.life size, ?_⟩
  intro idle
  rw [same idle]
  exact made.idle idle

end Member

/-- Nothing moved after a flow. -/
theorem Flow.append_empty (f : Flow) : f ++ {} = f := by
  -- Each of the four lists is followed by nothing.
  show Flow.mk (_ ++ []) (_ ++ []) (_ ++ []) (_ ++ []) = _
  simp

namespace History

/-- A ring of which every packet is known: what was put on it was taken off it or is still there. -/
def Squared (h : History σ) (k : Nat) : Prop :=
  (h.fleet.plane.contents (.ring k)).length + h.taken k = h.offered k + h.given k

/-- A history that agrees with its fleet. -/
structure Sound (inputs : Nat → Prop) (h : History σ) : Prop where
  atRest : h.fleet.plane.AtRest
  held : ∀ k, h.fleet.holds k ≤ (h.fleet.plane.holders? k).getD 0
  squared : ∀ k, inputs k → h.fleet.plane.holders? k ≠ some 0 → h.Squared k
  kept : ∀ (number : Nat) (m : Member σ), h.fleet.members[number]? = some m →
    (m.stage = .ended → number ∈ h.engine.registered) → m.Kept (h.flows number)
  made : ∀ (number : Nat) (m : Member σ), h.fleet.members[number]? = some m →
    m.Made h.fleet.plane
  fresh : ∀ number, h.fleet.members.size ≤ number → h.flows number = {}
  distinct : ∀ (number other : Nat) (m n : Member σ), h.fleet.members[number]? = some m →
    h.fleet.members[other]? = some n → m.worker.life = n.worker.life → number = other

/-- A history after one member was replaced together with the plane, moving what a flow says. -/
def replace (h : History σ) (number : Nat) (m : Member σ) (plane : Plane) (f : Flow) :
    History σ := {
  h with
  fleet := ⟨plane, h.fleet.members.setIfInBounds number m⟩
  flows := Function.update h.flows number (h.flows number ++ f) }

variable {inputs : Nat → Prop} {h : History σ} {number k : Nat} {m m' : Member σ}
  {plane q : Plane} {f : Flow} {puts : Nat → Nat}

/-- The members after one of them was replaced. -/
theorem getElem?_replace (found : h.fleet.members[number]? = some m) (m' : Member σ)
    (plane : Plane) (f : Flow) (other : Nat) :
    (h.replace number m' plane f).fleet.members[other]? =
      if other = number then some m' else h.fleet.members[other]? :=
  Fleet.getElem?_set found m' other

/-- A member of a history after one was replaced is the new one, or was there before. -/
theorem replace_cases (found : h.fleet.members[number]? = some m) {other : Nat} {n : Member σ}
    (there : (h.replace number m' plane f).fleet.members[other]? = some n) :
    other = number ∧ n = m' ∨ other ≠ number ∧ h.fleet.members[other]? = some n := by
  -- The number is the one that was replaced, or another.
  rw [getElem?_replace found] at there
  by_cases same : other = number
  · rw [if_pos same, Option.some.injEq] at there
    exact Or.inl ⟨same, there.symm⟩
  · rw [if_neg same] at there
    exact Or.inr ⟨same, there⟩

/-- The record of the member that was replaced goes on with the flow. -/
theorem flows_replace_self (h : History σ) (number : Nat) (m : Member σ) (plane : Plane)
    (f : Flow) : (h.replace number m plane f).flows number = h.flows number ++ f :=
  Function.update_self ..

/-- The records of the other members stay as they are. -/
theorem flows_replace_of_ne (h : History σ) (m : Member σ) (plane : Plane) (f : Flow) {other : Nat}
    (apart : other ≠ number) : (h.replace number m plane f).flows other = h.flows other :=
  Function.update_of_ne apart ..

/-- A flow that moved nothing changes no record. -/
theorem replace_still (h : History σ) (number : Nat) (m : Member σ) (plane : Plane) :
    h.replace number m plane {} =
      { h with fleet := ⟨plane, h.fleet.members.setIfInBounds number m⟩ } := by
  rw [replace, Flow.append_empty, Function.update_eq_self]

/-- What some of the workers moved, after one of them moved what a flow says. -/
theorem sum_replace (found : h.fleet.members[number]? = some m) (m' : Member σ) (plane : Plane)
    (f : Flow) (own : Member σ → Prop) [DecidablePred own] (same : own m' ↔ own m)
    (moved : Flow → List Packet)
    (more : moved (h.flows number ++ f) = moved (h.flows number) ++ moved f) :
    ((h.replace number m' plane f).fleet.sum fun other n =>
        if own n then (moved ((h.replace number m' plane f).flows other)).length else 0) =
      (h.fleet.sum fun other n => if own n then (moved (h.flows other)).length else 0) +
        if own m then (moved f).length else 0 := by
  -- Only the record of the replaced member grows, by what the flow moved.
  have sums := Fleet.sum_set found m' plane
    (fun other n => if own n then (moved (h.flows other)).length else 0)
    (fun other n =>
      if own n then (moved ((h.replace number m' plane f).flows other)).length else 0)
    (fun other apart => by simp only [flows_replace_of_ne h m' plane f apart])
  simp only [flows_replace_self, more, List.length_append] at sums
  show Fleet.sum ⟨plane, h.fleet.members.setIfInBounds number m'⟩ _ = _
  by_cases there : own m
  · rw [if_pos (same.mpr there), if_pos there] at sums
    rw [if_pos there]
    omega
  · rw [if_neg (mt same.mp there), if_neg there] at sums
    rw [if_neg there]
    omega

/-- A ring stays known when a worker moves what a flow says and the ring keeps its packets. -/
theorem Squared.replace (squared : h.Squared k) (found : h.fleet.members[number]? = some m)
    (rest : h.fleet.plane.AtRest) (fixed : m'.worker.fixture = m.worker.fixture)
    (hauls : Plane.Hauls m.worker.ends h.fleet.plane q f)
    (same : plane.contents (.ring k) = q.contents (.ring k)) :
    (h.replace number m' plane f).Squared k := by
  -- What leaves the ring is added to what was taken, and what comes to it to what was given.
  have input : m'.worker.input = m.worker.input := congrArg Fixture.input fixed
  have output : m'.worker.output = m.worker.output := congrArg Fixture.output fixed
  have moved := hauls.ring_length rest k
  have taken : (h.replace number m' plane f).taken k =
      h.taken k + if m.worker.input = .ring k then f.pulled.length else 0 :=
    sum_replace found m' plane f (fun n => n.worker.input = .ring k) (by rw [input])
      Flow.pulled rfl
  have given : (h.replace number m' plane f).given k =
      h.given k + if m.worker.output = .ring k then f.accepted.length else 0 :=
    sum_replace found m' plane f (fun n => n.worker.output = .ring k) (by rw [output])
      Flow.accepted rfl
  have known : (h.fleet.plane.contents (.ring k)).length + h.taken k =
      h.offered k + h.given k := squared
  show (plane.contents (.ring k)).length + _ = h.offered k + _
  rw [taken, given, same]
  omega

/-- The holds that a member gives up are taken off its rings. -/
theorem holds_replace (found : h.fleet.members[number]? = some m) {count : Nat → Nat}
    (holders : plane.holders? k = (h.fleet.plane.holders? k).map (· - count k))
    (lost : m'.holds k + count k = m.holds k)
    (held : h.fleet.holds k ≤ (h.fleet.plane.holders? k).getD 0) :
    (h.replace number m' plane f).fleet.holds k ≤ (plane.holders? k).getD 0 := by
  -- The member is taken out of the sum, and the ring loses as many holders as it gives up.
  show Fleet.sum ⟨plane, h.fleet.members.setIfInBounds number m'⟩ _ ≤ _
  have sums := Fleet.sum_set found m' plane (fun _ n => n.holds k) (fun _ n => n.holds k)
    fun _ _ => rfl
  have part := Fleet.le_sum found fun _ m => m.holds k
  rw [Fleet.holds] at held
  rw [holders]
  cases there : h.fleet.plane.holders? k with
  | none =>
    rw [there] at held
    simp only [Option.getD_none, Option.map_none] at held ⊢
    omega
  | some n =>
    rw [there] at held
    simp only [Option.getD_some, Option.map_some] at held ⊢
    omega

/-- A history stays sound when one member moves what a flow says. -/
theorem Sound.replace (sound : h.Sound inputs) (found : h.fleet.members[number]? = some m)
    (effect : m.Effect m' h.fleet.plane plane f)
    (kept : (m'.stage = .ended → number ∈ h.engine.registered) → m'.Kept (h.flows number ++ f))
    (idle : m'.stage = .idle → plane.life m.worker.life = .created) :
    (h.replace number m' plane f).Sound inputs := by
  obtain ⟨q, count, hauls, leaves, lost⟩ := effect.rings
  have life : m'.worker.life = m.worker.life := congrArg Fixture.life effect.fixed
  have settings : m'.worker.settings = m.worker.settings := congrArg Fixture.settings effect.fixed
  -- Holders after the change are those before it, but for those that the worker gave up.
  have holders : ∀ k, plane.holders? k = (h.fleet.plane.holders? k).map (· - count k) := by
    intro k
    rw [leaves.holders, hauls.holders]
  refine ⟨?_, ?_, ?_, ?_, ?_, ?_, ?_⟩
  · exact leaves.atRest (hauls.places sound.atRest).1
  · exact fun k => holds_replace found (holders k) (lost k) (sound.held k)
  · intro k input there
    have before : h.fleet.plane.holders? k ≠ some 0 := by
      intro none
      apply there
      show plane.holders? k = some 0
      rw [holders, none, Option.map_some, Nat.zero_sub]
    obtain same | ⟨-, gone, -⟩ := leaves.contents (hauls.places sound.atRest).1 k
    · exact (sound.squared k input before).replace found sound.atRest effect.fixed hauls same
    · exact absurd gone there
  · intro other n there known
    obtain ⟨rfl, rfl⟩ | ⟨apart, before⟩ := replace_cases found there
    · rw [flows_replace_self]
      exact kept known
    · rw [flows_replace_of_ne h m' plane f apart]
      exact sound.kept other n before known
  · intro other n there
    obtain ⟨rfl, rfl⟩ | ⟨apart, before⟩ := replace_cases found there
    · have made := sound.made other m found
      refine ⟨by rw [settings]; exact made.burst, ?_, ?_⟩
      · rw [life]
        exact Nat.lt_of_lt_of_eq made.life effect.size.symm
      · rw [life]
        exact idle
    · refine (sound.made other n before).lives (Nat.le_of_eq effect.size.symm) fun _ => ?_
      refine effect.lives _ fun clash => apart ?_
      exact sound.distinct other number n m before found clash
  · intro other outside
    have range : h.fleet.members.size ≤ other := by
      simpa [History.replace] using outside
    have inside := (Array.getElem?_eq_some_iff.mp found).1
    rw [flows_replace_of_ne h m' plane f (by omega)]
    exact sound.fresh other range
  · -- Every member has the lifecycle that it had.
    have before : ∀ (other : Nat) (n : Member σ),
        (h.replace number m' plane f).fleet.members[other]? = some n →
        ∃ old : Member σ, h.fleet.members[other]? = some old ∧ old.worker.life = n.worker.life := by
      intro other n there
      obtain ⟨rfl, rfl⟩ | ⟨-, before⟩ := replace_cases found there
      · exact ⟨m, found, life.symm⟩
      · exact ⟨n, before, rfl⟩
    intro one other n n' first second clash
    obtain ⟨old, here, same⟩ := before one n first
    obtain ⟨old', there, same'⟩ := before other n' second
    exact sound.distinct one other old old' here there (by rw [same, same', clash])

/-- Soundness depends on the fleet, on the records, and on which workers are registered. -/
theorem Sound.congr {after : History σ} (sound : h.Sound inputs) (fleet : after.fleet = h.fleet)
    (offered : after.offered = h.offered) (flows : after.flows = h.flows)
    (registered : after.engine.registered = h.engine.registered) : after.Sound inputs := by
  -- Each part is about one of the four, which are the same.
  refine ⟨?_, ?_, ?_, ?_, ?_, ?_, ?_⟩
  · rw [fleet]
    exact sound.atRest
  · rw [fleet]
    exact sound.held
  · intro k input there
    rw [fleet] at there
    have known := sound.squared k input there
    rw [Squared, taken, given] at known ⊢
    rw [fleet, offered, flows]
    exact known
  · rw [fleet, flows, registered]
    exact sound.kept
  · rw [fleet]
    exact sound.made
  · rw [fleet, flows]
    exact sound.fresh
  · rw [fleet]
    exact sound.distinct

/-- A ring stays known when others put packets on it. -/
theorem Squared.offer (squared : h.Squared k) (packets : List Packet)
    (length : packets.length = puts k)
    (appended : plane.contents (.ring k) = h.fleet.plane.contents (.ring k) ++ packets) :
    ({ h with fleet := { h.fleet with plane },
              offered := fun k => h.offered k + puts k } : History σ).Squared k := by
  -- What others put there is on the ring, and known as offered.
  have known : (h.fleet.plane.contents (.ring k)).length + h.taken k =
      h.offered k + h.given k := squared
  show (plane.contents (.ring k)).length + h.taken k = h.offered k + puts k + h.given k
  rw [appended, List.length_append]
  omega

/-- A history stays sound when others do something. -/
theorem Sound.disturb (sound : h.Sound inputs) (disturbs : h.fleet.Disturbs inputs plane puts) :
    ({ h with fleet := { h.fleet with plane },
              offered := fun k => h.offered k + puts k } : History σ).Sound inputs := by
  -- Others may only put packets on a ring or let go of it, and the members stay.
  refine ⟨disturbs.atRest sound.atRest, disturbs.held, ?_, sound.kept, ?_, sound.fresh,
    sound.distinct⟩
  · intro k input there
    have before : h.fleet.plane.holders? k ≠ some 0 := fun none => there (disturbs.gone k none)
    obtain ⟨packets, length, appended⟩ | ⟨gone, -⟩ := disturbs.puts k input
    · exact (sound.squared k input before).offer packets length appended
    · exact absurd gone there
  · intro other n there
    have made := sound.made other n there
    exact made.lives disturbs.size fun _ => disturbs.lives _ made.life

/-- A history stays sound when a worker that was started is asked to stop. -/
theorem Sound.ask (sound : h.Sound inputs) {placed : Placed}
    (found : h.fleet.members[placed.member]? = some m) (started : m.stage ≠ .idle) :
    (h.ask placed).Sound inputs := by
  -- Only a lifecycle changes, and an idle worker has another one.
  have asked : h.ask placed =
      { h with fleet := { h.fleet with plane := h.fleet.plane.requestStop m.worker.life } } := by
    rw [History.ask, Fleet.requestStop, found]
  have rings : h.fleet.plane.SameRings (h.fleet.plane.requestStop m.worker.life) :=
    Plane.SameRings.congr rfl rfl rfl
  obtain ⟨rest, same⟩ := rings.contents sound.atRest
  rw [asked]
  refine ⟨rest, sound.held, ?_, sound.kept, ?_, sound.fresh, sound.distinct⟩
  · intro k input there
    have known := sound.squared k input there
    rw [Squared, ← same] at known
    exact known
  · intro other n there
    refine (sound.made other n there).lives ?_ ?_
    · exact Nat.le_of_eq (Array.size_setIfInBounds ..).symm
    · intro idle
      refine Member.lives_setLife _ _ _ _ fun clash => ?_
      have same := sound.distinct other placed.member n m there found clash
      rw [same, found, Option.some.injEq] at there
      exact started (there ▸ idle)

end History

end PacketPlane
