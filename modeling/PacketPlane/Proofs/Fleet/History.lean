import Mathlib.Algebra.BigOperators.Group.Finset.Basic
import Mathlib.Logic.Relation
import PacketPlane.Fleet.Engine
import PacketPlane.Proofs.Fleet.Progress

/-! Histories: everything that can happen to the workers of an engine and around them, in any order,
with what each worker moved and how many packets others put on each ring. -/

namespace PacketPlane

namespace Fleet

variable {σ : Type}

/-- An amount added up over all members. -/
def sum (f : Fleet σ) (amount : Nat → Member σ → Nat) : Nat :=
  ∑ number ∈ Finset.range f.members.size, (f.members[number]?.map (amount number)).getD 0

/-- How often the workers of a fleet hold a ring. -/
def holds (f : Fleet σ) (k : Nat) : Nat :=
  f.sum fun _ m => m.holds k

/-- A worker that takes packets from a ring. -/
def Takes (f : Fleet σ) (number k : Nat) : Prop :=
  ∃ m, f.members[number]? = some m ∧ m.worker.input = .ring k

/-- A worker that puts packets on a ring. -/
def Feeds (f : Fleet σ) (number k : Nat) : Prop :=
  ∃ m, f.members[number]? = some m ∧ m.worker.output = .ring k

/-- What others may do to a plane meanwhile: lifecycles and the holds of workers stay as they are,
nobody takes packets from the inputs of workers, and a ring that nobody holds any more is empty. -/
structure Disturbs (inputs : Nat → Prop) (f : Fleet σ) (plane : Plane) (puts : Nat → Nat) :
    Prop where
  atRest : f.plane.AtRest → plane.AtRest
  lives : ∀ number, number < f.plane.lives.size → plane.life number = f.plane.life number
  size : f.plane.lives.size ≤ plane.lives.size
  held : ∀ k, f.holds k ≤ (plane.holders? k).getD 0
  gone : ∀ k, f.plane.holders? k = some 0 → plane.holders? k = some 0
  puts : ∀ k, inputs k →
    (∃ packets, packets.length = puts k ∧
        plane.contents (.ring k) = f.plane.contents (.ring k) ++ packets) ∨
      (plane.holders? k = some 0 ∧ plane.contents (.ring k) = [])

end Fleet

/-- An engine with its workers, and what happened so far: how many packets others put on each ring,
what each worker moved, and what those that were stopped had counted in the end. -/
structure History (σ : Type) where
  engine : Engine
  fleet : Fleet σ
  offered : Nat → Nat := fun _ => 0
  flows : Nat → Flow := fun _ => {}
  finals : List Counters := []

namespace History

variable {σ : Type}

/-- How many packets workers put on a ring. -/
def given (h : History σ) (k : Nat) : Nat :=
  h.fleet.sum fun number m =>
    if m.worker.output = .ring k then (h.flows number).accepted.length else 0

/-- How many packets workers received from a ring. -/
def taken (h : History σ) (k : Nat) : Nat :=
  h.fleet.sum fun number m =>
    if m.worker.input = .ring k then (h.flows number).pulled.length else 0

/-- A worker asked to stop. -/
def ask (h : History σ) (placed : Placed) : History σ :=
  -- The worker sees the request in its next step.
  { h with fleet := h.fleet.requestStop placed.member }

/-- A worker whose run is over taken off its core, with what it had counted in the end. -/
def join (h : History σ) (placed : Placed) : History σ := {
  h with
  engine := { h.engine with cores := h.engine.cores.release placed.claim }
  finals := h.finals ++ [h.fleet.counters placed.member] }

/-- Rings that running workers take packets from. -/
def Between (h : History σ) (k : Nat) : Prop :=
  ∃ placed ∈ h.engine.running, h.fleet.Takes placed.member k

/-- What can happen between two moments: one worker takes one step, or others do something, without
putting packets on quiet rings. -/
inductive Goes (inputs quiet : Nat → Prop) (h : History σ) : History σ → Prop where
  | step {number : Nat} {m : Member σ} {f : Flow} (found : h.fleet.members[number]? = some m)
      (calm : m.Calm h.fleet.plane) (moves : m.Moves h.fleet.plane f) :
      Goes inputs quiet h {
        h with
        fleet := h.fleet.step number
        flows := Function.update h.flows number (h.flows number ++ f) }
  | disturb {plane : Plane} {puts : Nat → Nat} (disturbs : h.fleet.Disturbs inputs plane puts)
      (still : ∀ k, quiet k → puts k = 0) :
      Goes inputs quiet h {
        h with
        fleet := { h.fleet with plane }
        offered := fun k => h.offered k + puts k }

/-- Workers stopped one after another: each is asked, and waited for in any number of steps of any
workers before it is taken off its core. -/
inductive Stops (inputs quiet : Nat → Prop) : List Placed → History σ → History σ → Prop where
  | none (h : History σ) : Stops inputs quiet [] h h
  | next {placed : Placed} {rest : List Placed} {h ended after : History σ}
      (waited : Relation.ReflTransGen (Goes inputs quiet) (h.ask placed) ended)
      (finished : ended.fleet.hasEnded placed.member = true)
      (later : Stops inputs quiet rest (ended.join placed) after) :
      Stops inputs quiet (placed :: rest) h after

/-- All running workers stopped in the order they were started in, while nobody else puts packets on
the rings that they take from. -/
def Shuts (inputs : Nat → Prop) (before after : History σ) : Prop :=
  Stops inputs before.Between before.engine.running
    { before with engine := { before.engine with running := [] } } after

/-- Histories in which workers are made, polled, given up, started and stopped in any order. Only
workers take packets from a set of rings, the input rings of workers that are started are among
those, workers hold the rings they are made with, and nobody but the engine asks a worker to stop.
-/
inductive Reachable (inputs : Nat → Prop) : History σ → Prop where
  | start (cores : Nat) (settings : Settings) {plane : Plane} (rest : plane.AtRest) :
      Reachable inputs {
        engine := Engine.make cores settings
        fleet := { plane }
        offered := fun k => (plane.contents (.ring k)).length }
  | goes {h after : History σ} (reached : Reachable inputs h)
      (goes : Goes inputs (fun _ => False) h after) : Reachable inputs after
  | build {h : History σ} (reached : Reachable inputs h) {plan : WorkerPlan σ}
      (held : ∀ k, plan.input = some (.ring k) ∨ plan.output = .ring k →
        0 < (h.fleet.plane.holders? k).getD 0) :
      Reachable inputs { h with fleet := (h.fleet.build plan).2 }
  | poll {h : History σ} (reached : Reachable inputs h) {number : Nat} {m : Member σ} {f : Flow}
      (found : h.fleet.members[number]? = some m) (idle : m.stage = .idle)
      (alive : (m.worker.turn h.fleet.plane).crashed = false)
      (lives : (m.worker.turn h.fleet.plane).plane.lives = h.fleet.plane.lives)
      (carries : Moment.Carries ⟨m.worker, h.fleet.plane, [], 0, 0⟩
        ⟨(m.worker.turn h.fleet.plane).worker, (m.worker.turn h.fleet.plane).plane, [], 0, 0⟩ f) :
      Reachable inputs {
        h with
        fleet := (h.fleet.turnHere number).2
        flows := Function.update h.flows number (h.flows number ++ f) }
  | dismiss {h : History σ} (reached : Reachable inputs h) {number : Nat} {m : Member σ}
      (found : h.fleet.members[number]? = some m) (idle : m.stage = .idle) :
      Reachable inputs { h with fleet := h.fleet.dismiss number }
  | disable {h : History σ} (reached : Reachable inputs h) {core : Nat} {cores : Cores}
      (disabled : h.engine.cores.disable core = .ok cores) :
      Reachable inputs { h with engine := { h.engine with cores } }
  | spawn {h : History σ} (reached : Reachable inputs h) {number : Nat} {m : Member σ}
      (found : h.fleet.members[number]? = some m) (idle : m.stage = .idle)
      (used : ∀ k, m.worker.input = .ring k → inputs k) (preference : CorePreference) :
      Reachable inputs {
        h with
        engine := (h.engine.spawn h.fleet number preference).2.1
        fleet := (h.engine.spawn h.fleet number preference).2.2 }
  | stop {h after : History σ} (reached : Reachable inputs h) (shuts : Shuts inputs h after) :
      Reachable inputs after

end History

namespace Fleet

variable {σ : Type} {f : Fleet σ} {number : Nat} {m : Member σ}

/-- One member changed together with the plane. -/
theorem onMember_eq (found : f.members[number]? = some m)
    (action : Member σ → Plane → Member σ × Plane) :
    f.onMember number action =
      ⟨(action m f.plane).2, f.members.setIfInBounds number (action m f.plane).1⟩ := by
  rw [onMember, found]

/-- The members after one of them was replaced. -/
theorem getElem?_set (found : f.members[number]? = some m) (m' : Member σ) (other : Nat) :
    (f.members.setIfInBounds number m')[other]? =
      if other = number then some m' else f.members[other]? := by
  -- The number is inside, so the member put there is found there.
  have inside := (Array.getElem?_eq_some_iff.mp found).1
  rw [Array.getElem?_setIfInBounds]
  by_cases same : number = other
  · rw [if_pos same, if_pos inside, if_pos same.symm]
  · rw [if_neg same, if_neg (Ne.symm same)]

/-- A sum after one member was replaced, when the amounts of the others stay the same. -/
theorem sum_set (found : f.members[number]? = some m) (m' : Member σ) (plane : Plane)
    (amount amount' : Nat → Member σ → Nat)
    (others : ∀ other, other ≠ number → amount' other = amount other) :
    sum ⟨plane, f.members.setIfInBounds number m'⟩ amount' + amount number m =
      f.sum amount + amount' number m' := by
  -- The member is taken out of both sums, and what is left of them is the same.
  have inside : number ∈ Finset.range f.members.size :=
    Finset.mem_range.mpr (Array.getElem?_eq_some_iff.mp found).1
  rw [sum, sum, Array.size_setIfInBounds, ← Finset.add_sum_erase _ _ inside,
    ← Finset.add_sum_erase _ _ inside]
  have rest : ∀ other ∈ (Finset.range f.members.size).erase number,
      ((f.members.setIfInBounds number m')[other]?.map (amount' other)).getD 0 =
        (f.members[other]?.map (amount other)).getD 0 := by
    intro other apart
    rw [getElem?_set found, if_neg (Finset.ne_of_mem_erase apart),
      others other (Finset.ne_of_mem_erase apart)]
  rw [Finset.sum_congr rfl rest, getElem?_set found, if_pos rfl, found]
  simp only [Option.map_some, Option.getD_some]
  omega

/-- A sum after a member was added. -/
theorem sum_push (f : Fleet σ) (m : Member σ) (plane : Plane) (amount : Nat → Member σ → Nat) :
    sum ⟨plane, f.members.push m⟩ amount = f.sum amount + amount f.members.size m := by
  -- The new member is the last term of the sum.
  rw [sum, sum, Array.size_push, Finset.sum_range_succ, Array.getElem?_push_size]
  congr 1
  refine Finset.sum_congr rfl ?_
  intro other inside
  rw [Array.getElem?_push, if_neg (Nat.ne_of_lt (Finset.mem_range.mp inside))]

/-- A member's amount is part of the sum. -/
theorem le_sum (found : f.members[number]? = some m) (amount : Nat → Member σ → Nat) :
    amount number m ≤ f.sum amount := by
  -- The member is taken out of the sum.
  have inside : number ∈ Finset.range f.members.size :=
    Finset.mem_range.mpr (Array.getElem?_eq_some_iff.mp found).1
  rw [sum, ← Finset.add_sum_erase _ _ inside, found]
  exact Nat.le_add_right _ _

end Fleet

end PacketPlane
