import PacketPlane.Proofs.Plane.Moves
import PacketPlane.Worker.Basic

/-! Holders: workers hold the rings at their ends, and a ring keeps its packets until nobody holds
it any more. -/

namespace PacketPlane

/-- A queue pair that is given back takes its rings along, and every other port keeps its own. -/
theorem Device.rings?_closePort {d : Device} {port other : Port} {rings : QueueRings}
    (found : (d.closePort port).2.rings? other = some rings) : d.rings? other = some rings := by
  -- The queue that is closed has no rings to be found, and every other one is found as before.
  rw [closePort] at found
  split at found
  · exact found
  · rename_i nic queue held owned
    obtain ⟨device, inner, -, -⟩ := owned?_eq_some owned
    have first := (Array.getElem?_eq_some_iff.mp device).1
    have second := (Array.getElem?_eq_some_iff.mp inner).1
    rw [rings?_eq, setQueue, setNic, Array.getElem?_setIfInBounds] at found
    rw [rings?_eq]
    by_cases sameDevice : port.id.device.toNat = other.id.device.toNat
    · rw [← sameDevice] at found ⊢
      simp only [device, first, if_true, Option.bind_some, Array.getElem?_setIfInBounds] at found ⊢
      by_cases sameQueue : port.id.queue.toNat = other.id.queue.toNat
      · rw [← sameQueue] at found
        simp [second] at found
      · rwa [if_neg sameQueue] at found
    · rwa [if_neg sameDevice] at found

namespace Plane

/-- A plane on which each ring lost some of its holders. What is on a ring stays there until its
last holder has left. -/
structure Leaves (before after : Plane) (count : Nat → Nat) : Prop where
  lives : after.lives = before.lives
  atRest : before.AtRest → after.AtRest
  holders : ∀ k, after.holders? k = (before.holders? k).map (· - count k)
  contents : before.AtRest → ∀ k,
    after.contents (.ring k) = before.contents (.ring k) ∨
      0 < count k ∧ after.holders? k = some 0 ∧ after.contents (.ring k) = []

variable {p q r : Plane} {count more : Nat → Nat}

/-- A plane with the same rings, whose other places are at rest, has lost no holder. -/
theorem Leaves.of_rings (rings : q.rings = p.rings) (lives : q.lives = p.lives)
    (atRest : p.AtRest → q.AtRest) : Leaves p q fun _ => 0 := by
  -- Holders are counted by the rings of the plane, which stay.
  refine ⟨lives, atRest, ?_, ?_⟩
  · intro k
    rw [holders?, holders?, rings]
    simp [Function.comp_def]
  · intro _ k
    left
    rw [Plane.contents, Plane.contents, ringAt?, ringAt?, ring?, ring?, rings]

/-- Nobody left. -/
theorem Leaves.refl (p : Plane) : Leaves p p fun _ => 0 :=
  Leaves.of_rings rfl rfl id

/-- Some holders left after others. -/
theorem Leaves.trans (first : Leaves p q count) (second : Leaves q r more) :
    Leaves p r fun k => count k + more k := by
  -- Holders that left are added up, and a ring that was empty stays so.
  have holders : ∀ k, r.holders? k = (p.holders? k).map (· - (count k + more k)) := by
    intro k
    rw [second.holders, first.holders, Option.map_map]
    congr 1
    funext n
    exact Nat.sub_sub n _ _
  refine ⟨second.lives.trans first.lives, fun rest => second.atRest (first.atRest rest), holders,
    ?_⟩
  intro rest k
  obtain same | ⟨left, gone, empty⟩ := second.contents (first.atRest rest) k
  · obtain before | ⟨left, gone, empty⟩ := first.contents rest k
    · exact Or.inl (same.trans before)
    · refine Or.inr ⟨Nat.lt_of_lt_of_le left (Nat.le_add_right _ _), ?_, same.trans empty⟩
      rw [second.holders, gone, Option.map_some, Nat.zero_sub]
  · exact Or.inr ⟨Nat.lt_of_lt_of_le left (Nat.le_add_left _ _), gone, empty⟩

/-- Packets given back leave every ring as it is. -/
theorem releaseAll_leaves (p : Plane) (packets : List Packet) :
    Leaves p (p.releaseAll packets) fun _ => 0 := by
  -- Only buffers change, and no ring is among them.
  refine Leaves.of_rings rfl rfl fun rest => ?_
  exact (SameRings.contents (SameRings.congr rfl rfl rfl) rest).1

/-- A port given back leaves every ring as it is. -/
theorem closePort_leaves (p : Plane) (port : Port) :
    Leaves p (p.closePort port) fun _ => 0 := by
  -- A device that is not there changes nothing, and one that is only loses rings of a queue.
  rw [closePort]
  cases found : p.device? port.device with
  | none => exact Leaves.refl p
  | some device =>
    refine Leaves.of_rings rfl rfl fun rest => ?_
    have kept : ∀ other rings,
        ((p.setDevice port.device (device.closePort port).2).device? other.device).bind
          (·.rings? other) = some rings →
        (p.device? other.device).bind (·.rings? other) = some rings := by
      intro other rings now
      rw [device?_setDevice found] at now
      by_cases same : port.device = other.device
      · rw [if_pos same] at now
        rw [← same, found]
        exact Device.rings?_closePort now
      · rwa [if_neg same] at now
    intro place ring here
    cases place with
    | ring k => exact rest (.ring k) ring here
    | tap k => exact rest (.tap k) ring here
    | received other =>
      obtain ⟨rings, now, rfl⟩ := Option.map_eq_some_iff.mp here
      refine rest (.received other) rings.rx ?_
      rw [ringAt?, kept other rings now, Option.map_some]
    | sending other =>
      obtain ⟨rings, now, rfl⟩ := Option.map_eq_some_iff.mp here
      refine rest (.sending other) rings.tx ?_
      rw [ringAt?, kept other rings now, Option.map_some]

/-- Everything taken off a ring leaves it empty and at rest. -/
theorem emptied {taken : Ring Packet} {items : List Packet} (held : taken.Holds items) :
    (taken.dequeueBulk taken.count).ring.Holds [] := by
  -- As many packets are taken off as there are.
  obtain ⟨-, -, after⟩ := held.dequeueBulk_holds taken.count
  rwa [show items.drop taken.count = [] by rw [held.count_eq, List.drop_length]] at after

/-- A plane whose taps have the same rings has the same ring at every place. -/
theorem SameRings.of_taps (rings : q.rings = p.rings) (devices : q.devices = p.devices)
    (taps : ∀ k, q.tap? k = p.tap? k) : SameRings p q := by
  -- By cases on the place, of which only taps may differ, and not in their rings.
  refine ⟨?_, fun k => by rw [holders?, holders?, rings]⟩
  intro place
  cases place with
  | ring k => rw [ringAt?, ringAt?, ring?, ring?, rings]
  | received port => rw [ringAt?, ringAt?, device?, device?, devices]
  | sending port => rw [ringAt?, ringAt?, device?, device?, devices]
  | tap k => rw [ringAt?, ringAt?, taps]

/-- A holder of a tap that leaves it leaves every ring as it is. -/
theorem leaveTap_leaves (p : Plane) (number : Nat) : Leaves p (p.leaveTap number) fun _ => 0 := by
  -- A tap that loses its last holder gives its packets back, which is no matter of any ring.
  rw [leaveTap]
  cases found : p.taps[number]? with
  | none => exact Leaves.refl p
  | some held =>
    obtain ⟨q, fewer⟩ : ∃ q : Plane, q =
        { p with
          taps := p.taps.setIfInBounds number { held with holders := held.holders - 1 } } :=
      ⟨_, rfl⟩
    -- One holder less, but the same tap.
    have taps : ∀ k, q.tap? k = p.tap? k := by
      intro k
      rw [fewer, tap?, tap?, Array.getElem?_setIfInBounds]
      by_cases same : number = k
      · subst same
        rw [if_pos rfl, if_pos (Array.getElem?_eq_some_iff.mp found).1, found, Option.map_some,
          Option.map_some]
      · rw [if_neg same]
    have rings : q.rings = p.rings := by rw [fewer]
    have same : SameRings p q := SameRings.of_taps rings (by rw [fewer]) taps
    have first : Leaves p q fun _ => 0 :=
      Leaves.of_rings rings (by rw [fewer]) fun rest => (same.contents rest).1
    simp only [← fewer]
    split
    · have here : q.tap? number = some held.value := by
        rw [taps, tap?, found, Option.map_some]
      -- Its ring is emptied before the packets are given back.
      have second : Leaves q (q.setTap number
          { held.value with
            ring := (held.value.ring.dequeueBulk held.value.ring.count).ring }) fun _ => 0 := by
        refine Leaves.of_rings rfl rfl fun rest => ?_
        obtain ⟨items, holds⟩ := rest (.tap number) held.value.ring (by rw [ringAt?, here]; rfl)
        exact ((setTap_replaces here _).contents (emptied holds) rest).1
      exact (first.trans second).trans (releaseAll_leaves _ _)
    · exact first

/-- A ring with one holder fewer that keeps its packets. -/
def loosenRing (p : Plane) (number : Nat) (held : Held (Ring Packet)) : Plane :=
  -- The ring is the one under this number.
  { p with rings := p.rings.setIfInBounds number { held with holders := held.holders - 1 } }

section Loosen

variable {held : Held (Ring Packet)} {number : Nat} (found : p.rings[number]? = some held)

include found

/-- Every place has the ring that it had when a ring lost a holder. -/
theorem loosenRing_ringAt? (place : Place) :
    (p.loosenRing number held).ringAt? place = p.ringAt? place := by
  -- By cases on the place: the ring that lost a holder is still the ring that it was.
  have inside := (Array.getElem?_eq_some_iff.mp found).1
  cases place with
  | ring k =>
    rw [ringAt?, ring?, loosenRing, Array.getElem?_setIfInBounds]
    by_cases same : number = k
    · rw [← same, if_pos rfl, if_pos inside, ringAt?, ring?, found]
      rfl
    · rw [if_neg same]
      rfl
  | received port => rfl
  | sending port => rfl
  | tap k => rfl

/-- Only the ring that is named lost a holder. -/
theorem loosenRing_holders (k : Nat) :
    (p.loosenRing number held).holders? k =
      (p.holders? k).map (· - if k = number then 1 else 0) := by
  -- The ring is the one that is named, or another.
  have inside := (Array.getElem?_eq_some_iff.mp found).1
  rw [loosenRing, holders?, holders?, Array.getElem?_setIfInBounds]
  by_cases same : k = number
  · subst same
    rw [if_pos rfl, if_pos inside, found, Option.map_some, Option.map_some, Option.map_some,
      if_pos rfl]
  · simp [same, Ne.symm same, Function.comp_def]

/-- A ring that lost a holder keeps its packets. -/
theorem loosenRing_leaves :
    Leaves p (p.loosenRing number held) fun k => if k = number then 1 else 0 := by
  -- Packets stay where they are, since every place has its ring.
  refine ⟨rfl, ?_, loosenRing_holders found, ?_⟩
  · intro rest place ring there
    rw [loosenRing_ringAt? found] at there
    exact rest place ring there
  · intro _ k
    refine Or.inl ?_
    rw [Plane.contents, Plane.contents, loosenRing_ringAt? found]

/-- A ring that lost its last holder may be emptied. -/
theorem emptyRing_leaves (last : held.holders = 1) :
    Leaves p ((p.loosenRing number held).setRing number
      (held.value.dequeueBulk held.value.count).ring) fun k => if k = number then 1 else 0 := by
  -- The last holder takes the packets along, and nobody is left to miss them.
  have before : p.ringAt? (.ring number) = some held.value := by
    rw [ringAt?, ring?, found, Option.map_some]
  have here : (p.loosenRing number held).ring? number = some held.value :=
    (loosenRing_ringAt? found (.ring number)).trans before
  have replaced := setRing_replaces here (held.value.dequeueBulk held.value.count).ring
  have loosened := loosenRing_leaves found
  refine ⟨loosened.lives, ?_, ?_, ?_⟩
  · intro rest
    obtain ⟨items, holds⟩ := rest (.ring number) held.value before
    exact (replaced.contents (emptied holds) (loosened.atRest rest)).1
  · intro k
    rw [replaced.holders, loosened.holders]
  · intro rest k
    obtain ⟨items, holds⟩ := rest (.ring number) held.value before
    obtain ⟨-, now, others⟩ := replaced.contents (emptied holds) (loosened.atRest rest)
    by_cases same : k = number
    · subst same
      refine Or.inr ⟨by simp, ?_, now⟩
      rw [replaced.holders, loosened.holders, holders?, found, Option.map_some, Option.map_some,
        last]
      simp
    · refine Or.inl ((others _ ?_).trans ?_)
      · intro clash
        exact same (Place.ring.inj clash)
      · rw [Plane.contents, Plane.contents, loosenRing_ringAt? found]

end Loosen

/-- A holder of a ring that leaves it leaves every other ring as it is, and takes the packets along
if it was the last. -/
theorem leaveRing_leaves (p : Plane) (number : Nat) :
    Leaves p (p.leaveRing number) fun k => if k = number then 1 else 0 := by
  -- By cases on the ring: it is not there, is left by its last holder, or by one of several.
  rw [leaveRing]
  cases found : p.rings[number]? with
  | none =>
    refine ⟨rfl, id, ?_, fun _ _ => Or.inl rfl⟩
    intro k
    by_cases same : k = number
    · rw [same, holders?, found]
      rfl
    · simp [same]
  | some held =>
    show Leaves p (if held.holders = 1 then _ else p.loosenRing number held) _
    split
    · rename_i last
      exact (emptyRing_leaves found last).trans (releaseAll_leaves _ _)
    · exact loosenRing_leaves found

/-- A plane on which each ring gained some holders, and nothing else about rings changed. -/
structure Joins (before after : Plane) (count : Nat → Nat) : Prop where
  places : ∀ place, after.ringAt? place = before.ringAt? place
  holders : ∀ k, after.holders? k = (before.holders? k).map (· + count k)

/-- Nobody joined. -/
theorem Joins.of_same (same : SameRings p q) : Joins p q fun _ => 0 := by
  -- Holders stay as many as they are.
  refine ⟨same.places, ?_⟩
  intro k
  rw [same.holders]
  simp

/-- Some holders joined after others. -/
theorem Joins.trans (first : Joins p q count) (second : Joins q r more) :
    Joins p r fun k => count k + more k := by
  -- Holders that joined are added up.
  refine ⟨fun place => (second.places place).trans (first.places place), ?_⟩
  intro k
  rw [second.holders, first.holders, Option.map_map]
  congr 1
  funext n
  exact Nat.add_assoc n _ _

/-- A holder that joins leaves the ring as it is. -/
theorem holdRing_joins (p : Plane) (number : Nat) :
    Joins p (p.holdRing number) fun k => if k = number then 1 else 0 := by
  -- By cases on the place: the ring that gained a holder is still the ring that it was.
  constructor
  · intro place
    cases place with
    | ring k =>
      simp only [ringAt?, ring?, holdRing, Array.getElem?_modify]
      split
      · rw [Option.map_map]
        rfl
      · rfl
    | received port => rfl
    | sending port => rfl
    | tap k => rfl
  · intro k
    simp only [holders?, holdRing, Array.getElem?_modify]
    by_cases same : k = number
    · rw [if_pos same.symm, if_pos same, Option.map_map, Option.map_map]
      rfl
    · rw [if_neg (Ne.symm same), if_neg same]
      simp [Function.comp_def]

/-- A holder that joins a tap leaves it as it is. -/
theorem holdTap_joins (p : Plane) (number : Nat) : Joins p (p.holdTap number) fun _ => 0 := by
  -- Taps keep their rings, and holders of taps are not counted among those of rings.
  refine Joins.of_same (SameRings.of_taps rfl rfl ?_)
  intro k
  simp only [tap?, holdTap, Array.getElem?_modify]
  split
  · rw [Option.map_map]
    rfl
  · rfl

end Plane

/-- How often a worker holds a ring. -/
def ringHolds (input : Input) (output : Output) (k : Nat) : Nat :=
  -- A ring at both ends is held twice.
  (if input = .ring k then 1 else 0) + if output = .ring k then 1 else 0

namespace Plane

/-- An input given back. -/
def leaveInput (p : Plane) : Input → Plane
  | .port owned => p.closePort owned
  | .ring number => p.leaveRing number

/-- An output given back. -/
def leaveOutput (p : Plane) : Output → Plane
  | .port owned => p.closePort owned
  | .ring number => p.leaveRing number
  | _ => p

/-- An input that is given back lets go of its ring. -/
theorem leaveInput_leaves (p : Plane) (input : Input) :
    Leaves p (p.leaveInput input) fun k => if input = .ring k then 1 else 0 := by
  -- By cases on the input: only a ring has holders that are counted.
  cases input with
  | port owned => simpa [leaveInput] using p.closePort_leaves owned
  | ring number => simpa [leaveInput, eq_comm] using p.leaveRing_leaves number

/-- An output that is given back lets go of its ring. -/
theorem leaveOutput_leaves (p : Plane) (output : Output) :
    Leaves p (p.leaveOutput output) fun k => if output = .ring k then 1 else 0 := by
  -- By cases on the output: only a ring has holders that are counted.
  cases output with
  | port owned => simpa [leaveOutput] using p.closePort_leaves owned
  | ring number => simpa [leaveOutput, eq_comm] using p.leaveRing_leaves number
  | loopback => simpa [leaveOutput] using Leaves.refl p
  | discard => simpa [leaveOutput] using Leaves.refl p

/-- A worker that is gone has let go of both of its ends. -/
theorem dismiss_leaves (p : Plane) (w : Worker σ) :
    Leaves p (p.dismiss w) (ringHolds w.input w.output) := by
  -- The ends are given up one after another, and the backlog and the tap count as no holders.
  have ends := (p.leaveInput_leaves w.input).trans (leaveOutput_leaves _ w.output)
  have emptied := ends.trans (releaseAll_leaves _ w.backlog.pending)
  cases captured : w.capture with
  | none =>
    have whole : p.dismiss w =
        ((p.leaveInput w.input).leaveOutput w.output).releaseAll w.backlog.pending := by
      simp only [dismiss, captured]
      rfl
    rw [whole]
    exact emptied
  | some tap =>
    have whole : p.dismiss w =
        (((p.leaveInput w.input).leaveOutput w.output).releaseAll w.backlog.pending).leaveTap
          tap := by
      simp only [dismiss, captured]
      rfl
    rw [whole]
    exact emptied.trans (leaveTap_leaves _ tap)

/-- A worker that is made holds both of its ends. -/
theorem holdEnds_joins (p : Plane) (input : Input) (output : Output) (capture : Option Nat) :
    Joins p (p.holdEnds input output capture) (ringHolds input output) := by
  -- The ends are held one after the other.
  have first : Joins p (p.holdEnds input .discard none) fun k =>
      if input = .ring k then 1 else 0 := by
    cases input with
    | port owned => simpa [holdEnds] using Joins.of_same (SameRings.refl p)
    | ring number => simpa [holdEnds, eq_comm] using p.holdRing_joins number
  have second : ∀ q : Plane, q = p.holdEnds input .discard none →
      Joins q (p.holdEnds input output none) fun k => if output = .ring k then 1 else 0 := by
    rintro q rfl
    cases output with
    | ring number => simpa [holdEnds, eq_comm] using holdRing_joins _ number
    | port owned => simpa [holdEnds] using Joins.of_same (SameRings.refl _)
    | loopback => simpa [holdEnds] using Joins.of_same (SameRings.refl _)
    | discard => simpa [holdEnds] using Joins.of_same (SameRings.refl _)
  have third : Joins (p.holdEnds input output none) (p.holdEnds input output capture)
      fun _ => 0 := by
    cases capture with
    | some tap => exact holdTap_joins _ tap
    | none => exact Joins.of_same (SameRings.refl _)
  exact (first.trans (second _ rfl)).trans third

/-- The ends of a plan that is refused are given back without touching any ring. -/
theorem closeEnds_leaves (p : Plane) (input : Option Input) (output : Output) :
    Leaves p (p.closeEnds input output) fun _ => 0 := by
  -- Only ports are closed, so no ring loses a holder.
  have first : Leaves p (p.closeEnds input .discard) fun _ => 0 := by
    cases input with
    | none => exact Leaves.refl p
    | some input =>
      cases input with
      | port owned => exact p.closePort_leaves owned
      | ring number => exact Leaves.refl p
  have second : Leaves (p.closeEnds input .discard) (p.closeEnds input output) fun _ => 0 := by
    cases output with
    | port owned => exact closePort_leaves _ owned
    | ring number => exact Leaves.refl _
    | loopback => exact Leaves.refl _
    | discard => exact Leaves.refl _
  exact first.trans second

end Plane

end PacketPlane
