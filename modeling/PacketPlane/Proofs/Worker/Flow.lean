import PacketPlane.Proofs.Plane.Moves
import PacketPlane.Worker.Basic

/-! Flows: which packets a worker moved, seen from the places and the buffers of its plane. -/

namespace PacketPlane

/-- What became of packets between two moments of a worker: those it pulled, those its output
accepted, those it gave back, and those its tap kept a reference of. -/
structure Flow where
  pulled : List Packet := []
  accepted : List Packet := []
  released : List Packet := []
  captured : List Packet := []
deriving DecidableEq, Repr

/-- One flow after another. -/
instance : Append Flow where
  append f g := {
    pulled := f.pulled ++ g.pulled
    accepted := f.accepted ++ g.accepted
    released := f.released ++ g.released
    captured := f.captured ++ g.captured }

/-- The place that packets from an input come from. -/
def Input.place : Input → Place
  -- Either kind of input has one.
  | .port p => .received p
  | .ring number => .ring number

/-- A processor that neither takes nor gives references to buffers. -/
def Processor.KeepsNone (process : Processor σ) : Prop :=
  ∀ context packet memory (s : Surroundings) other,
    (process context packet memory s).surroundings.buffers.references other =
      s.buffers.references other

/-- What a worker's packets come from and go to, and whether its processor keeps none of them. -/
structure Ends where
  input : Input
  target : Option Target
  tap : Option Nat
  modest : Prop

namespace Flow

/-- The packets of a flow that came from a place. -/
def outOf (f : Flow) (ends : Ends) (place : Place) : List Packet :=
  -- Only the input is pulled from.
  if place = ends.input.place then f.pulled else []

/-- The packets of a flow that went to a place. -/
def into (f : Flow) (ends : Ends) (place : Place) : List Packet :=
  -- The output and the tap are different places.
  (if ends.target.map Target.place = some place then f.accepted else []) ++
    if ends.tap.map Place.tap = some place then f.captured else []

variable {f g : Flow} {ends : Ends} {place : Place}

/-- What came from a place over two flows. -/
theorem outOf_append (f g : Flow) (ends : Ends) (place : Place) :
    (f ++ g).outOf ends place = f.outOf ends place ++ g.outOf ends place := by
  -- A place is the input or not.
  by_cases same : place = ends.input.place
  · simp only [outOf, if_pos same]
    rfl
  · simp only [outOf, if_neg same, List.append_nil]

/-- No output is a tap. -/
theorem target_ne_tap (target : Target) (number : Nat) : target.place ≠ .tap number := by
  -- By cases on the output.
  cases target <;> exact Place.noConfusion

/-- What went to a place over two flows. -/
theorem into_append (f g : Flow) (ends : Ends) (place : Place) :
    (f ++ g).into ends place = f.into ends place ++ g.into ends place := by
  -- A place is the output, the tap or neither.
  have accepted : (f ++ g).accepted = f.accepted ++ g.accepted := rfl
  have captured : (f ++ g).captured = f.captured ++ g.captured := rfl
  simp only [into, accepted, captured]
  by_cases output : ends.target.map Target.place = some place
  · have other : ends.tap.map Place.tap ≠ some place := by
      intro same
      obtain ⟨target, -, there⟩ := Option.map_eq_some_iff.mp output
      obtain ⟨number, -, here⟩ := Option.map_eq_some_iff.mp same
      exact target_ne_tap target number (there.trans here.symm)
    simp [output, other]
  · simp only [output, if_false, List.nil_append]
    split <;> rfl

end Flow

namespace Plane

/-- A flow as it shows on a plane: pulled packets left their place from the front, accepted and
captured ones went to the back of theirs, and the buffers count a reference more for each captured
packet and one less for each packet that was given back. -/
structure Hauls (ends : Ends) (before after : Plane) (f : Flow) : Prop where
  places : before.AtRest → after.AtRest ∧
    ∀ place, f.outOf ends place ++ after.contents place =
      before.contents place ++ f.into ends place
  holders : ∀ number, after.holders? number = before.holders? number
  references : ends.modest → before.buffers.Exchanges after.buffers f.captured f.released

variable {ends : Ends} {p q r : Plane} {f g : Flow} {packets : List Packet}

/-- References given back while every place keeps its ring. -/
theorem Hauls.of_exchange (same : SameRings p q)
    (references : ends.modest → p.buffers.Exchanges q.buffers [] packets) :
    Hauls ends p q { released := packets } := by
  -- Every place keeps its packets, so only references have to be followed.
  refine ⟨?_, same.holders, references⟩
  intro atRest
  obtain ⟨after, same⟩ := same.contents atRest
  refine ⟨after, ?_⟩
  intro place
  simp [Flow.outOf, Flow.into, same]

/-- Nothing moved. -/
theorem Hauls.of_same (same : SameRings p q)
    (references : ends.modest → ∀ packet,
      q.buffers.references packet = p.buffers.references packet) : Hauls ends p q {} := by
  exact Hauls.of_exchange same fun modest => Buffers.Exchanges.of_same (references modest)

/-- One flow after another. -/
theorem Hauls.trans (first : Hauls ends p q f) (second : Hauls ends q r g) :
    Hauls ends p r (f ++ g) := by
  -- Places are followed one flow after the other, and so are references.
  refine ⟨?_, fun number => (second.holders number).trans (first.holders number), ?_⟩
  · intro atRest
    obtain ⟨middle, one⟩ := first.places atRest
    obtain ⟨after, two⟩ := second.places middle
    refine ⟨after, ?_⟩
    intro place
    calc (f ++ g).outOf ends place ++ r.contents place
        = f.outOf ends place ++ (g.outOf ends place ++ r.contents place) := by
          rw [Flow.outOf_append, List.append_assoc]
      _ = f.outOf ends place ++ q.contents place ++ g.into ends place := by
          rw [two, List.append_assoc]
      _ = p.contents place ++ (f ++ g).into ends place := by
          rw [one, Flow.into_append, List.append_assoc]
  · intro modest
    exact (first.references modest).trans (second.references modest)

/-- Packets pulled off the input. -/
theorem Hauls.of_pulls (pulled : Pulls p q ends.input.place packets) :
    Hauls ends p q { pulled := packets } := by
  -- Only the input loses packets, and references stay.
  refine ⟨?_, pulled.holders, ?_⟩
  · intro atRest
    obtain ⟨after, here, others⟩ := pulled.places atRest
    refine ⟨after, ?_⟩
    intro place
    by_cases same : place = ends.input.place
    · subst same
      simp [Flow.outOf, Flow.into, here]
    · simp [Flow.outOf, Flow.into, same, others place same]
  · intro _
    apply Buffers.Exchanges.of_same
    intro packet
    rw [pulled.surroundings]

/-- Packets put on the output. -/
theorem Hauls.of_puts {target : Target} (output : ends.target = some target)
    (put : Puts p q target.place packets) : Hauls ends p q { accepted := packets } := by
  -- Only the output gains packets, and references stay.
  refine ⟨?_, put.holders, ?_⟩
  · intro atRest
    obtain ⟨after, here, others⟩ := put.places atRest
    refine ⟨after, ?_⟩
    intro place
    by_cases same : target.place = place
    · subst same
      simp [Flow.outOf, Flow.into, output, here]
    · simp [Flow.outOf, Flow.into, output, same, others place (Ne.symm same)]
  · intro _
    apply Buffers.Exchanges.of_same
    intro packet
    rw [put.surroundings]

/-- Packets given back. -/
theorem Hauls.of_releaseAll (ends : Ends) (p : Plane) (packets : List Packet) :
    Hauls ends p (p.releaseAll packets) { released := packets } := by
  -- Every place has its ring, and each packet loses a reference.
  refine Hauls.of_exchange ?_ fun _ => p.buffers.releaseAll_exchanges packets
  exact SameRings.congr rfl rfl rfl

/-- Packets put behind those on the tap, with a reference gained for each. -/
theorem Hauls.of_captured {number : Nat} (watched : ends.tap = some number)
    {taken taken' : Ring Packet}
    (replaced : Replaces p q (.tap number) taken') (here : p.ringAt? (.tap number) = some taken)
    (appended : ∀ items, taken.Holds items → taken'.Holds (items ++ packets))
    (references : p.buffers.Exchanges q.buffers packets []) :
    Hauls ends p q { captured := packets } := by
  -- Only the tap gains packets, each with a reference of its own.
  refine ⟨?_, replaced.holders, fun _ => references⟩
  intro atRest
  obtain ⟨items, held⟩ := atRest _ _ here
  obtain ⟨after, now, others⟩ := replaced.contents (appended items held) atRest
  refine ⟨after, ?_⟩
  intro place
  by_cases same : place = .tap number
  · subst same
    have input : Place.tap number ≠ ends.input.place := by
      cases ends.input <;> exact Place.noConfusion
    have output : ends.target.map Target.place ≠ some (.tap number) := by
      intro there
      obtain ⟨target, -, there⟩ := Option.map_eq_some_iff.mp there
      exact Flow.target_ne_tap target number there
    rw [now, contents_eq here held]
    simp [Flow.outOf, Flow.into, input, output, watched]
  · rw [others place same]
    simp [Flow.outOf, Flow.into, watched, Ne.symm same]

/-- A packet shown to a tap, which may keep a reference. -/
theorem Hauls.of_tapPacket {number : Nat} (watched : ends.tap = some number) (p : Plane)
    (packet : Packet) :
    ∃ captured, Hauls ends p (p.tapPacket number packet).2 { captured } := by
  rw [tapPacket]
  cases found : p.tap? number with
  | none => exact ⟨[], Hauls.of_same (SameRings.refl p) fun _ _ => rfl⟩
  | some tap =>
    have here : p.ringAt? (.tap number) = some tap.ring := by simp [ringAt?, found]
    have shared := p.buffers.addRef_exchanges packet
    cases put : tap.ring.enqueue packet with
    | ok ring =>
      have replaced := setTap_replaces found { tap with ring, tapped := tap.tapped + 1 }
      simp only [Tap.tap, put]
      refine ⟨[packet], Hauls.of_captured watched (replaced.congr ?_) here ?_ shared⟩
      · exact SameRings.congr rfl rfl rfl
      · intro items held
        exact held.enqueue_holds put
    | error refused =>
      -- The reference is given back at once, and the ring stays as it was.
      obtain rfl := Ring.enqueue_error put
      have replaced := setTap_replaces found { tap with dropped := tap.dropped + 1 }
      simp only [Tap.tap, put]
      refine ⟨[], Hauls.of_exchange ((replaced.congr ?_).same here) fun _ => ?_⟩
      · exact SameRings.congr rfl rfl rfl
      · exact (shared.trans (Buffers.release_exchanges _ _)).cancel

end Plane

end PacketPlane
