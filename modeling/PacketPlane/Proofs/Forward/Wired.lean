import PacketPlane.Forward.Pipeline
import PacketPlane.Proofs.Fleet.Soundness
import PacketPlane.Proofs.Plane.Wire
import PacketPlane.Proofs.Worker.Conveyor

/-! A pipeline between two wires: whatever its stages do and whatever happens on the wires, packets
stay in line between the port that frames come in on and the one that they go out on. -/

namespace PacketPlane.Member

variable {σ : Type} {m : Member σ} {p : Plane} {treat : Treatment σ} {inward outward : Prospect}
  {others : List Packet}

/-- A step of a worker that nobody has asked to stop keeps packets in their order, and leaves others
alone. -/
theorem step_conveys (steady : Desk.Steady treat others ⟨m.worker, p, [], {}⟩)
    (turns : treat.Turns inward outward) (unasked : m.Unasked p) :
    let after : Desk σ := ⟨(m.step p).1.worker, (m.step p).2, [], {}⟩
    Desk.Steady treat others after ∧
      Desk.Conveys inward outward others ⟨m.worker, p, [], {}⟩ after := by
  -- A worker that nobody has asked is starting, which moves nothing, or takes a turn.
  intro after
  obtain ⟨starting, created⟩ | ⟨polling, running⟩ := unasked
  · simp only [after, step_starting starting, if_pos created]
    exact steady.note rfl rfl ⟨rfl, rfl, rfl, rfl⟩
  · obtain ⟨alive, turned⟩ := steady.turn turns
    simp only [after, step_polling polling, if_pos running, Member.after, alive, Bool.false_eq_true,
      if_false]
    exact turned

end PacketPlane.Member

namespace PacketPlane.Forward

open scoped List

/-- A running pipeline between two wires: the frames that one wire has delivered, what the other has
taken off, and the packets that whoever takes them has not given back yet. -/
structure Wired where
  pipeline : Pipeline
  delivered : List (List UInt8) := []
  taken : List Captured := []
  held : List Packet := []

/-- Something that happens in a pipeline or on its wires. -/
inductive Move where
  | inject (frame : List UInt8)
  | poll (stage : Nat)
  | drain (limit : Nat)
  | giveBack (count : Nat)
  | setLink (device : UInt16) (up : Bool)
  | setBudget (id : PortId) (budget : Option UInt64)
  | advance (clock : Nat) (cycles : UInt64)
deriving DecidableEq, Repr

namespace Wired

/-- The plane of a pipeline. -/
def plane (w : Wired) : Plane :=
  w.pipeline.fleet.plane

/-- What the stages of a pipeline are built between. -/
def ends (w : Wired) : Ends :=
  w.pipeline.ends

/-- The plane of a pipeline replaced. -/
def setPlane (w : Wired) (plane : Plane) : Wired :=
  -- The stages stay as they are.
  { w with pipeline := { w.pipeline with fleet := { w.pipeline.fleet with plane } } }

/-- A pipeline and its wires after a move. -/
def after (w : Wired) : Move → Wired
  -- What is refused changes nothing. A stage that is polled takes one step of its run.
  | .inject frame =>
    match w.plane.inject w.ends.device rxPort frame with
    | .error _ => w
    | .ok (false, plane) => w.setPlane plane
    | .ok (true, plane) => { w.setPlane plane with delivered := w.delivered ++ [frame] }
  | .poll stage =>
    { w with pipeline := { w.pipeline with fleet := w.pipeline.fleet.step stage } }
  | .drain limit =>
    match w.plane.onDevice w.ends.device (·.drainTx txPort limit) with
    | .error _ => w
    | .ok (packets, plane) =>
      { w.setPlane plane with
        taken := w.taken ++ packets.map plane.buffers.capture, held := w.held ++ packets }
  | .giveBack count =>
    { w.setPlane (w.plane.releaseAll (w.held.take count)) with held := w.held.drop count }
  | .setLink device up =>
    match w.plane.onDevice w.ends.device fun d => (d.setLink device up).map ((), ·) with
    | .error _ => w
    | .ok (_, plane) => w.setPlane plane
  | .setBudget id budget =>
    match w.plane.onDevice w.ends.device fun d => (d.setBudget id budget).map ((), ·) with
    | .error _ => w
    | .ok (_, plane) => w.setPlane plane
  | .advance clock cycles => w.setPlane (w.plane.advanceClock clock cycles)

end Wired

/-- The place that packets come to after a number of stages. -/
def Ends.place (ends : Ends) : Nat → Place
  | 0 => .received ends.rx
  | 1 => .ring ends.rxRing
  | 2 => .ring ends.txRing
  | _ => .sending ends.tx

/-- What becomes of a frame that still has its addresses exchanged: without two it is dropped. -/
def exchanged : Prospect := fun c =>
  if 2 * macLen ≤ c.data.length then some { c with data := exchangeMacs c.data } else none

/-- What becomes of a packet after a number of stages. The second one exchanges addresses. -/
def prospect : Nat → Prospect
  | 0 | 1 => exchanged
  | _ => some

/-- What the exchanging stage does with a packet. -/
def exchanging : Treatment Unit := fun packet memory b =>
  let edits := match b.writable? packet with
    | none => []
    | some (start, len) =>
      if len < 2 * macLen then []
      else [Edit.write 0 (exchangeMacs (b.bytes packet start (2 * macLen)))]
  ((b.swapMacs packet).1, memory, edits)

/-- Exchanging the addresses of a packet is writing over its front. -/
theorem performAll_exchanging (packet : Packet) (memory : Unit) (b : Buffers) :
    b.performAll packet (exchanging packet memory b).2.2 = (b.swapMacs packet).2 := by
  -- By cases on whether the packet may be written over and is long enough for two addresses.
  simp only [exchanging, Buffers.swapMacs]
  cases writable : b.writable? packet with
  | none => rfl
  | some window =>
    obtain ⟨start, len⟩ := window
    simp only
    split
    · rfl
    · rename_i long
      obtain ⟨p, s, found, -, -, -, -⟩ := Buffers.writable?_eq_some writable
      have size : (exchangeMacs (b.bytes packet start (2 * macLen))).length = 2 * macLen := by
        rw [length_exchangeMacs, Buffers.bytes, found]
        exact p.length_bytes ..
      simp only [Buffers.performAll, List.foldl_cons, List.foldl_nil, Buffers.perform, writable,
        Nat.add_zero, Nat.sub_zero]
      rw [List.take_of_length_le (by omega)]

/-- The exchanging stage treats packets alone. -/
theorem swapMacs_treats : swapMacs.Treats exchanging := by
  -- The stage does to the buffers just what its edits do.
  intro context packet memory s
  refine ⟨?_, rfl, (performAll_exchanging packet memory s.buffers).symm⟩
  simp only [swapMacs]

/-- A packet that the exchanging stage lets through looks as it was going to. -/
theorem exchanging_turns : exchanging.Turns exchanged some := by
  -- The packet went through, so it was long enough and was written over.
  intro packet memory b through
  rw [performAll_exchanging]
  have swapped : b.swapMacs packet = (true, (b.swapMacs packet).2) := Prod.ext through rfl
  obtain ⟨long, looks⟩ := Buffers.capture_swapMacs swapped
  rw [exchanged, if_pos long, looks]

/-- A stage that forwards everything untouched treats packets alone. -/
theorem passThrough_treats (σ : Type) :
    (passThrough σ).Treats fun _ memory _ => (true, memory, []) :=
  fun _ _ _ _ => ⟨rfl, rfl, rfl⟩

/-- A member that serves as the stage of a number between its places. -/
structure Serves (ends : Ends) (number : Nat) (m : Member Unit) : Prop where
  stage : number < 3
  input : m.worker.input.place = ends.place number
  output : m.worker.target?.map Target.place = some (ends.place (number + 1))
  treats : ∃ treat : Treatment Unit, m.worker.process.Treats treat ∧
    treat.Turns (prospect number) (prospect (number + 1))
  leaves : m.worker.process.LeavesLives
  untapped : m.worker.capture = none
  life : m.worker.life = number

/-- A member goes on serving while its fixture stays. -/
theorem Serves.congr {ends : Ends} {number : Nat} {m m' : Member Unit} (serves : Serves ends number m)
    (fixed : m'.worker.fixture = m.worker.fixture) : Serves ends number m' := by
  -- Everything that serving asks for is part of the fixture, or of the stage.
  have input : m'.worker.input = m.worker.input := congrArg Fixture.input fixed
  have process : m'.worker.process = m.worker.process := congrArg Fixture.process fixed
  have capture : m'.worker.capture = m.worker.capture := congrArg Fixture.capture fixed
  have life : m'.worker.life = m.worker.life := congrArg Fixture.life fixed
  refine ⟨serves.stage, ?_, ?_, ?_, ?_, ?_, ?_⟩
  · rw [input, serves.input]
  · rw [Worker.target?_eq fixed, serves.output]
  · rw [process]
    exact serves.treats
  · rw [process]
    exact serves.leaves
  · rw [capture, serves.untapped]
  · rw [life, serves.life]

/-- Places of a pipeline with two rings are different, and none is a tap. -/
theorem Ends.place_inj {ends : Ends} (apart : ends.rxRing ≠ ends.txRing) {number other : Nat}
    (near : number < 4) (near' : other < 4) (same : ends.place number = ends.place other) :
    number = other := by
  -- Case by case: rings come between ports, and the two rings are different ones.
  match number, other with
  | 0, 0 | 1, 1 | 2, 2 | 3, 3 => rfl
  | 1, 2 => exact absurd (Place.ring.inj same) apart
  | 2, 1 => exact absurd (Place.ring.inj same).symm apart
  | 0, 1 | 0, 2 | 0, 3 | 1, 0 | 1, 3 | 2, 0 | 2, 3 | 3, 0 | 3, 1 | 3, 2 => cases same

/-- No place of a pipeline is a tap. -/
theorem Ends.place_ne_tap (ends : Ends) (number tap : Nat) : ends.place number ≠ .tap tap := by
  -- Case by case, each of which is a queue or a ring.
  match number with
  | 0 | 1 | 2 | _ + 3 => exact Place.noConfusion

namespace Wired

/-- The packets that wait at the place after a number of stages. -/
def queued (w : Wired) (number : Nat) : Line :=
  .facing (prospect number) (w.plane.contents (w.ends.place number))

/-- The packets that wait for the output of a stage. -/
def waiting (w : Wired) (number : Nat) : Line :=
  -- A stage that does not exist has none.
  .facing (prospect (number + 1))
    ((w.pipeline.fleet.members[number]?.map (·.worker.backlog.pending)).getD [])

/-- The packets at a stage, from those on its output to those on its input. -/
def belt (w : Wired) (number : Nat) : Line :=
  w.queued (number + 1) ++ w.waiting number ++ w.queued number

/-- All packets between the port that frames come in on and the one that they go out on, those that go
out first in front. -/
def line (w : Wired) : Line :=
  w.queued 3 ++ w.waiting 2 ++ w.queued 2 ++ w.waiting 1 ++ w.queued 1 ++ w.waiting 0 ++ w.queued 0

/-- A pipeline that nobody has asked to stop, with all packets in line, and with what has come out in
the order in which frames came in. -/
structure Running (w : Wired) : Prop where
  serves : ∀ (number : Nat) (m : Member Unit), w.pipeline.fleet.members[number]? = some m →
    Serves w.ends number m ∧ m.Unasked w.plane ∧ number < w.plane.lives.size
  apart : w.ends.rxRing ≠ w.ends.txRing
  sending : w.ends.tx.device = w.ends.device ∧ w.ends.tx.id = txPort
  opened : (w.plane.ringAt? (.sending w.ends.tx)).isSome
  atRest : w.plane.AtRest
  owned : w.line.Owned w.plane.buffers w.held
  order : w.taken ++ w.line.outcome w.plane.buffers <+
    w.delivered.filterMap fun frame => exchanged ⟨0, 0, frame⟩

/-- The packets around a stage stay in line when nothing changes but at this stage. -/
theorem line_split (w : Wired) {number : Nat} (stage : number < 3) :
    ∃ before rest, w.line = before ++ w.belt number ++ rest ∧ ∀ w' : Wired,
      (∀ other < 4, other ≠ number → other ≠ number + 1 → w'.queued other = w.queued other) →
        (∀ other, other ≠ number → w'.waiting other = w.waiting other) →
          w'.line = before ++ w'.belt number ++ rest := by
  -- By cases on the stage, and what is before and behind it is the rest of the line.
  match number with
  | 0 =>
    refine ⟨w.queued 3 ++ w.waiting 2 ++ w.queued 2 ++ w.waiting 1, [], by simp [line, belt], ?_⟩
    intro w' queued waiting
    simp [line, belt, queued 3, queued 2, waiting 2, waiting 1]
  | 1 =>
    refine ⟨w.queued 3 ++ w.waiting 2, w.waiting 0 ++ w.queued 0, by simp [line, belt], ?_⟩
    intro w' queued waiting
    simp [line, belt, queued 3, queued 0, waiting 2, waiting 0]
  | 2 =>
    refine ⟨[], w.waiting 1 ++ w.queued 1 ++ w.waiting 0 ++ w.queued 0, by simp [line, belt], ?_⟩
    intro w' queued waiting
    simp [line, belt, queued 1, queued 0, waiting 1, waiting 0]

/-- The packets at a stage are those of its member. -/
theorem belt_eq {w : Wired} {number : Nat} {m : Member Unit} (serves : Serves w.ends number m)
    (found : w.pipeline.fleet.members[number]? = some m) :
    Desk.belt (prospect number) (prospect (number + 1)) ⟨m.worker, w.plane, [], {}⟩ =
      w.belt number := by
  -- Input and target of the member are the places before and behind it.
  obtain ⟨target, output, place⟩ := Option.map_eq_some_iff.mp serves.output
  simp only [Desk.belt, Desk.sent, Desk.coming, output, place, serves.input, belt, queued, waiting,
    found, Option.map_some, Option.getD_some, Line.facing_append, List.nil_append]

section Poll

variable {w : Wired} {number : Nat} {m : Member Unit}

/-- A pipeline whose stage of a number has become a later state of itself. -/
def replaced (w : Wired) (number : Nat) (m : Member Unit) (plane : Plane) : Wired :=
  { w with pipeline := { w.pipeline with
      fleet := ⟨plane, w.pipeline.fleet.members.setIfInBounds number m⟩ } }

/-- The members of a pipeline after one of them was replaced. -/
theorem getElem?_replaced (found : w.pipeline.fleet.members[number]? = some m) (m' : Member Unit)
    (plane : Plane) (other : Nat) :
    (w.replaced number m' plane).pipeline.fleet.members[other]? =
      if other = number then some m' else w.pipeline.fleet.members[other]? :=
  Fleet.getElem?_set found m' other

/-- A step of one member leaves all members serving, and nobody asked to stop. -/
theorem Running.staffed (running : w.Running)
    (found : w.pipeline.fleet.members[number]? = some m) (other : Nat) (n : Member Unit)
    (there : (w.replaced number (m.step w.plane).1
      (m.step w.plane).2).pipeline.fleet.members[other]? = some n) :
    Serves w.ends other n ∧ n.Unasked (m.step w.plane).2 ∧
      other < (m.step w.plane).2.lives.size := by
  -- The member that took the step keeps its fixture, and the others keep their lifecycles.
  obtain ⟨serves, unasked, inside⟩ := running.serves number m found
  obtain ⟨treat, treats, -⟩ := serves.treats
  have calm := m.calm_of_gentle w.plane treats.survives serves.leaves
  obtain ⟨f, moves⟩ := Member.moves_exists calm
  have stepped := Member.step_stepped calm moves
  rw [getElem?_replaced found] at there
  rw [stepped.size]
  split at there
  · rename_i same
    subst same
    cases there
    exact ⟨serves.congr stepped.fixed, Member.step_unasked unasked calm (serves.life ▸ inside),
      inside⟩
  · rename_i distinct
    obtain ⟨serves', unasked', inside'⟩ := running.serves other n there
    refine ⟨serves', ?_, inside'⟩
    have apart : n.worker.life ≠ m.worker.life := by
      rw [serves.life, serves'.life]
      exact distinct
    rw [Member.Unasked, stepped.lives n.worker.life apart]
    exact unasked'

/-- A stage is steady beside all packets before and behind those that are at it. -/
theorem Running.steady (running : w.Running)
    (found : w.pipeline.fleet.members[number]? = some m) {treat : Treatment Unit}
    (treats : m.worker.process.Treats treat) {before rest : Line}
    (split : w.line = before ++ w.belt number ++ rest) :
    Desk.Steady treat (before.packets ++ rest.packets ++ w.held) ⟨m.worker, w.plane, [], {}⟩ := by
  obtain ⟨serves, -, -⟩ := running.serves number m found
  obtain ⟨target, output, place⟩ := Option.map_eq_some_iff.mp serves.output
  have near := serves.stage
  have owned := running.owned
  rw [split, ← belt_eq serves found] at owned
  refine Desk.Steady.of_owned treats serves.untapped ⟨target, output, ?_⟩ running.atRest owned
  -- A stage does not send to where it takes packets from.
  rw [place, serves.input]
  intro same
  have clash := Ends.place_inj running.apart (by omega) (by omega) same
  omega

/-- A step of a stage keeps all packets in line. -/
theorem Running.poll (running : w.Running) (stage : Nat) : (w.after (.poll stage)).Running := by
  -- The line is split at the stage, which moves packets only within its own part.
  cases found : w.pipeline.fleet.members[stage]? with
  | none =>
    have still : w.after (.poll stage) = w := by
      simp only [after, Fleet.step, Fleet.onMember, found]
    rw [still]
    exact running
  | some m =>
    obtain ⟨serves, unasked, -⟩ := running.serves stage m found
    obtain ⟨treat, treats, turns⟩ := serves.treats
    have step : w.after (.poll stage) = w.replaced stage (m.step w.plane).1 (m.step w.plane).2 := by
      simp only [after, Fleet.step, Fleet.onMember, found]
      rfl
    have staffed := running.staffed found
    rw [step]
    have near := serves.stage
    obtain ⟨before, rest, split, splits⟩ := w.line_split serves.stage
    obtain ⟨steady, conveys⟩ :=
      Member.step_conveys (running.steady found treats split) turns unasked
    generalize (m.step w.plane).1 = m' at *
    generalize (m.step w.plane).2 = p' at *
    have here := getElem?_replaced found m' p'
    have serves' : Serves w.ends stage m' := serves.congr conveys.fixed
    have line := splits (w.replaced stage m' p') ?_ ?_
    · -- What the stage had in front and now has behind is one and the same stretch of the line.
      have middle := belt_eq (w := w.replaced stage m' p') serves' ((here stage).trans (if_pos rfl))
      refine ⟨staffed, running.apart, running.sending, ?_, steady.atRest, ?_, ?_⟩
      · exact (conveys.opened _).trans running.opened
      · rw [line, ← middle]
        exact steady.owned
      · refine List.Sublist.trans (List.Sublist.append (List.Sublist.refl _) ?_) running.order
        rw [line, split, ← middle, ← belt_eq serves found]
        apply Line.outcome_between _ conveys.order
        intro packet member
        exact conveys.kept packet (List.mem_append_left _ member)
    · intro other near' apart behind
      -- Another place is neither the input nor the output of the stage.
      refine congrArg (Line.facing (prospect other)) (conveys.elsewhere _ ?_ ?_ ?_)
      · exact w.ends.place_ne_tap other
      · show w.ends.place other ≠ m.worker.input.place
        rw [serves.input]
        exact fun same => apart (Ends.place_inj running.apart near' (by omega) same)
      · show m.worker.target?.map Target.place ≠ some (w.ends.place other)
        rw [serves.output, ne_eq, Option.some.injEq]
        exact fun same => behind (Ends.place_inj running.apart near' (by omega) same.symm)
    · intro other apart
      simp only [waiting, here, if_neg apart]

end Poll

section Wires

variable {w w' : Wired} {plane : Plane}

/-- A pipeline goes on running when only its plane and what its wires have seen change. -/
theorem Running.congr (running : w.Running)
    (members : w'.pipeline.fleet.members = w.pipeline.fleet.members) (ends : w'.ends = w.ends)
    (lives : w'.plane.lives = w.plane.lives)
    (opened : ∀ place, (w'.plane.ringAt? place).isSome = (w.plane.ringAt? place).isSome)
    (atRest : w'.plane.AtRest) (owned : w'.line.Owned w'.plane.buffers w'.held)
    (order : w'.taken ++ w'.line.outcome w'.plane.buffers <+
      w'.delivered.filterMap fun frame => exchanged ⟨0, 0, frame⟩) : w'.Running := by
  -- Members and lifecycles stay, so everybody serves as before.
  refine ⟨?_, ?_, ?_, ?_, atRest, owned, order⟩
  · intro number m found
    rw [members] at found
    obtain ⟨serves, unasked, inside⟩ := running.serves number m found
    rw [ends, Member.Unasked, Plane.life, lives]
    exact ⟨serves, unasked, inside⟩
  · rw [ends]
    exact running.apart
  · rw [ends]
    exact running.sending
  · rw [ends, opened]
    exact running.opened

/-- All packets stay in line while nothing changes on any ring. -/
theorem line_same (members : w'.pipeline.fleet.members = w.pipeline.fleet.members)
    (ends : w'.ends = w.ends) (rings : w.plane.SameRings w'.plane) : w'.line = w.line := by
  -- The line is read off members and rings, which stay.
  have contents : ∀ place, w'.plane.contents place = w.plane.contents place := by
    intro place
    rw [Plane.contents, Plane.contents, rings.places]
  simp only [line, queued, waiting, members, ends, contents]

/-- Packets that come to the first place are the last in line. -/
theorem line_joined {packets : List Packet}
    (joined : plane.contents (w.ends.place 0) = w.plane.contents (w.ends.place 0) ++ packets)
    (others : ∀ other ≠ 0,
      plane.contents (w.ends.place other) = w.plane.contents (w.ends.place other)) :
    (w.setPlane plane).line = w.line ++ Line.facing exchanged packets := by
  -- Only the last part of the line changes, which grows at its end.
  have queued : ∀ other ≠ 0, (w.setPlane plane).queued other = w.queued other :=
    fun other behind => congrArg (Line.facing (prospect other)) (others other behind)
  have last : (w.setPlane plane).queued 0 = w.queued 0 ++ Line.facing exchanged packets :=
    (congrArg (Line.facing exchanged) joined).trans (Line.facing_append ..)
  simp only [line, queued 3 (by decide), queued 2 (by decide), queued 1 (by decide), last,
    List.append_assoc]
  rfl

/-- Packets that leave the last place were the first in line. -/
theorem line_left {packets : List Packet}
    (left : w.plane.contents (w.ends.place 3) = packets ++ plane.contents (w.ends.place 3))
    (others : ∀ other < 3,
      plane.contents (w.ends.place other) = w.plane.contents (w.ends.place other)) :
    w.line = Line.facing some packets ++ (w.setPlane plane).line := by
  -- Only the first part of the line changes, which loses its front.
  have queued : ∀ other < 3, (w.setPlane plane).queued other = w.queued other :=
    fun other near => congrArg (Line.facing (prospect other)) (others other near)
  have first : w.queued 3 = Line.facing some packets ++ (w.setPlane plane).queued 3 :=
    (congrArg (Line.facing some) left).trans (Line.facing_append ..)
  simp only [line, first, queued 2 (by decide), queued 1 (by decide), queued 0 (by decide),
    List.append_assoc]
  rfl

/-- A change of the plane that leaves its rings and every packet keeps all packets in line. -/
theorem Running.setPlane (running : w.Running) (rings : w.plane.SameRings plane)
    (buffers : plane.buffers = w.plane.buffers) (lives : plane.lives = w.plane.lives) :
    (w.setPlane plane).Running := by
  -- The line and the buffers stay, and with them who owns what and what is to come.
  have line : (w.setPlane plane).line = w.line := line_same rfl rfl rings
  have same : (w.setPlane plane).plane.buffers = w.plane.buffers := buffers
  refine running.congr rfl rfl lives (fun place => congrArg Option.isSome (rings.places place))
    (rings.contents running.atRest).1 ?_ ?_
  · rw [line, same]
    exact running.owned
  · rw [line, same]
    exact running.order

/-- A frame that is lost on the wire leaves all packets in line. -/
theorem Running.inject_false (running : w.Running) {frame : List UInt8}
    (lost : w.plane.inject w.ends.device rxPort frame = .ok (false, plane)) :
    (w.setPlane plane).Running := by
  -- The packet that the frame was put in is given back, so nobody gains or loses a packet in line.
  obtain ⟨l, run, same, listed⟩ := running.owned
  obtain ⟨rings, reached, captures, lives⟩ := Plane.inject_false run same lost
  have line : (w.setPlane plane).line = w.line := line_same rfl rfl rings
  refine running.congr rfl rfl lives (fun place => congrArg Option.isSome (rings.places place))
    (rings.contents running.atRest).1 ?_ ?_
  · rw [line]
    exact ⟨_, reached, rfl, listed⟩
  · have looks : w.line.outcome plane.buffers = w.line.outcome w.plane.buffers :=
      Line.outcome_congr fun packet member =>
        captures packet (listed.subset (List.mem_append_left _ member))
    show w.taken ++ (w.setPlane plane).line.outcome plane.buffers <+ _
    rw [line, looks]
    exact running.order

/-- A frame that is received on the wire is the last in line, unless it is on nobody's port. -/
theorem Running.inject_true (running : w.Running) {frame : List UInt8}
    (received : w.plane.inject w.ends.device rxPort frame = .ok (true, plane)) :
    ({ w.setPlane plane with delivered := w.delivered ++ [frame] } : Wired).Running := by
  obtain ⟨l, run, same, listed⟩ := running.owned
  obtain ⟨packet, opening, put, reached, captures, looks⟩ := Plane.inject_true run same received
  have buffered : w.plane.SameRings { w.plane with buffers := plane.buffers } :=
    Plane.SameRings.congr rfl rfl rfl
  obtain ⟨resting, kept⟩ := buffered.contents running.atRest
  obtain ⟨atRest, here, there⟩ := put.places resting
  rw [kept] at here
  have others : ∀ other ≠ 0,
      plane.contents (w.ends.place other) = w.plane.contents (w.ends.place other) := by
    intro other behind
    refine (there _ ?_).trans (kept _)
    match other with
    | 1 | 2 | _ + 3 => exact Place.noConfusion
  -- A port that was opened again is not the one that the first stage polls.
  obtain ⟨packets, few, joined⟩ : ∃ packets : List Packet, packets <+ [packet] ∧
      plane.contents (w.ends.place 0) = w.plane.contents (w.ends.place 0) ++ packets := by
    by_cases mine : w.ends.place 0 = .received ⟨w.ends.device, rxPort, opening⟩
    · exact ⟨[packet], List.Sublist.refl _, by rw [mine, here]⟩
    · exact ⟨[], List.nil_sublist _, by rw [List.append_nil, (there _ mine).trans (kept _)]⟩
  have line := line_joined joined others
  have lives : plane.lives = w.plane.lives := (congrArg Surroundings.lives put.surroundings :)
  have opened : ∀ place, (plane.ringAt? place).isSome = (w.plane.ringAt? place).isSome :=
    fun place => (put.opened place).trans (congrArg Option.isSome (buffered.places place))
  refine running.congr rfl rfl lives opened atRest ?_ ?_
  · refine ⟨_, reached, rfl, ?_⟩
    show ((w.setPlane plane).line.packets ++ w.held).Subperm ([packet] ++ l.packets)
    rw [line, Line.packets_append, Line.packets_facing, List.append_assoc]
    exact List.perm_append_comm_assoc .. |>.subperm.trans (few.subperm.append listed)
  · show w.taken ++ (w.setPlane plane).line.outcome plane.buffers <+
      (w.delivered ++ [frame]).filterMap fun frame => exchanged ⟨0, 0, frame⟩
    -- The packets that were there look as before, and the new one looks like its frame.
    have before : w.line.outcome plane.buffers = w.line.outcome w.plane.buffers :=
      Line.outcome_congr fun packet member =>
        captures packet (listed.subset (List.mem_append_left _ member))
    have last : (Line.facing exchanged [packet]).outcome plane.buffers =
        [frame].filterMap fun frame => exchanged ⟨0, 0, frame⟩ := by
      simp only [Line.facing, Line.outcome, List.map_cons, List.map_nil, List.filterMap_cons,
        List.filterMap_nil, looks]
      rfl
    rw [line, Line.outcome_append, before, List.filterMap_append, ← last, ← List.append_assoc]
    exact running.order.append ((few.map _).filterMap _)

/-- Packets taken off the wire were the first in line. -/
theorem Running.drain (running : w.Running) {limit : Nat} {packets : List Packet}
    (drained : w.plane.onDevice w.ends.device (·.drainTx txPort limit) = .ok (packets, plane)) :
    ({ w.setPlane plane with
        taken := w.taken ++ packets.map plane.buffers.capture
        held := w.held ++ packets } : Wired).Running := by
  -- The packets leave the last place, and are handed on as they look there.
  rw [← running.sending.1, ← running.sending.2] at drained
  have pulled := Plane.drainTx_pulls running.opened drained
  obtain ⟨atRest, here, there⟩ := pulled.places running.atRest
  have buffers : plane.buffers = w.plane.buffers := congrArg Surroundings.buffers pulled.surroundings
  have lives : plane.lives = w.plane.lives := congrArg Surroundings.lives pulled.surroundings
  have others : ∀ other < 3,
      plane.contents (w.ends.place other) = w.plane.contents (w.ends.place other) := by
    intro other near
    refine there _ ?_
    match other with
    | 0 | 1 | 2 => exact Place.noConfusion
  have line := line_left here others
  obtain ⟨l, run, same, listed⟩ := running.owned
  refine running.congr rfl rfl lives pulled.opened atRest ?_ ?_
  · refine ⟨l, run, same.trans buffers.symm, ?_⟩
    show ((w.setPlane plane).line.packets ++ (w.held ++ packets)).Subperm l.packets
    rw [line, Line.packets_append, Line.packets_facing, List.append_assoc] at listed
    rw [← List.append_assoc]
    exact List.perm_append_comm.subperm.trans listed
  · show w.taken ++ packets.map plane.buffers.capture ++
      (w.setPlane plane).line.outcome plane.buffers <+ _
    -- Packets at the last place come out as they are.
    have out : (Line.facing some packets).outcome plane.buffers =
        packets.map plane.buffers.capture := by
      simp only [Line.outcome, Line.facing, List.filterMap_map]
      show packets.filterMap (some ∘ plane.buffers.capture) = _
      rw [List.filterMap_eq_map]
    have order := running.order
    rw [line, Line.outcome_append, ← buffers, out, ← List.append_assoc] at order
    exact order

/-- Packets given back were out of line already. -/
theorem Running.giveBack (running : w.Running) (count : Nat) :
    ({ w.setPlane (w.plane.releaseAll (w.held.take count)) with
        held := w.held.drop count } : Wired).Running := by
  -- Packets that were taken off the wire are not in line, so giving them back shows in none that is.
  let plane := w.plane.releaseAll (w.held.take count)
  have rings : w.plane.SameRings plane := Plane.SameRings.congr rfl rfl rfl
  have line : (w.setPlane plane).line = w.line := line_same rfl rfl rings
  obtain ⟨l, run, same, listed⟩ := running.owned
  have split : (w.line.packets ++ (w.held.take count ++ w.held.drop count)).Subperm l.packets := by
    rw [List.take_append_drop]
    exact listed
  obtain ⟨later, given, result, left⟩ := run.givenAll split
  have buffers : later.buffers = plane.buffers := by
    rw [result, same]
    rfl
  have looks : w.line.outcome plane.buffers = w.line.outcome w.plane.buffers := by
    apply Line.outcome_congr
    intro packet member
    have mine := listed.subset (List.mem_append_left _ member)
    rw [← buffers, result, ← same]
    exact run.capture_touches mine (l.buffers.releaseAll_touches _)
  refine running.congr rfl rfl rfl (fun place => congrArg Option.isSome (rings.places place))
    (rings.contents running.atRest).1 ⟨later, given, buffers, ?_⟩ ?_
  · show ((w.setPlane plane).line.packets ++ w.held.drop count).Subperm later.packets
    rw [line]
    exact left
  · show w.taken ++ (w.setPlane plane).line.outcome plane.buffers <+ _
    rw [line, looks]
    exact running.order

/-- A change of a device that leaves its rings keeps all packets in line. -/
theorem Running.onDevice (running : w.Running) {action : Device → Except Fault Device}
    (kept : ∀ d d', action d = .ok d' → ∀ port, d'.rings? port = d.rings? port)
    (done : w.plane.onDevice w.ends.device (fun d => (action d).map ((), ·)) = .ok ((), plane)) :
    (w.setPlane plane).Running := by
  -- Whether the action succeeds or not, the rings of every port are as before.
  have same : ∀ d d' result, (action d).map ((), ·) = .ok (result, d') →
      ∀ port, d'.rings? port = d.rings? port := by
    intro d d' result acted
    cases outcome : action d with
    | error fault => simp [outcome, Except.map] at acted
    | ok after =>
      simp only [outcome, Except.map, Except.ok.injEq, Prod.mk.injEq, true_and] at acted
      exact acted ▸ kept d after outcome
  obtain ⟨surroundings, rings⟩ := Plane.onDevice_same same done
  exact running.setPlane rings (congrArg Surroundings.buffers surroundings)
    (congrArg Surroundings.lives surroundings)

/-- Every move keeps all packets in line. -/
theorem Running.after (running : w.Running) (move : Move) : (w.after move).Running := by
  -- By cases on the move, and one that is refused leaves everything as it was.
  cases move with
  | inject frame =>
    simp only [Wired.after]
    split
    · exact running
    · -- A frame that was lost is not delivered, and one that was received comes last.
      rename_i lost
      exact running.inject_false lost
    · rename_i received
      exact running.inject_true received
  | poll stage => exact running.poll stage
  | drain limit =>
    simp only [Wired.after]
    split
    · exact running
    · rename_i drained
      exact running.drain drained
  | giveBack count => exact running.giveBack count
  | setLink device up =>
    simp only [Wired.after]
    split
    · exact running
    · rename_i done
      exact running.onDevice (fun _ _ => Device.rings?_setLink) done
  | setBudget id budget =>
    simp only [Wired.after]
    split
    · exact running
    · rename_i done
      exact running.onDevice (fun _ _ => Device.rings?_setBudget) done
  | advance clock cycles =>
    exact running.setPlane (Plane.SameRings.congr rfl rfl rfl) rfl rfl

/-- So do any number of moves. -/
theorem Running.foldl (running : w.Running) (moves : List Move) :
    (moves.foldl Wired.after w).Running := by
  -- One move follows the other.
  induction moves generalizing w with
  | nil => exact running
  | cons move rest ih => exact ih (running.after move)

end Wires

end Wired

end PacketPlane.Forward
