import PacketPlane.Proofs.Buffer.Frames
import PacketPlane.Proofs.Worker.Course

/-! Conveyors: packets on their way through a worker keep their order, and those that come through
look as its treatment says, whatever the output accepts and the worker gives up. -/

namespace PacketPlane

open scoped List

/-- What becomes of a packet until it comes out, judged by what it looks like now. A packet that is
going to be dropped does not come out. -/
abbrev Prospect := Captured → Option Captured

/-- Packets on their way, the next one to come out first, each with what becomes of it. -/
abbrev Line := List (Packet × Prospect)

namespace Line

/-- Packets of which the same becomes. -/
def facing (prospect : Prospect) (packets : List Packet) : Line :=
  packets.map (·, prospect)

/-- The packets of a line. -/
def packets (line : Line) : List Packet :=
  line.map Prod.fst

/-- What comes out of a line when nothing more is lost. -/
def outcome (line : Line) (b : Buffers) : List Captured :=
  -- Each packet is judged by what it looks like at this moment.
  line.filterMap fun entry => entry.2 (b.capture entry.1)

variable {b after : Buffers} {prospect : Prospect}

/-- The packets of two lines follow each other. -/
@[simp] theorem packets_append (line more : Line) :
    packets (line ++ more) = line.packets ++ more.packets :=
  List.map_append

/-- The packets that face the same are those of their line. -/
@[simp] theorem packets_facing (prospect : Prospect) (packets : List Packet) :
    (facing prospect packets).packets = packets := by
  -- What a packet faces is added to it and taken off again.
  simp only [facing, Line.packets, List.map_map]
  exact List.map_id packets

/-- What comes out of two lines comes out of the first before the second. -/
@[simp] theorem outcome_append (line more : Line) (b : Buffers) :
    outcome (line ++ more) b = line.outcome b ++ more.outcome b :=
  List.filterMap_append

/-- Packets that face the same may be split anywhere. -/
@[simp] theorem facing_append (prospect : Prospect) (packets more : List Packet) :
    facing prospect (packets ++ more) = facing prospect packets ++ facing prospect more :=
  List.map_append

/-- What comes out of a line depends on its own packets alone. -/
theorem outcome_congr {line : Line}
    (same : ∀ packet ∈ line.packets, after.capture packet = b.capture packet) :
    line.outcome after = line.outcome b := by
  -- Each entry comes out as its packet looks.
  apply List.filterMap_congr
  intro entry member
  rw [same entry.1 (List.mem_map_of_mem member)]

/-- A line whose packets are live references, beside those of others. -/
def Owned (line : Line) (b : Buffers) (others : List Packet) : Prop :=
  ∃ l : Ledger, l.Reachable ∧ l.buffers = b ∧ (line.packets ++ others).Subperm l.packets

/-- What was treated in the middle of a line comes out between what comes before and behind it. -/
theorem outcome_between {before middle middle' rest : Line}
    (kept : ∀ packet ∈ before.packets ++ rest.packets, after.capture packet = b.capture packet)
    (order : middle'.outcome after <+ middle.outcome b) :
    outcome (before ++ middle' ++ rest) after <+ outcome (before ++ middle ++ rest) b := by
  -- What is before and behind the middle is not treated, and comes out as before.
  have front : before.outcome after = before.outcome b := outcome_congr fun packet member =>
    kept packet (List.mem_append_left _ member)
  have back : rest.outcome after = rest.outcome b := outcome_congr fun packet member =>
    kept packet (List.mem_append_right _ member)
  rw [outcome_append, outcome_append, outcome_append, outcome_append, front, back]
  exact ((List.Sublist.refl _).append order).append (List.Sublist.refl _)

/-- What comes out of a line stays the same when its first untreated packet is treated as it faces. -/
theorem outcome_turned {inward outward : Prospect} {done rest : List Packet} {packet : Packet}
    (kept : ∀ other ∈ done ++ rest, after.capture other = b.capture other)
    (turned : outward (after.capture packet) = inward (b.capture packet)) :
    outcome (facing outward (done ++ [packet]) ++ facing inward rest) after =
      outcome (facing outward done ++ facing inward (packet :: rest)) b := by
  -- The treated packet comes out as it was going to, and the packets around it are as before.
  have same : ∀ (prospect : Prospect) (packets : List Packet),
      (∀ other ∈ packets, other ∈ done ++ rest) →
        (facing prospect packets).outcome after = (facing prospect packets).outcome b := by
    intro prospect packets among
    apply outcome_congr
    intro other member
    rw [packets_facing] at member
    exact kept other (among other member)
  have front := same outward done fun other member => List.mem_append_left _ member
  have back := same inward rest fun other member => List.mem_append_right _ member
  have one : (facing outward [packet]).outcome after = (facing inward [packet]).outcome b := by
    simp only [facing, outcome, List.map_cons, List.map_nil, List.filterMap_cons,
      List.filterMap_nil, turned]
  have first : facing inward (packet :: rest) = facing inward [packet] ++ facing inward rest := rfl
  rw [facing_append, first, outcome_append, outcome_append, outcome_append, outcome_append, front,
    one, back, List.append_assoc]

end Line

/-- A treatment after which a packet that is let through has the prospect that it had before. -/
def Treatment.Turns (treat : Treatment σ) (inward outward : Prospect) : Prop :=
  ∀ packet memory (b : Buffers), (treat packet memory b).1 = true →
    outward ((b.performAll packet (treat packet memory b).2.2).capture packet) =
      inward (b.capture packet)

/-- A worker without a tap shows packets to nobody. -/
theorem Worker.capturePacket_untapped {w : Worker σ} (untapped : w.capture = none) (packet : Packet)
    (p : Plane) : w.capturePacket packet p = (w, p) := by
  rw [capturePacket, untapped]

/-- What an attempt hands over is put on the output, and the rest waits in its order. -/
theorem Backlog.tryFlush_puts {b b' : Backlog} {p p' : Plane} {target : Target} {outcome : Outcome}
    (tried : b.tryFlush target.sender p = (outcome, b', p')) :
    ∃ accepted, b.pending = accepted ++ b'.pending ∧ p.Puts p' target.place accepted := by
  -- Nothing is handed over from an empty backlog, and otherwise the front is.
  rw [tryFlush] at tried
  split at tried
  · cases tried
    exact ⟨[], rfl, Plane.Puts.refl p _⟩
  · obtain ⟨rest, -, put⟩ := target.sender_puts p b.pending
    cases tried
    refine ⟨_, ?_, put⟩
    rw [rest, List.take_append_drop]

namespace Desk

variable {σ : Type} {treat : Treatment σ} {inward outward : Prospect} {others : List Packet}

/-- The packets on a worker's way from its input to its output. Those that it has processed face what
comes behind it, and the others what it is going to do with them. -/
def belt (inward outward : Prospect) (d : Desk σ) : Line :=
  -- The packets on the output are the oldest.
  Line.facing outward (d.sent ++ d.worker.backlog.pending) ++ Line.facing inward d.coming

/-- A worker between two places whose processor treats packets alone, and whose packets are live
references beside those of others. -/
structure Steady (treat : Treatment σ) (others : List Packet) (d : Desk σ) : Prop where
  treats : d.worker.process.Treats treat
  untapped : d.worker.capture = none
  output : ∃ target, d.worker.target? = some target ∧ target.place ≠ d.worker.input.place
  atRest : d.plane.AtRest
  held : ∃ l : Ledger, l.Reachable ∧ l.buffers = d.plane.buffers ∧
    (d.sent ++ d.worker.backlog.pending ++ (d.coming ++ others)).Subperm l.packets

/-- Work that keeps packets in their order and changes nothing that belongs to others. -/
structure Conveys (inward outward : Prospect) (others : List Packet) (a b : Desk σ) : Prop where
  fixed : b.worker.fixture = a.worker.fixture
  order : (b.belt inward outward).outcome b.plane.buffers <+
    (a.belt inward outward).outcome a.plane.buffers
  kept : ∀ packet ∈ others, b.plane.buffers.capture packet = a.plane.buffers.capture packet
  opened : ∀ place, (b.plane.ringAt? place).isSome = (a.plane.ringAt? place).isSome
  elsewhere : ∀ place, (∀ number, place ≠ .tap number) → place ≠ a.worker.input.place →
    a.worker.target?.map Target.place ≠ some place → b.plane.contents place = a.plane.contents place

/-- Doing nothing keeps packets in their order. -/
theorem Conveys.refl (d : Desk σ) : Conveys inward outward others d d :=
  ⟨rfl, List.Sublist.refl _, fun _ _ => rfl, fun _ => rfl, fun _ _ _ _ => rfl⟩

/-- One stretch of work after another. -/
theorem Conveys.trans {a b c : Desk σ} (first : Conveys inward outward others a b)
    (second : Conveys inward outward others b c) : Conveys inward outward others a c where
  -- What comes out is a part of a part, and all else is kept twice.
  fixed := second.fixed.trans first.fixed
  order := second.order.trans first.order
  kept packet member := (second.kept packet member).trans (first.kept packet member)
  opened place := (second.opened place).trans (first.opened place)
  elsewhere place untapped input output := by
    have same : b.worker.input = a.worker.input := congrArg Fixture.input first.fixed
    have target := Worker.target?_eq first.fixed
    exact (second.elsewhere place untapped (same ▸ input) (target ▸ output)).trans
      (first.elsewhere place untapped input output)

section Strokes

variable {w w' : Worker σ} {p p' : Plane} {packet : Packet} {hand rest : List Packet}
  {tally tally' : Tally} {a b : Desk σ}

/-- The packets of a belt come before those of others. -/
theorem packets_belt (d : Desk σ) : (d.belt inward outward).packets =
    d.sent ++ d.worker.backlog.pending ++ d.coming := by
  -- The three parts of the belt have their packets in this order.
  simp [belt]

/-- Work that moves packets along without looking at them keeps them in their order. -/
theorem Steady.moved (steady : Steady treat others a) (fixed : b.worker.fixture = a.worker.fixture)
    (atRest : b.plane.AtRest) (buffers : b.plane.buffers = a.plane.buffers)
    (gone : b.sent ++ b.worker.backlog.pending = a.sent ++ a.worker.backlog.pending)
    (coming : b.coming = a.coming)
    (opened : ∀ place, (b.plane.ringAt? place).isSome = (a.plane.ringAt? place).isSome)
    (elsewhere : ∀ place, (∀ number, place ≠ .tap number) → place ≠ a.worker.input.place →
      a.worker.target?.map Target.place ≠ some place →
        b.plane.contents place = a.plane.contents place) :
    Steady treat others b ∧ Conveys inward outward others a b := by
  -- The packets are the same in the same order, wherever each of them is now.
  have target := Worker.target?_eq fixed
  have input : b.worker.input = a.worker.input := congrArg Fixture.input fixed
  have process : b.worker.process = a.worker.process := congrArg Fixture.process fixed
  have capture : b.worker.capture = a.worker.capture := congrArg Fixture.capture fixed
  refine ⟨⟨?_, ?_, ?_, atRest, ?_⟩, fixed, ?_, ?_, opened, elsewhere⟩
  · rw [process]
    exact steady.treats
  · rw [capture]
    exact steady.untapped
  · rw [target, input]
    exact steady.output
  · rw [buffers, gone, coming]
    exact steady.held
  · rw [belt, belt, gone, coming, buffers]
  · intro packet _
    rw [buffers]

/-- A worker that only notes something moves no packet. -/
theorem Steady.note (steady : Steady treat others ⟨w, p, hand, tally⟩)
    (fixed : w'.fixture = w.fixture) (pending : w'.backlog.pending = w.backlog.pending)
    (alike : p.Alike p') :
    Steady treat others ⟨w', p', hand, tally⟩ ∧
      Conveys inward outward others ⟨w, p, hand, tally⟩ ⟨w', p', hand, tally⟩ := by
  -- Rings, devices and taps stay, so every packet is where it was.
  have rings : Plane.SameRings p p' := Plane.SameRings.congr alike.rings alike.devices alike.taps
  obtain ⟨atRest, contents⟩ := rings.contents steady.atRest
  have input : w'.input = w.input := congrArg Fixture.input fixed
  have sent : (⟨w', p', hand, tally⟩ : Desk σ).sent = (⟨w, p, hand, tally⟩ : Desk σ).sent :=
    sent_congr fixed alike.rings alike.devices
  refine steady.moved fixed atRest alike.buffers ?_ ?_ ?_ fun place _ _ _ => contents place
  · simp only [sent, pending]
  · simp only [coming, input, contents]
  · intro place
    simp only [rings.places]

/-- A worker that counts what came of packets moves none. -/
theorem Steady.settle (steady : Steady treat others ⟨w, p, [], tally⟩) :
    Steady treat others ⟨w.recordTally tally, p, [], {}⟩ ∧
      Conveys inward outward others ⟨w, p, [], tally⟩ ⟨w.recordTally tally, p, [], {}⟩ := by
  -- Only counters change.
  rw [w.recordTally_eq tally]
  exact steady.moved rfl steady.atRest rfl rfl rfl (fun _ => rfl) fun _ _ _ _ => rfl

/-- A worker that fetches packets has them in hand before those still on its input. -/
theorem Steady.take {packets : List Packet} {counters : Counters}
    (steady : Steady treat others ⟨w, p, [], tally⟩)
    (fetched : p.Fetches p' w.input.place packets) :
    Steady treat others ⟨{ w with counters }, p', packets, tally⟩ ∧
      Conveys inward outward others ⟨w, p, [], tally⟩ ⟨{ w with counters }, p', packets, tally⟩ := by
  -- What is fetched was the front of the input, and is in front of it now.
  obtain ⟨atRest, here, there⟩ := fetched.places steady.atRest
  obtain ⟨target, output, apart⟩ := steady.output
  have output : w.target? = some target := output
  have sent : (⟨{ w with counters }, p', packets, tally⟩ : Desk σ).sent =
      (⟨w, p, [], tally⟩ : Desk σ).sent := by
    show (w.target?.map fun target => p'.contents target.place).getD [] =
      (w.target?.map fun target => p.contents target.place).getD []
    rw [output]
    exact there target.place apart
  refine steady.moved rfl atRest (congrArg Surroundings.buffers fetched.surroundings) ?_ here.symm
    fetched.opened fun place _ input _ => there place input
  exact congrArg (· ++ w.backlog.pending) sent

/-- A worker that offers what waits puts some of it behind the packets on its output. -/
theorem Steady.offer {target : Target} {outcome : Outcome} {backlog : Backlog}
    (steady : Steady treat others ⟨w, p, hand, tally⟩) (output : w.target? = some target)
    (fixed : ({ w with backlog } : Worker σ).fixture = w.fixture)
    (tried : w.backlog.tryFlush target.sender p = (outcome, backlog, p')) :
    Steady treat others ⟨{ w with backlog }, p', hand, tally'⟩ ∧
      Conveys inward outward others ⟨w, p, hand, tally⟩ ⟨{ w with backlog }, p', hand, tally'⟩ := by
  -- What is accepted was the front of the backlog, and is behind what the output had.
  obtain ⟨accepted, split, put⟩ := Backlog.tryFlush_puts tried
  obtain ⟨atRest, here, there⟩ := put.places steady.atRest
  obtain ⟨other, known, apart⟩ := steady.output
  obtain rfl : target = other := Option.some.inj (output.symm.trans known)
  have before : (⟨w, p, hand, tally⟩ : Desk σ).sent = p.contents target.place := by
    rw [sent, output]
    rfl
  have after : (⟨{ w with backlog }, p', hand, tally'⟩ : Desk σ).sent =
      p'.contents target.place := by
    have same : ({ w with backlog } : Worker σ).target? = some target := output
    rw [sent, same]
    rfl
  refine steady.moved fixed atRest (congrArg Surroundings.buffers put.surroundings) ?_ ?_
    put.opened ?_
  · show _ ++ backlog.pending = _ ++ w.backlog.pending
    rw [before, after, here, split, List.append_assoc]
  · exact congrArg (hand ++ ·) (there w.input.place (Ne.symm apart))
  · intro place _ _ away
    apply there
    rintro rfl
    exact away (congrArg (Option.map Target.place) output)

/-- The packets on the output stay there when rings and devices stay. -/
theorem sent_same (fixed : b.worker.fixture = a.worker.fixture) (rings : a.plane.SameRings b.plane) :
    b.sent = a.sent ∧ b.plane.contents b.worker.input.place =
      a.plane.contents a.worker.input.place := by
  -- Both ends are part of the fixture, and every place has its ring.
  have input : b.worker.input = a.worker.input := congrArg Fixture.input fixed
  have contents : ∀ place, b.plane.contents place = a.plane.contents place := by
    intro place
    rw [Plane.contents, Plane.contents, rings.places]
  constructor
  · simp only [sent, Worker.target?_eq fixed, contents]
  · rw [input, contents]

/-- Work that changes packets but no ring keeps those in their order that it does not give back. -/
theorem Steady.worked (steady : Steady treat others a) (fixed : b.worker.fixture = a.worker.fixture)
    (rings : a.plane.SameRings b.plane) {l : Ledger} (run : l.Reachable)
    (same : l.buffers = b.plane.buffers)
    (owned : (b.sent ++ b.worker.backlog.pending ++ (b.coming ++ others)).Subperm l.packets)
    (order : (b.belt inward outward).outcome b.plane.buffers <+
      (a.belt inward outward).outcome a.plane.buffers)
    (kept : ∀ packet ∈ others, b.plane.buffers.capture packet = a.plane.buffers.capture packet) :
    Steady treat others b ∧ Conveys inward outward others a b := by
  -- The fixture keeps what the worker is, and the order that is asked for is given.
  have target := Worker.target?_eq fixed
  have input : b.worker.input = a.worker.input := congrArg Fixture.input fixed
  have process : b.worker.process = a.worker.process := congrArg Fixture.process fixed
  have capture : b.worker.capture = a.worker.capture := congrArg Fixture.capture fixed
  obtain ⟨atRest, contents⟩ := rings.contents steady.atRest
  refine ⟨⟨?_, ?_, ?_, atRest, l, run, same, owned⟩, fixed, order, kept, ?_,
    fun place _ _ _ => contents place⟩
  · rw [process]
    exact steady.treats
  · rw [capture]
    exact steady.untapped
  · rw [target, input]
    exact steady.output
  · intro place
    rw [rings.places]

/-- Work that loses packets, but does not change those that stay, keeps these in their order. -/
theorem Steady.fewer (steady : Steady treat others a) (fixed : b.worker.fixture = a.worker.fixture)
    (rings : a.plane.SameRings b.plane) {l : Ledger} (run : l.Reachable)
    (same : l.buffers = b.plane.buffers)
    (owned : (b.sent ++ b.worker.backlog.pending ++ (b.coming ++ others)).Subperm l.packets)
    (fewer : b.belt inward outward <+ a.belt inward outward)
    (captures : ∀ packet ∈ b.sent ++ b.worker.backlog.pending ++ (b.coming ++ others),
      b.plane.buffers.capture packet = a.plane.buffers.capture packet) :
    Steady treat others b ∧ Conveys inward outward others a b := by
  -- What stays looks as before, so the shorter belt comes out as a part of the longer one.
  rw [← List.append_assoc] at captures
  refine steady.worked fixed rings run same owned ?_ ?_
  · rw [Line.outcome_congr (b := a.plane.buffers)]
    · exact fewer.filterMap _
    · intro packet member
      rw [packets_belt] at member
      exact captures packet (List.mem_append_left _ member)
  · intro packet member
    exact captures packet (List.mem_append_right _ member)

/-- A worker that gives up what waits keeps the others in their order. -/
theorem Steady.giveUp (steady : Steady treat others ⟨w, p, hand, tally⟩) :
    let after : Desk σ := ⟨{ w with backlog := { w.backlog with pending := [] } },
      p.releaseAll w.backlog.pending, hand, tally'⟩
    Steady treat others after ∧ Conveys inward outward others ⟨w, p, hand, tally⟩ after := by
  -- The packets are on record, so releasing them shows in none that is left.
  intro after
  obtain ⟨l, run, same, owned⟩ := steady.held
  rw [List.append_assoc] at owned
  obtain ⟨later, given, result, left⟩ := run.givenAll owned
  have same : l.buffers = p.buffers := same
  have buffers : later.buffers = after.plane.buffers := by
    rw [result, same]
    rfl
  have rings : Plane.SameRings p after.plane := Plane.SameRings.congr rfl rfl rfl
  obtain ⟨sent, waiting⟩ := sent_same (a := ⟨w, p, hand, tally⟩) (b := after) rfl rings
  have coming : after.coming = (⟨w, p, hand, tally⟩ : Desk σ).coming := congrArg (hand ++ ·) waiting
  have rest : after.sent ++ after.worker.backlog.pending ++ (after.coming ++ others) =
      (⟨w, p, hand, tally⟩ : Desk σ).sent ++ ((⟨w, p, hand, tally⟩ : Desk σ).coming ++ others) := by
    rw [sent, coming]
    exact congrArg (· ++ _) (List.append_nil _)
  refine steady.fewer rfl rings given buffers (rest ▸ left) ?_ ?_
  · rw [belt, belt, sent, coming]
    refine List.Sublist.append (List.Sublist.map _ ?_) (List.Sublist.refl _)
    exact (List.nil_sublist _).append_left _
  · intro packet member
    rw [rest] at member
    have listed := owned.subset (((List.sublist_append_right _ _).append_left _).subset member)
    rw [← buffers, result, run.capture_touches listed (l.buffers.releaseAll_touches _), same]

/-- What a processor did with the packet under work leaves all others as they were. -/
theorem Steady.decided (steady : Steady treat others ⟨w, p, packet :: rest, tally⟩)
    {context : Context} {decision : Decision σ}
    (decided : w.process context packet w.memory p.toSurroundings = decision) :
    let before := (⟨w, p, packet :: rest, tally⟩ : Desk σ).sent ++ w.backlog.pending
    let after := rest ++ p.contents w.input.place ++ others
    ∃ l : Ledger, l.Reachable ∧ l.buffers = decision.surroundings.buffers ∧
      (before ++ packet :: after).Subperm l.packets ∧
      (∀ other ∈ before ++ after, other ∈ l.packets ∧
        decision.surroundings.buffers.capture other = p.buffers.capture other) ∧
      decision.surroundings.buffers =
        p.buffers.performAll packet (treat packet w.memory p.buffers).2.2 := by
  -- The packet under work is on record, so what is done to it shows in none of the others.
  intro before after
  obtain ⟨-, -, buffers⟩ := steady.treats context packet w.memory p.toSurroundings
  obtain ⟨l, run, same, owned⟩ := steady.held
  have same : l.buffers = p.buffers := same
  have owned : (before ++ packet :: after).Subperm l.packets := owned
  obtain ⟨edited, faces⟩ := run.edited owned (treat packet w.memory p.buffers).2.2
  subst decided
  refine ⟨_, edited, ?_, owned, ?_, buffers⟩
  · show l.buffers.performAll packet _ = _
    rw [same]
    exact buffers.symm
  · intro other member
    obtain ⟨listed, face⟩ := faces other member
    refine ⟨listed, ?_⟩
    have seen := Buffers.capture_congr run.fits edited.fits face
    rw [same] at seen
    exact (congrArg (Buffers.capture · other) buffers).trans seen

/-- A worker that drops the packet under work keeps the others in their order. -/
theorem Steady.drop (steady : Steady treat others ⟨w, p, packet :: rest, tally⟩)
    {context : Context} {decision : Decision σ}
    (decided : w.process context packet w.memory p.toSurroundings = decision) :
    let after : Desk σ := ⟨{ w with memory := decision.memory },
      ({ p with toSurroundings := decision.surroundings } : Plane).mapBuffers (·.release packet),
      rest, tally'⟩
    Steady treat others after ∧
      Conveys inward outward others ⟨w, p, packet :: rest, tally⟩ after := by
  -- The packet is edited and then given back, neither of which shows in the others.
  intro after
  obtain ⟨l, run, same, owned, captures, -⟩ := steady.decided decided
  obtain ⟨given, left, -⟩ := run.given owned
  have buffers : (l.call (.drop packet)).buffers = after.plane.buffers := by
    show l.buffers.release packet = _
    rw [same]
    rfl
  have rings : Plane.SameRings p after.plane := Plane.SameRings.congr rfl rfl rfl
  obtain ⟨sent, waiting⟩ := sent_same (a := ⟨w, p, packet :: rest, tally⟩) (b := after) rfl rings
  have coming : after.coming = rest ++ p.contents w.input.place := congrArg (rest ++ ·) waiting
  refine steady.fewer rfl rings given buffers ?_ ?_ ?_
  · rw [sent, coming]
    exact left
  · rw [belt, belt, sent, coming]
    exact List.Sublist.append (List.Sublist.refl _) ((List.sublist_cons_self _ _).map _)
  · intro other member
    rw [sent, coming] at member
    obtain ⟨listed, seen⟩ := captures other member
    have released : (l.buffers.release packet).capture other = l.buffers.capture other :=
      run.capture_touches listed (l.buffers.release_touches packet)
    rw [same] at released
    exact released.trans seen

/-- A worker that lets the packet under work through has it wait behind the others. -/
theorem Steady.forward (steady : Steady treat others ⟨w, p, packet :: rest, tally⟩)
    (turns : treat.Turns inward outward) {context : Context} {decision : Decision σ}
    (decided : w.process context packet w.memory p.toSurroundings = decision)
    (verdict : decision.verdict = .forward)
    (shown : ({ w with memory := decision.memory } : Worker σ).capturePacket packet
      { p with toSurroundings := decision.surroundings } = (w', p')) :
    let after : Desk σ :=
      ⟨{ w' with backlog := { w'.backlog with pending := w'.backlog.pending ++ [packet] } }, p', rest,
        tally⟩
    Steady treat others after ∧
      Conveys inward outward others ⟨w, p, packet :: rest, tally⟩ after := by
  -- The packet goes from the hand to the backlog, looking as it was going to.
  intro after
  have untapped : ({ w with memory := decision.memory } : Worker σ).capture = none :=
    steady.untapped
  rw [Worker.capturePacket_untapped untapped, Prod.mk.injEq] at shown
  obtain ⟨rfl, rfl⟩ := shown
  obtain ⟨l, run, same, owned, captures, buffers⟩ := steady.decided decided
  have turned := turns packet w.memory p.buffers (steady.treats.through decided verdict)
  rw [← buffers] at turned
  have rings : Plane.SameRings p after.plane := Plane.SameRings.congr rfl rfl rfl
  obtain ⟨sent, waiting⟩ := sent_same (a := ⟨w, p, packet :: rest, tally⟩) (b := after) rfl rings
  have coming : after.coming = rest ++ p.contents w.input.place := congrArg (rest ++ ·) waiting
  let processed := (⟨w, p, packet :: rest, tally⟩ : Desk σ).sent ++ w.backlog.pending
  -- The packet is now the last of those processed.
  have moved : after.sent ++ after.worker.backlog.pending = processed ++ [packet] := by
    rw [sent]
    exact (List.append_assoc ..).symm
  refine steady.worked rfl rings run same ?_ ?_ ?_
  · rw [moved, coming, List.append_assoc]
    exact owned
  · -- Processing a packet shows in no other one.
    have kept : ∀ other ∈ processed ++ (rest ++ p.contents w.input.place),
        decision.surroundings.buffers.capture other = p.buffers.capture other := by
      intro other member
      refine (captures other ?_).2
      rw [← List.append_assoc]
      exact List.mem_append_left _ member
    show (belt inward outward after).outcome decision.surroundings.buffers <+ _
    rw [belt, moved, coming, Line.outcome_turned kept turned]
    exact List.Sublist.refl _
  · intro other member
    exact (captures other (List.mem_append_right _ (List.mem_append_right _ member))).2

/-- Every stroke of a worker keeps packets in their order, and leaves others alone. -/
theorem Steady.stroke (steady : Steady treat others a) (turns : treat.Turns inward outward)
    {loses : Bool} (stroke : Stroke loses a b) :
    Steady treat others b ∧ Conveys inward outward others a b := by
  -- By cases on the stroke, each of which has its own lemma.
  have kept := Worker.Stroke.fixed stroke
  cases stroke with
  | note fixed memory pending counters alike => exact steady.note fixed pending alike
  | take fetched => exact steady.take fetched
  | drop context decided verdict => exact steady.drop decided
  | forward context decided verdict output shown =>
    exact steady.forward turns decided verdict shown
  | deliver context decided verdict none shown =>
    obtain ⟨target, output, -⟩ := steady.output
    have output : _ = some target := output
    rw [none] at output
    cases output
  | offer output tried => exact steady.offer output kept tried
  | giveUp => exact steady.giveUp
  | settle => exact steady.settle

/-- So do any number of strokes. -/
theorem Steady.strokes (steady : Steady treat others a) (turns : treat.Turns inward outward)
    {loses : Bool} (strokes : Strokes loses a b) :
    Steady treat others b ∧ Conveys inward outward others a b := by
  -- One stroke follows the other.
  induction strokes with
  | refl => exact ⟨steady, Conveys.refl a⟩
  | tail _ stroke ih =>
    obtain ⟨before, conveyed⟩ := ih
    obtain ⟨after, one⟩ := before.stroke turns stroke
    exact ⟨after, conveyed.trans one⟩

/-- A turn of a worker does not crash, keeps packets in their order, and leaves others alone. -/
theorem Steady.turn (steady : Steady treat others ⟨w, p, [], {}⟩)
    (turns : treat.Turns inward outward) :
    let after : Desk σ := ⟨(w.turn p).worker, (w.turn p).plane, [], {}⟩
    (w.turn p).crashed = false ∧ Steady treat others after ∧
      Conveys inward outward others ⟨w, p, [], {}⟩ after := by
  -- A turn is made of strokes, and its processor survives.
  intro after
  have alive := w.turn_alive p steady.treats.survives
  refine ⟨alive, ?_⟩
  obtain ⟨w', q, began, pulled, strokes, same⟩ := w.turn_strokes true p alive
  obtain ⟨target, output, -⟩ := steady.output
  have output : w'.target? = some target :=
    (Worker.target?_eq (Worker.Strokes.fixed strokes)).trans output
  have finished := (strokes.trans (w'.push_strokes output q (.inl rfl))).trans
    (w'.finishTurn_strokes began pulled q)
  rw [← same] at finished
  exact steady.strokes turns finished

end Strokes

section Between

variable {before rest : Line} {d : Desk σ}

/-- The packets of a longer line, with those of the belt in its middle first. -/
theorem packets_between (before rest : Line) (others : List Packet) (d : Desk σ) :
    (d.sent ++ d.worker.backlog.pending ++ (d.coming ++
        (before.packets ++ rest.packets ++ others))) ~
      Line.packets (before ++ d.belt inward outward ++ rest) ++ others := by
  -- The parts of the line are the same, and only their order differs.
  rw [Line.packets_append, Line.packets_append, packets_belt, ← List.append_assoc]
  calc d.sent ++ d.worker.backlog.pending ++ d.coming ++ (before.packets ++ rest.packets ++ others)
      = d.sent ++ d.worker.backlog.pending ++ d.coming ++ before.packets ++
          (rest.packets ++ others) := by simp only [List.append_assoc]
    _ ~ before.packets ++ (d.sent ++ d.worker.backlog.pending ++ d.coming) ++
          (rest.packets ++ others) := List.perm_append_comm.append_right _
    _ = _ := by simp only [List.append_assoc]

/-- A worker in the middle of a longer line may be steady beside all packets around it. -/
theorem Steady.of_owned (treats : d.worker.process.Treats treat)
    (untapped : d.worker.capture = none)
    (output : ∃ target, d.worker.target? = some target ∧ target.place ≠ d.worker.input.place)
    (atRest : d.plane.AtRest)
    (owned : Line.Owned (before ++ d.belt inward outward ++ rest) d.plane.buffers others) :
    Steady treat (before.packets ++ rest.packets ++ others) d := by
  -- Everybody else's packets are counted among the others.
  obtain ⟨l, run, same, listed⟩ := owned
  exact ⟨treats, untapped, output, atRest, l, run, same,
    (packets_between before rest others d).subperm.trans listed⟩

/-- The packets of a longer line stay live references when a worker in its middle stays steady. -/
theorem Steady.owned (steady : Steady treat (before.packets ++ rest.packets ++ others) d) :
    Line.Owned (before ++ d.belt inward outward ++ rest) d.plane.buffers others := by
  -- Everybody else's packets were counted among the others.
  obtain ⟨l, run, same, listed⟩ := steady.held
  exact ⟨l, run, same, (packets_between before rest others d).symm.subperm.trans listed⟩

end Between

end Desk

end PacketPlane
