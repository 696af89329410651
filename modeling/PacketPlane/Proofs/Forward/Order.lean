import Mathlib.Tactic
import PacketPlane.Proofs.Fleet.Reachable
import PacketPlane.Proofs.Forward.Wired

/-! Order of forwarding: what comes out of a started pipeline is what went in, in the same order and
with its addresses exchanged, less what was lost on the way. -/

namespace PacketPlane

/-- A computation that succeeds after another one. -/
theorem of_bind_ok {ε α β : Type} {first : Except ε α} {next : α → Except ε β} {result : β}
    (done : first >>= next = .ok result) : ∃ value, first = .ok value ∧ next value = .ok result := by
  cases first with
  | error fault => cases done
  | ok value => exact ⟨value, rfl, done⟩

namespace Device

/-- A queue that was opened has empty rings of its own. -/
theorem openPort_ok {d d' : Device} {id : PortId} {number rxDescriptors txDescriptors : Nat}
    {port : Port} (opened : d.openPort number id rxDescriptors txDescriptors = .ok (port, d')) :
    ∃ rings : QueueRings, rings.rx.Holds [] ∧ rings.tx.Holds [] ∧
      (port.device = number ∧ port.id = id) ∧ d'.rings? port = some rings ∧
      ∀ (other : Port) (r : QueueRings), d'.rings? other = some r →
        r = rings ∨ d.rings? other = some r := by
  -- Another port finds rings that were there before, or the new ones.
  obtain ⟨nic, queue, rings, found, -, rx, tx, rfl, rfl⟩ := openPort_cases opened
  let after : Queue := { queue with rings := some rings, openings := rings.opening }
  have now : after.rings = some rings := rfl
  obtain ⟨own, others⟩ := rings?_setQueue_cases found now
  exact ⟨rings, rx, tx, ⟨rfl, rfl⟩, own number, others⟩

end Device

/-- A plane on which nothing waits anywhere. -/
def Plane.Vacant (p : Plane) : Prop :=
  -- There may be rings, but they are empty.
  ∀ place r, p.ringAt? place = some r → r.Holds []

namespace Plane

variable {p q : Plane}

/-- Nothing waits at any place of a vacant plane. -/
theorem Vacant.contents (vacant : p.Vacant) (place : Place) : p.contents place = [] := by
  -- A place without ring has nothing on it either.
  cases found : p.ringAt? place with
  | none => rw [Plane.contents, found, Option.map_none, Option.getD_none]
  | some r => exact contents_eq found (vacant place r found)

/-- A vacant plane is at rest. -/
theorem Vacant.atRest (vacant : p.Vacant) : p.AtRest :=
  fun place r found => ⟨[], vacant place r found⟩

/-- An empty ring may be added to a vacant plane. -/
theorem Vacant.addRing (vacant : p.Vacant) {r : Ring Packet} (empty : r.Holds []) :
    (p.addRing r).2.Vacant := by
  -- By cases on the place: the new ring is empty, and the others were there before.
  intro place ring found
  cases place with
  | ring number =>
    simp only [ringAt?, ring?, Plane.addRing, Array.getElem?_push] at found
    split at found
    · cases found
      exact empty
    · exact vacant (.ring number) ring found
  | received port => exact vacant (.received port) ring found
  | sending port => exact vacant (.sending port) ring found
  | tap number => exact vacant (.tap number) ring found

/-- A plane stays vacant when only its devices change, and all rings of a queue are empty or were
there before. -/
theorem Vacant.devices (vacant : p.Vacant) (rings : q.rings = p.rings) (taps : q.taps = p.taps)
    (queues : ∀ (port : Port) (held : QueueRings),
      (q.device? port.device).bind (·.rings? port) = some held →
        held.rx.Holds [] ∧ held.tx.Holds [] ∨
          (p.device? port.device).bind (·.rings? port) = some held) : q.Vacant := by
  -- By cases on the place: rings and taps stay, and queues are empty by assumption.
  have empty : ∀ (port : Port) (held : QueueRings),
      (q.device? port.device).bind (·.rings? port) = some held →
        held.rx.Holds [] ∧ held.tx.Holds [] := by
    intro port held found
    obtain fresh | before := queues port held found
    · exact fresh
    · constructor
      · refine vacant (.received port) _ ?_
        rw [ringAt?, before, Option.map_some]
      · refine vacant (.sending port) _ ?_
        rw [ringAt?, before, Option.map_some]
  intro place r found
  cases place with
  | ring number =>
    rw [ringAt?, ring?, rings] at found
    exact vacant (.ring number) r found
  | tap number =>
    rw [ringAt?, tap?, taps] at found
    exact vacant (.tap number) r found
  | received port =>
    obtain ⟨held, there, rfl⟩ := Option.map_eq_some_iff.mp found
    exact (empty port held there).1
  | sending port =>
    obtain ⟨held, there, rfl⟩ := Option.map_eq_some_iff.mp found
    exact (empty port held there).2

/-- A device that was just made may be added to a vacant plane. -/
theorem Vacant.addDevice (vacant : p.Vacant) {pool : Nat} {s : DeviceSettings} {d : Device}
    (made : Device.make pool s = .ok d) : (p.addDevice d).2.Vacant := by
  -- None of its queues is open.
  have closed : ∀ port, d.rings? port = none := by
    intro port
    rw [Device.make] at made
    split at made
    · cases made
    · cases made
      rw [Device.rings?_eq]
      simp only [Array.getElem?_replicate]
      split
      · simp only [Option.bind_some, Array.getElem?_replicate]
        split <;> rfl
      · rfl
  refine vacant.devices rfl rfl fun port held found => ?_
  simp only [Plane.addDevice, device?, Array.getElem?_push] at found
  split at found
  · rw [Option.bind_some, closed] at found
    cases found
  · exact .inr found

/-- A queue opened on a vacant plane has empty rings of its own. -/
theorem Vacant.openPort (vacant : p.Vacant) {number : Nat} {id : PortId}
    {rxDescriptors txDescriptors : Nat} {port : Port}
    (opened : p.openPort number id rxDescriptors txDescriptors = .ok (port, q)) :
    q.Vacant ∧ (q.ringAt? (.sending port)).isSome ∧ port.device = number ∧ port.id = id ∧
      q.toSurroundings = p.toSurroundings := by
  -- The device is found, and the rings of the new queue are empty.
  rw [Plane.openPort, onDevice] at opened
  cases found : p.device? number with
  | none => simp [found] at opened
  | some d =>
    simp only [found] at opened
    split at opened
    · cases opened
    · rename_i d' done
      cases opened
      obtain ⟨rings, rx, tx, same, own, others⟩ := Device.openPort_ok done
      have devices := device?_setDevice found d'
      refine ⟨vacant.devices rfl rfl ?_, ?_, same.1, same.2, rfl⟩
      · intro other held there
        rw [devices] at there
        split at there
        · rename_i mine
          subst mine
          rw [found]
          obtain rfl | before := others other held there
          · exact .inl ⟨rx, tx⟩
          · exact .inr before
        · exact .inr there
      · rw [ringAt?, devices, same.1, if_pos rfl, Option.bind_some, own]
        rfl

end Plane

namespace Forward

open scoped List

variable {s : Settings} {reserve : Nat → Option UInt32 → Except Fault Region} {ends : Ends}

/-- Ends that were just made: nothing waits anywhere, no stage has been made, and packets are on
record. -/
structure Ends.Fresh (ends : Ends) : Prop where
  vacant : ends.plane.Vacant
  apart : ends.rxRing ≠ ends.txRing
  sending : ends.tx.device = ends.device ∧ ends.tx.id = txPort
  opened : (ends.plane.ringAt? (.sending ends.tx)).isSome
  lives : ends.plane.lives = #[]
  owned : ∃ l : Ledger, l.Reachable ∧ l.buffers = ends.plane.buffers

/-- Ends that are made from settings are fresh. -/
theorem makeEnds_fresh (made : makeEnds s reserve = .ok ends) : ends.Fresh := by
  -- The steps are followed one by one, each from the plane that the one before has left.
  rw [makeEnds] at made
  obtain ⟨pool, madePool, made⟩ := of_bind_ok made
  obtain ⟨device, madeDevice, made⟩ := of_bind_ok made
  obtain ⟨⟨rx, first⟩, openedRx, made⟩ := of_bind_ok made
  obtain ⟨⟨tx, second⟩, openedTx, made⟩ := of_bind_ok made
  obtain ⟨one, madeOne, made⟩ := of_bind_ok made
  obtain ⟨two, madeTwo, made⟩ := of_bind_ok made
  cases made
  have start : ({ buffers := (({} : Plane).buffers.addPool pool).2 } : Plane).Vacant := by
    intro place r found
    cases place with
    | ring k | tap k | received port | sending port =>
      simp [Plane.ringAt?, Plane.ring?, Plane.tap?, Plane.device?] at found
  obtain ⟨vacantRx, -, -, -, sameRx⟩ := (start.addDevice madeDevice).openPort openedRx
  obtain ⟨vacantTx, opened, device, id, sameTx⟩ := vacantRx.openPort openedTx
  refine ⟨(vacantTx.addRing (Ring.holds_make madeOne)).addRing (Ring.holds_make madeTwo), ?_,
    ⟨device, id⟩, opened, ?_, ?_⟩
  · simp
  · show second.lives = #[]
    rw [(congrArg Surroundings.lives sameTx :), (congrArg Surroundings.lives sameRx :)]
    rfl
  · refine ⟨_, Ledger.Reachable.start.call (.make "pktio-fwd" s.pool reserve) trivial, ?_⟩
    show _ = second.buffers
    rw [(congrArg Surroundings.buffers sameTx :), (congrArg Surroundings.buffers sameRx :),
      Ledger.call, madePool]
    rfl

/-- A stage that was started has a worker made to its plan, and all before it stay as they are. -/
theorem startStage_ok {p after : Pipeline} {plan : WorkerPlan Unit} {doing : String}
    (started : startStage p plan doing = .ok after) :
    ∃ w plane core reporter, plan.Makes p.fleet.plane plane w ∧ after.ends = p.ends ∧
      after.fleet = ⟨plane, p.fleet.members.push ⟨{ w with core, reporter }, .starting⟩⟩ := by
  -- Neither building nor spawning may have failed, so the worker is added and then placed.
  rw [startStage, Fleet.build] at started
  cases built : plan.build p.fleet.plane with
  | mk result plane =>
    rw [built] at started
    cases result with
    | error fault => cases started
    | ok w =>
      let f : Fleet Unit := ⟨plane, p.fleet.members.push { worker := w }⟩
      have found : f.members[p.fleet.members.size]? = some { worker := w } :=
        Array.getElem?_push_size
      simp only [Fleet.add] at started
      obtain ⟨fault, refused⟩ | ⟨claim, cores, pins, core, reporter, -, spawned⟩ :=
        p.engine.spawn_cases found rfl .any
      · rw [refused] at started
        cases started
      · refine ⟨w, plane, core, reporter, WorkerPlan.build_makes built, ?_⟩
        split at started
        · cases started
        · rename_i place engine fleet outcome
          cases started
          rw [outcome] at spawned
          refine ⟨rfl, (Prod.mk.inj spawned).2.trans ?_⟩
          simp [f, Array.setIfInBounds, Array.set_push]

/-- A plan for the stage of a number, between its places. -/
structure Suits (ends : Ends) (number : Nat) (plan : WorkerPlan Unit) : Prop where
  stage : number < 3
  input : plan.input.map Input.place = some (ends.place number)
  output : ∀ w : Worker Unit, w.output = plan.output →
    w.target?.map Target.place = some (ends.place (number + 1))
  treats : ∃ treat : Treatment Unit, plan.process.Treats treat ∧
    treat.Turns (prospect number) (prospect (number + 1))
  leaves : plan.process.LeavesLives
  untapped : plan.capture = none

/-- The receiving stage is the first. -/
theorem suits_rxPlan (ends : Ends) (s : Settings) : Suits ends 0 (rxPlan ends s) := by
  -- A ring is where it sends, and passing on treats packets alone.
  refine ⟨by decide, rfl, ?_, ⟨_, passThrough_treats Unit, fun _ _ _ _ => rfl⟩,
    fun _ _ _ _ => rfl, rfl⟩
  intro w output
  rw [Worker.target?, output]
  rfl

/-- A processing worker is the second. -/
theorem suits_midPlan (ends : Ends) (s : Settings) (id : Nat) :
    Suits ends 1 (midPlan ends s id) := by
  -- A ring is where it sends, and exchanging addresses treats packets alone.
  refine ⟨by decide, rfl, ?_, ⟨_, swapMacs_treats, exchanging_turns⟩, fun _ _ _ _ => ?_, rfl⟩
  · intro w output
    rw [Worker.target?, output]
    rfl
  · rfl

/-- The sending stage is the third. -/
theorem suits_txPlan (ends : Ends) (s : Settings) : Suits ends 2 (txPlan ends s) := by
  -- A port is where it sends, and passing on treats packets alone.
  refine ⟨by decide, rfl, ?_, ⟨_, passThrough_treats Unit, fun _ _ _ _ => rfl⟩,
    fun _ _ _ _ => rfl, rfl⟩
  intro w output
  rw [Worker.target?, output]
  rfl

/-- A pipeline whose first stages have been started over its ends, and have moved nothing. -/
structure Staffed (ends : Ends) (count : Nat) (p : Pipeline) : Prop where
  between : p.ends = ends
  size : p.fleet.members.size = count
  lives : p.fleet.plane.lives.size = count
  buffers : p.fleet.plane.buffers = ends.plane.buffers
  places : ∀ place, p.fleet.plane.ringAt? place = ends.plane.ringAt? place
  serves : ∀ (number : Nat) (m : Member Unit), p.fleet.members[number]? = some m →
    Serves ends number m ∧ m.Unasked p.fleet.plane ∧ m.worker.backlog.pending = []

/-- A stage that was started to its plan serves with the others. -/
theorem Staffed.startStage {p after : Pipeline} {count : Nat} {plan : WorkerPlan Unit}
    {doing : String} (staffed : Staffed ends count p) (suits : Suits ends count plan)
    (started : startStage p plan doing = .ok after) : Staffed ends (count + 1) after := by
  -- The stage comes last with a lifecycle of its own, and the others are as they were.
  obtain ⟨w, plane, core, reporter, makes, same, fleet⟩ := startStage_ok started
  have life : w.life = count := makes.life.trans staffed.lives
  refine ⟨same.trans staffed.between, ?_, ?_, ?_, ?_, ?_⟩
  · rw [fleet, Array.size_push, staffed.size]
  · rw [fleet]
    show plane.lives.size = _
    rw [makes.lives, Array.size_push, staffed.lives]
  · rw [fleet]
    exact makes.buffers.trans staffed.buffers
  · intro place
    rw [fleet]
    exact (makes.joins.places place).trans (staffed.places place)
  · intro number m found
    rw [fleet] at found ⊢
    rw [Array.getElem?_push, staffed.size] at found
    split at found
    · rename_i last
      cases found
      subst last
      -- The new stage has the ends and the processor of its plan, and was not asked to stop.
      refine ⟨?_, Or.inl ⟨rfl, ?_⟩, makes.empty⟩
      · refine ⟨suits.stage, ?_, ?_, ?_, ?_, ?_, life⟩
        · have input := suits.input
          rw [makes.input] at input
          exact Option.some.inj input
        · exact suits.output _ makes.output.symm
        · exact makes.process ▸ suits.treats
        · exact makes.process ▸ suits.leaves
        · exact makes.capture ▸ suits.untapped
      · exact (makes.lives_eq _).trans (if_pos rfl)
    · rename_i older
      obtain ⟨serves, unasked, empty⟩ := staffed.serves number m found
      refine ⟨serves, ?_, empty⟩
      -- Its lifecycle is numbered after all older ones.
      rw [Member.Unasked, makes.lives_eq, life, serves.life, if_neg older, ← serves.life]
      exact unasked

/-- A pipeline has three stages when it was started with one processing worker. -/
theorem startAll_staffed {cores : Nat} {p : Pipeline} (started : startAll s cores ends = .ok p)
    (single : s.workers = 1) (lifeless : ends.plane.lives = #[]) : Staffed ends 3 p := by
  -- The three stages are started one after another, each behind those before.
  rw [startAll] at started
  obtain ⟨first, startedRx, started⟩ := of_bind_ok started
  obtain ⟨second, startedMid, startedTx⟩ := of_bind_ok started
  have one : s.workers.toNat = 1 := by
    rw [single]
    rfl
  have bare : Staffed ends 0 {
      fleet := { plane := ends.plane }, engine := Engine.make cores s, ends } := by
    refine ⟨rfl, rfl, ?_, rfl, fun _ => rfl, ?_⟩
    · show ends.plane.lives.size = 0
      rw [lifeless]
      rfl
    · intro number m found
      cases found
  have rx := bare.startStage (suits_rxPlan ends s) startedRx
  rw [one, startMids] at startedMid
  split at startedMid
  · cases startedMid
  · rename_i mid startedMid'
    cases startedMid
    rw [rx.between] at startedMid'
    have mid := rx.startStage (suits_midPlan ends s 1) startedMid'
    exact mid.startStage (suits_txPlan ends s) startedTx

/-- A pipeline whose stages have moved nothing is running when its ends are fresh. -/
theorem Staffed.running {p : Pipeline} (staffed : Staffed ends 3 p) (fresh : ends.Fresh) :
    Wired.Running { pipeline := p } := by
  -- Nothing is on any ring or staged anywhere, so the line is empty.
  have between : p.ends = ends := staffed.between
  subst between
  have contents : ∀ place, p.fleet.plane.contents place = [] := by
    intro place
    rw [Plane.contents, staffed.places]
    exact fresh.vacant.contents place
  have waiting : ∀ number : Nat,
      (p.fleet.members[number]?.map (·.worker.backlog.pending)).getD [] = [] := by
    intro number
    cases found : p.fleet.members[number]? with
    | none => rfl
    | some m => exact (staffed.serves number m found).2.2
  have line : Wired.line { pipeline := p } = [] := by
    simp only [Wired.line, Wired.queued, Wired.waiting, Wired.plane, contents, waiting]
    rfl
  refine ⟨?_, fresh.apart, fresh.sending, ?_, ?_, ?_, ?_⟩
  · intro number m found
    obtain ⟨serves, unasked, -⟩ := staffed.serves number m found
    exact ⟨serves, unasked, staffed.lives ▸ serves.stage⟩
  · exact (congrArg Option.isSome (staffed.places _)).trans fresh.opened
  · intro place r found
    exact fresh.vacant.atRest place r ((staffed.places place).symm.trans found)
  · obtain ⟨l, run, same⟩ := fresh.owned
    refine ⟨l, run, same.trans staffed.buffers.symm, ?_⟩
    rw [line]
    exact List.nil_subperm
  · rw [line]
    exact List.nil_sublist _

/-- Frames that still have their addresses exchanged come out so, unless they are too short. -/
theorem filterMap_exchanged (frames : List (List UInt8)) :
    (frames.filterMap fun frame => exchanged ⟨0, 0, frame⟩) =
      (frames.filter (2 * macLen ≤ ·.length)).map fun frame => ⟨0, 0, exchangeMacs frame⟩ := by
  -- By induction on the frames, each of which is long enough or is left out.
  induction frames with
  | nil => rfl
  | cons frame rest ih =>
    rw [List.filterMap_cons, ih]
    by_cases long : 2 * macLen ≤ frame.length
    · simp [exchanged, long]
    · simp [exchanged, long]

/-- What a pipeline with one processing worker has put out are frames that came in, none twice and in
their order, all of twelve bytes or more, with their addresses exchanged and all else as it was. -/
theorem Wired.frames_in_order {cores : Nat} {p : Pipeline} (made : makeEnds s reserve = .ok ends)
    (started : startAll s cores ends = .ok p) (single : s.workers = 1) (moves : List Move) :
    let w := moves.foldl Wired.after { pipeline := p }
    ∃ passed : List (List UInt8), passed <+ w.delivered ∧ (∀ frame ∈ passed, 12 ≤ frame.length) ∧
      w.taken = passed.map fun frame =>
        ⟨0, 0, (frame.drop 6).take 6 ++ frame.take 6 ++ frame.drop 12⟩ := by
  intro w
  have fresh := makeEnds_fresh made
  have running : w.Running :=
    ((startAll_staffed started single fresh.lives).running fresh).foldl moves
  -- Whatever is still in line comes out later, if ever.
  have order := (List.sublist_append_left _ _).trans running.order
  obtain ⟨through, kept, taken⟩ := List.sublist_filterMap_iff.mp order
  refine ⟨through.filter (2 * macLen ≤ ·.length), List.filter_sublist.trans kept, ?_, ?_⟩
  · intro frame member
    exact of_decide_eq_true (List.mem_filter.mp member).2
  · rw [taken, filterMap_exchanged]
    rfl

/-- Settings of a pipeline with room for four packets everywhere. -/
def narrow : Settings := {
  pool := { capacity := 4 }, ringCapacity := 4
  device := { rxDescriptors := 4, txDescriptors := 4 } }

/-- A frame that comes in, is passed on by each stage in turn, and goes out. -/
def onePass : List Move :=
  -- Every stage begins in its first step.
  [.inject wireFrame, .poll 0, .poll 0, .poll 1, .poll 1, .poll 2, .poll 2, .drain 3]

/-- A frame passes a narrow pipeline, and comes out in order. -/
theorem Wired.frames_in_order_narrow : ∃ ends p,
    makeEnds narrow Region.reserve = .ok ends ∧ startAll narrow 4 ends = .ok p ∧
      narrow.workers = 1 ∧
      let w := onePass.foldl Wired.after { pipeline := p }
      w.taken.length = 1 ∧
        ∃ passed : List (List UInt8), passed <+ w.delivered ∧
          (∀ frame ∈ passed, 12 ≤ frame.length) ∧
          w.taken = passed.map fun frame =>
            ⟨0, 0, (frame.drop 6).take 6 ++ frame.take 6 ++ frame.drop 12⟩ := by
  -- That the ends are made and what comes out is computed, and the order is taken from the theorem.
  have ran : ((makeEnds narrow Region.reserve).toOption.bind fun ends =>
      (startAll narrow 4 ends).toOption.map fun p =>
        (onePass.foldl Wired.after { pipeline := p }).taken.length) = some 1 := by cbv
  cases made : makeEnds narrow Region.reserve with
  | error fault =>
    rw [made] at ran
    cases ran
  | ok ends =>
    rw [made] at ran
    cases started : startAll narrow 4 ends with
    | error fault =>
      simp only [Except.toOption, Option.bind_some, started] at ran
      cases ran
    | ok p =>
      simp only [Except.toOption, Option.bind_some, started, Option.map_some] at ran
      exact ⟨ends, p, rfl, started, rfl, Option.some.inj ran,
        Wired.frames_in_order made started rfl onePass⟩

end Forward

end PacketPlane
