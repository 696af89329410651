import PacketPlane.Proofs.Fleet.Rounds
import PacketPlane.Proofs.Fleet.Stopping

/-! Shutdown: an engine whose workers were started in the order in which packets flow leaves nothing
between them when it stops, and accounts for every packet. -/

namespace PacketPlane

variable {σ : Type}

namespace Counters

/-- Counters that balance one by one balance together. -/
theorem settled_total {all : List Counters} (balanced : ∀ c ∈ all, c.rxPackets = c.settled) :
    (total all).rxPackets = (total all).settled := by
  -- The sum so far is balanced before each of them is added.
  have added : ∀ (rest : List Counters) (sofar : Counters), sofar.rxPackets = sofar.settled →
      (∀ c ∈ rest, c.rxPackets = c.settled) →
      (rest.foldl merge sofar).rxPackets = (rest.foldl merge sofar).settled := by
    intro rest
    induction rest with
    | nil => exact fun sofar before _ => before
    | cons c rest ih =>
      intro sofar before each
      refine ih (sofar.merge c) ?_ fun other there => each other (List.mem_cons_of_mem _ there)
      have own := each c (List.mem_cons_self ..)
      rw [settled] at before own ⊢
      simp only [merge]
      rw [before, own]
      grind
  exact added all {} rfl balanced

end Counters

namespace History

/-- What a stop leaves: rings between workers are empty and all that was put on them was received,
every worker that was ever started is done, their counters balance together, and the engine has
given back every core and kept the last counters of each worker in their order. -/
structure Leaves (before after : History σ) : Prop where
  empty : ∀ k, before.Between k → after.fleet.plane.contents (.ring k) = []
  received : ∀ k, before.Between k → after.offered k + after.given k = after.taken k
  done : ∀ number ∈ after.engine.registered, ∃ m : Member σ,
    after.fleet.members[number]? = some m ∧ m.stage = .ended ∧ m.worker.Done ∧
      (after.flows number).pulled.Perm
        ((after.flows number).accepted ++ (after.flows number).released) ∧
      m.worker.counters.rxPackets = UInt64.ofNat (after.flows number).pulled.length
  balanced : (after.engine.total after.fleet).rxPackets =
    (after.engine.total after.fleet).txPackets + (after.engine.total after.fleet).dropped +
      (after.engine.total after.fleet).txDropped
  finals : after.finals =
    before.finals ++ before.engine.running.map fun placed => after.fleet.counters placed.member
  total : after.engine.total after.fleet = Counters.total after.finals
  cores : ∀ core ∈ after.engine.cores.cores, core.workers = 0 ∧ core.dedicated = false
  none : after.engine.running = []

variable {inputs quiet : Nat → Prop} {h after : History σ} {closed : List Nat}
  {asked live rest : List Placed} {placed : Placed}

/-- Asking the next worker to stop finds its input dry, since those that put packets there are over.
-/
theorem Stopping.ask (stopping : h.Stopping asked (placed :: rest))
    (orderly : h.Orderly inputs closed (placed :: rest))
    (staged : h.fleet.Staged (placed :: rest)) :
    (h.ask placed).Stopping (asked ++ [placed]) rest ∧
      h.fleet.SameEnds (h.ask placed).fleet := by
  -- Those that feed the worker come before it, so they are over when it is asked.
  obtain ⟨m, found, unasked⟩ := orderly.patient placed (List.mem_cons_self ..)
  have rings : h.fleet.plane.SameRings (h.fleet.plane.requestStop m.worker.life) :=
    Plane.SameRings.congr rfl rfl rfl
  obtain ⟨-, same⟩ := rings.contents orderly.sound.atRest
  have asks : h.ask placed =
      { h with fleet := { h.fleet with plane := h.fleet.plane.requestStop m.worker.life } } := by
    rw [History.ask, Fleet.requestStop, found]
  rw [asks]
  refine ⟨⟨?_, ?_, ?_⟩, fun _ => rfl⟩
  · intro other there k takes
    obtain there | there := List.mem_append.mp there
    · exact stopping.dry other there k takes
    · rw [List.mem_singleton.mp there] at takes
      intro number n here feeds
      -- A feeder that was spawned is over or comes later, and none comes later. One that was never
      -- spawned is idle or over.
      by_cases known : number ∈ h.engine.registered
      · rw [orderly.roster.registered, List.mem_append, List.mem_map] at known
        obtain before | ⟨later, there, rfl⟩ := known
        · obtain ⟨n', here', finished⟩ := orderly.roster.finished number before
          have own : some n' = some n := here'.symm.trans here
          cases own
          exact Or.inr finished
        · exact absurd ⟨n, here, feeds⟩ (staged.head takes there)
      · exact orderly.roster.others number n here known
  · intro other there n here
    obtain there | there := List.mem_append.mp there
    · refine bounded_shrinks (stopping.bounded other there n here) fun k _ => ?_
      exact Nat.le_of_eq (congrArg List.length (same (.ring k)))
    · rw [List.mem_singleton.mp there] at here
      have own : some n = some m := here.symm.trans found
      cases own
      intro k input
      -- ⟨stage, -⟩ := unasked | A worker that was just asked has not begun to drain.
      obtain ⟨stage, -⟩ | ⟨stage, -⟩ := unasked <;> simp [stage]
  · intro other there k takes
    have known := stopping.squared other (by simpa using there) k takes
    rw [Squared, ← same] at known
    exact known

/-- Whatever happens while a worker is waited for, the rings of workers that were asked run dry. -/
theorem waited_stopping (waited : Relation.ReflTransGen (Goes inputs quiet) h after)
    (sound : h.Sound inputs) (patient : h.Patient rest) (stopping : h.Stopping asked rest)
    (calmly : ∀ placed ∈ asked ++ rest, ∀ k, h.fleet.Takes placed.member k →
      inputs k ∧ quiet k) :
    after.Sound inputs ∧ after.Patient rest ∧ after.Stopping asked rest ∧
      h.fleet.SameEnds after.fleet := by
  -- By induction on what happens, where workers keep their ends.
  induction waited with
  | refl => exact ⟨sound, patient, stopping, fun _ => rfl⟩
  | tail _ goes ih =>
    obtain ⟨sound, patient, stopping, ends⟩ := ih
    have calmly' := fun placed there k takes => calmly placed there k (ends.takes.mp takes)
    exact ⟨goes.sound sound, goes.patient sound patient,
      goes.stopping sound patient stopping calmly',
      fun number => (goes.sameEnds number).trans (ends number)⟩

/-- Once all workers were stopped in order, the rings that they took from are dry. -/
theorem Stops.stopping (stops : Stops inputs quiet live h after)
    (orderly : h.Orderly inputs closed live) (stopping : h.Stopping asked live)
    (staged : h.fleet.Staged live)
    (calmly : ∀ placed ∈ asked ++ live, ∀ k, h.fleet.Takes placed.member k →
      inputs k ∧ quiet k) :
    after.Stopping (asked ++ live) [] ∧ h.fleet.SameEnds after.fleet := by
  -- Each worker that was waited for is among those asked when the next one is.
  induction stops generalizing asked closed with
  | none h => exact ⟨by simpa using stopping, fun _ => rfl⟩
  | @next placed rest h ended after waited finished later ih =>
    obtain ⟨begun, first⟩ := stopping.ask orderly staged
    obtain ⟨sound, -, patient⟩ := orderly.ask
    have calmly' : ∀ other ∈ asked ++ [placed] ++ rest, ∀ k,
        (h.ask placed).fleet.Takes other.member k → inputs k ∧ quiet k := by
      intro other there k takes
      exact calmly other (by simpa using there) k (first.takes.mp takes)
    obtain ⟨-, -, waiting, second⟩ := waited_stopping waited sound patient begun calmly'
    obtain ⟨joined, -, -⟩ := orderly.join waited finished
    have ends : h.fleet.SameEnds ended.fleet := fun number => (second number).trans (first number)
    have still : (ended.join placed).Stopping (asked ++ [placed]) rest :=
      ⟨waiting.dry, waiting.bounded, waiting.squared⟩
    obtain ⟨stopped, third⟩ := ih joined still (staged.tail.congr ends)
      fun other there k takes => calmly other (by simpa using there) k (ends.takes.mp takes)
    refine ⟨by simpa using stopped, fun number => ?_⟩
    exact (third number).trans (ends number)

/-- Stopping workers adds the last counters of each to those that are known already. -/
theorem Stops.finals (stops : Stops inputs quiet live h after)
    (orderly : h.Orderly inputs closed live) :
    ∃ more, after.finals = h.finals ++ more ∧ more.length = live.length := by
  -- By induction on the workers, each of which adds its counters when it is joined.
  induction stops generalizing closed with
  | none h => exact ⟨[], (List.append_nil _).symm, rfl⟩
  | @next placed rest h ended after waited finished later ih =>
    obtain ⟨joined, -, finals⟩ := orderly.join waited finished
    obtain ⟨more, added, length⟩ := ih joined
    refine ⟨ended.fleet.counters placed.member :: more, ?_, congrArg Nat.succ length⟩
    rw [added]
    show ended.finals ++ [_] ++ more = _
    rw [finals, List.append_assoc]
    rfl

/-- What a stop adds to the last counters that are known, in the order in which it asks. -/
theorem Stops.finals_eq (stops : Stops inputs quiet live h after)
    (orderly : h.Orderly inputs closed live) :
    after.finals =
      h.finals ++ live.map fun placed => after.fleet.counters placed.member := by
  -- The last counters are those of the stopped workers in the end, and those known before are the
  -- first.
  obtain ⟨stopped, -⟩ := Stops.orderly stops orderly
  obtain ⟨more, added, -⟩ := Stops.finals stops orderly
  have counted := stopped.roster.finals
  rw [added, List.map_append] at counted
  have before : h.finals.length = (closed.map after.fleet.counters).length := by
    rw [orderly.roster.finals, List.length_map, List.length_map]
  obtain ⟨-, rest⟩ := List.append_inj counted before
  rw [added, rest, List.map_map]
  rfl

/-- Every packet on a ring between running workers is known before they are stopped. -/
theorem Reachable.stopping (reached : Reachable inputs h) :
    ({ h with engine := { h.engine with running := [] } } : History σ).Stopping []
      h.engine.running := by
  obtain ⟨closed, sound, roster, patient⟩ := reached.orderly
  refine ⟨by simp, by simp, ?_⟩
  intro placed there k takes
  -- A ring that a running worker takes from is held.
  refine sound.squared k (reached.between ⟨placed, there, takes⟩) fun gone => ?_
  obtain ⟨m, found, input⟩ := takes
  have finished := over_of_gone sound found input gone
  obtain ⟨n, here, unasked⟩ := patient placed there
  have own : some n = some m := here.symm.trans found
  cases own
  rw [Member.Unasked, finished] at unasked
  simp at unasked

/-- A worker that was stopped is done, and everything it pulled was sent or dropped. -/
theorem Orderly.done (orderly : h.Orderly inputs closed []) {number : Nat}
    (known : number ∈ h.engine.registered) :
    ∃ m : Member σ, h.fleet.members[number]? = some m ∧ m.stage = .ended ∧ m.worker.Done ∧
      (h.flows number).pulled.Perm ((h.flows number).accepted ++ (h.flows number).released) ∧
      m.worker.counters.rxPackets = UInt64.ofNat (h.flows number).pulled.length := by
  -- Every registered worker was stopped, and one that is over has nothing staged or waiting.
  have there := known
  rw [orderly.roster.registered, List.map_nil, List.append_nil] at there
  obtain ⟨m, found, finished⟩ := orderly.roster.finished number there
  have kept := orderly.sound.kept number m found fun _ => known
  have empty := kept.ended finished
  have custody := kept.custody
  rw [empty, List.append_nil] at custody
  refine ⟨m, found, finished, ⟨empty, ?_⟩, custody, kept.received⟩
  show _ = m.worker.counters.settled
  rw [kept.received, kept.settled, custody.length_eq, List.length_append]

/-- Take an engine with any history, in which workers of any kind were built, given up, placed on
cores and stopped, and others did anything around them, as long as only workers took packets from
their input rings, no processor died or reached for lifecycles, and only the engine asked workers to
stop. When the running workers were started in an order in which those that put packets on a ring
come before those that take packets from it, then stopping them one by one, in whatever order
workers take their steps meanwhile, leaves nothing between them as long as nobody else puts packets
on the rings that they take from. Stopping them round by round does come to its end, and gives back
what each had counted in the end. -/
theorem stop_leaves_nothing (reached : Reachable inputs h)
    (staged : h.fleet.Staged h.engine.running) :
    (∀ after, Shuts inputs h after → h.Leaves after) ∧
      (h.fleet.Gentle → ∃ after, Shuts inputs h after ∧
        h.engine.stop h.fleet stopRounds =
          (h.engine.running.map fun placed => after.fleet.counters placed.member,
            after.engine, after.fleet)) := by
  -- What holds after a stop follows the stages one by one, and that there is such a stop is shown by
  -- rounds.
  obtain ⟨closed, orderly⟩ := reached.orderly
  have begun := orderly.setRunning []
  constructor
  · intro after shuts
    obtain ⟨orderly, running⟩ := Stops.orderly shuts begun
    obtain ⟨stopped, ends⟩ := Stops.stopping shuts begun reached.stopping staged
      fun placed there k takes =>
        ⟨reached.between ⟨placed, there, takes⟩, placed, there, takes⟩
    have empty : ∀ k, h.Between k → after.fleet.plane.contents (.ring k) = [] := by
      rintro k ⟨placed, there, takes⟩
      obtain ⟨m, found, input⟩ := ends.takes.mpr takes
      -- The worker that takes from the ring is over, and left it empty.
      obtain ⟨n, here, ended⟩ := orderly.roster.finished placed.member
        (List.mem_append_right _ (List.mem_map_of_mem there))
      rw [found, Option.some.injEq] at here
      subst here
      exact (stopped.bounded placed there m found k input).2 ended
    have known := Stops.finals_eq shuts begun
    refine ⟨empty, ?_, fun number there => orderly.done there, ?_, known, ?_, ?_, running⟩
    · rintro k ⟨placed, there, takes⟩
      have squared := stopped.squared placed (by simpa using there) k (ends.takes.mpr takes)
      rw [Squared, empty k ⟨placed, there, takes⟩, List.length_nil, Nat.zero_add] at squared
      exact squared.symm
    · -- Every closed worker has settled what it received, and so have all of them together.
      have together : (after.engine.total after.fleet).rxPackets =
          (after.engine.total after.fleet).settled := by
        refine Counters.settled_total fun c there => ?_
        obtain ⟨number, known, rfl⟩ := List.mem_map.mp there
        obtain ⟨m, found, -, done, -⟩ := orderly.done known
        rw [Fleet.counters, found]
        exact done.counted
      exact together
    · rw [orderly.roster.finals, Engine.total, orderly.roster.registered, List.map_nil,
        List.append_nil]
    · exact orderly.roster.cores.free
  · intro gentle
    -- A gentle fleet is stopped within so many rounds for each stage.
    obtain ⟨after, shuts, results, counted⟩ := stopEach_stops begun gentle h.Between
    refine ⟨after, shuts, Prod.ext ?_ results⟩
    have known := Stops.finals_eq shuts begun
    rw [known] at counted
    exact (List.append_cancel_left counted).symm

/-- A stage that forwards everything from one ring to the next. -/
def stage (id : Nat) : WorkerPlan Unit where
  -- The ring it takes from has the stage's own number.
  id
  input := some (.ring id)
  output := .ring (id + 1)
  process := passThrough Unit
  memory := ()

/-- Two stages can be started between three rings, of which the first one holds packets. -/
theorem two_stages_reachable {packets : List Packet} {empty filled : Ring Packet}
    (holdsNone : empty.Holds []) (holdsAll : filled.Holds packets) :
    ∃ h : History Unit, Reachable (fun _ => True) h ∧
      h.fleet.plane.contents (.ring 0) = packets ∧
      h.engine.running = [⟨0, ⟨0, false⟩⟩, ⟨1, ⟨1, false⟩⟩] ∧
      h.fleet.members.toList.map (fun m => (m.worker.input, m.worker.output, m.worker.process)) =
        [(.ring 0, .ring 1, passThrough Unit), (.ring 1, .ring 2, passThrough Unit)] := by
  let plane : Plane := { rings := #[{ value := filled }, { value := empty }, { value := empty }] }
  have rest : plane.AtRest := by
    intro place r found
    cases place with
    | ring k =>
      obtain ⟨held, there, rfl⟩ := Option.map_eq_some_iff.mp found
      match k, there with
      | 0, there =>
        cases there
        exact ⟨packets, holdsAll⟩
      | 1, there | 2, there =>
        cases there
        exact ⟨[], holdsNone⟩
    | received port => simp [plane, Plane.ringAt?, Plane.device?] at found
    | sending port => simp [plane, Plane.ringAt?, Plane.device?] at found
    | tap k => simp [plane, Plane.ringAt?, Plane.tap?] at found
  -- Each ring has one holder to begin with, and a worker only adds to the holders.
  have linked : ∀ id k : Nat, (stage id).input = some (.ring k) ∨ (stage id).output = .ring k →
      k = id ∨ k = id + 1 := by
    rintro id k (used | used)
    · cases used
      exact Or.inl rfl
    · cases used
      exact Or.inr rfl
  have started := @Reachable.start Unit (fun _ => True) 2 {} plane rest
  have first := @Reachable.build Unit _ _ started (stage 0) fun k used => by
    obtain rfl | rfl := linked 0 k used
    · exact Nat.one_pos
    · exact Nat.one_pos
  have second := @Reachable.build Unit _ _ first (stage 1) fun k used => by
    obtain rfl | rfl := linked 1 k used
    · exact Nat.two_pos
    · exact Nat.one_pos
  -- From here on only what was built matters.
  obtain ⟨wired, w, v, offered, built, ringed, source, sink⟩ :
      ∃ (wired : Plane) (w v : Worker Unit) (offered : Nat → Nat),
      Reachable (fun _ => True)
        { engine := Engine.make 2 {}, fleet := ⟨wired, #[⟨w, .idle⟩, ⟨v, .idle⟩]⟩, offered } ∧
      wired.ringAt? (.ring 0) = some filled ∧
      (w.input, w.output, w.process) = (.ring 0, .ring 1, passThrough Unit) ∧
      (v.input, v.output, v.process) = (.ring 1, .ring 2, passThrough Unit) :=
    ⟨_, _, _, _, second, rfl, rfl, rfl⟩
  have upstream := @Reachable.spawn Unit _ _ built 0 _ rfl rfl (fun _ _ => trivial) .any
  have downstream := @Reachable.spawn Unit _ _ upstream 1 _ rfl rfl (fun _ _ => trivial) .any
  refine ⟨_, downstream, Plane.contents_eq ringed holdsAll, rfl, ?_⟩
  rw [← source, ← sink]
  rfl

/-- Two stages between three rings, with packets on the first one, leave nothing behind. -/
theorem stop_leaves_nothing_two_stages :
    ∃ h after : History Unit, Reachable (fun _ => True) h ∧
      h.fleet.Staged h.engine.running ∧ h.engine.running.map Placed.member = [0, 1] ∧
      h.fleet.plane.contents (.ring 0) = [⟨0, 0⟩, ⟨0, 1⟩, ⟨0, 2⟩] ∧
      Shuts (fun _ => True) h after ∧ h.Leaves after ∧
      after.fleet.plane.contents (.ring 0) = [] ∧ after.fleet.plane.contents (.ring 1) = [] := by
  -- The history is reached call by call, and the theorem is used at the stop that it shows to exist.
  obtain ⟨ring, made, accepted⟩ : ∃ ring : Ring Packet, Ring.make "stage" 4 = .ok ring ∧
      (ring.enqueueBulk [⟨0, 0⟩, ⟨0, 1⟩, ⟨0, 2⟩]).accepted = 3 := ⟨_, rfl, rfl⟩
  have empty : ring.Holds [] := Ring.holds_make made
  have full := empty.enqueueBulk_taken [⟨0, 0⟩, ⟨0, 1⟩, ⟨0, 2⟩]
  rw [accepted] at full
  obtain ⟨h, reached, filled, placed, workers⟩ := two_stages_reachable empty full
  have known : ∀ (number : Nat) (m : Member Unit), h.fleet.members[number]? = some m →
      m.worker.input = .ring number ∧ m.worker.output = .ring (number + 1) ∧
        m.worker.process = passThrough Unit := by
    intro number m found
    have there := congrArg (fun all => all[number]?) workers
    simp only [List.getElem?_map, Array.getElem?_toList, found, Option.map_some] at there
    match number, there with
    | 0, there | 1, there =>
      obtain ⟨input, there⟩ := Prod.mk.inj (Option.some.inj there)
      obtain ⟨output, process⟩ := Prod.mk.inj there
      exact ⟨input, output, process⟩
  -- A worker feeds the ring after its own, so the first feeds the second and no one feeds the first.
  have staged : h.fleet.Staged h.engine.running := by
    rintro i j source sink k first second ⟨m, found, output⟩ ⟨n, here, input⟩
    have feeds := (known source.member m found).2.1.symm.trans output
    have takes := (known sink.member n here).1.symm.trans input
    rw [Output.ring.injEq] at feeds
    rw [Input.ring.injEq] at takes
    have order : source.member < sink.member := by omega
    rw [placed] at first second
    match i, j, first, second with
    | 0, 1, first, second => exact Nat.one_pos
    | 0, 0, first, second | 1, 0, first, second | 1, 1, first, second =>
      cases first
      cases second
      exact absurd order (by decide)
  obtain ⟨nothing, ends⟩ := stop_leaves_nothing reached staged
  obtain ⟨after, shuts, -⟩ := ends fun number m found => by
    rw [(known number m found).2.2]
    exact ⟨fun _ _ _ _ => Verdict.noConfusion, fun _ _ _ _ => rfl⟩
  have leaves := nothing after shuts
  -- Each of the two rings is the input of a worker that runs.
  have between : ∀ placed ∈ h.engine.running, h.Between placed.member := by
    intro worker there
    have inside : worker.member < h.fleet.members.size := by
      have size : h.fleet.members.size = 2 := by simpa using congrArg List.length workers
      rw [size]
      rw [placed, List.mem_cons, List.mem_singleton] at there
      obtain rfl | rfl := there
      · exact Nat.two_pos
      · exact Nat.one_lt_two
    have found := Array.getElem?_eq_getElem inside
    exact ⟨worker, there, _, found, (known worker.member _ found).1⟩
  rw [placed] at between
  refine ⟨h, after, reached, staged, by rw [placed]; rfl, filled, shuts, leaves,
    leaves.empty 0 (between ⟨0, ⟨0, false⟩⟩ ?_), leaves.empty 1 (between ⟨1, ⟨1, false⟩⟩ ?_)⟩
  · exact List.mem_cons_self ..
  · exact List.mem_cons_of_mem _ (List.mem_cons_self ..)

end History

end PacketPlane
