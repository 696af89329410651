import PacketPlane.Proofs.Fleet.Roster

/-! Reachable histories: whatever happens before, between and during stops, the records agree with
the fleet, and nobody is asked to stop before the engine asks. -/

namespace PacketPlane

variable {σ : Type}

/-- A worker that was never started lets go of its ends. -/
theorem Member.leave_effect {m : Member σ} (idle : m.stage = .idle) (p : Plane) :
    m.Effect (m.leave p).1 p (m.leave p).2 {} := by
  -- Nothing is hauled, and only the holds of the worker are given up.
  have leaves := p.dismiss_leaves m.worker
  refine ⟨rfl, ?_, ?_, p, _, ?_, leaves, ?_⟩
  · intro other _
    rw [Plane.life, leave, leaves.lives, Plane.life]
  · rw [leave, leaves.lives]
  · exact Plane.Hauls.of_same (Plane.SameRings.refl p) fun _ _ => rfl
  · intro k
    simp [holds, leave, idle]

/-- A worker placed on a core starts there without moving anything. -/
theorem Member.start_effect {m : Member σ} (idle : m.stage = .idle) (p : Plane)
    (core : Option Nat) (reporter : Reporter) :
    m.Effect ⟨{ m.worker with core, reporter }, .starting⟩ p p {} := by
  -- Neither packets nor holds change.
  refine ⟨rfl, fun _ _ => rfl, rfl, p, fun _ => 0, ?_, Plane.Leaves.refl p, ?_⟩
  · exact Plane.Hauls.of_same (Plane.SameRings.refl p) fun _ _ => rfl
  · intro k
    simp [holds, idle]

/-- A worker that finds a core holds a claim there, is running and registered, and is starting. A
worker that finds none is given up. -/
theorem Engine.spawn_cases (e : Engine) {f : Fleet σ} {number : Nat} {m : Member σ}
    (found : f.members[number]? = some m) (idle : m.stage = .idle) (preference : CorePreference) :
    (∃ fault, e.spawn f number preference = (.error fault, e, f.dismiss number)) ∨
      ∃ claim cores pins core reporter,
        e.cores.assign preference e.dedicatedCores = .ok (claim, cores) ∧
          (e.spawn f number preference).2 =
            ({ e with cores, pins, running := e.running ++ [⟨number, claim⟩],
                      registered := e.registered ++ [number] },
              ⟨f.plane, f.members.setIfInBounds number
                ⟨{ m.worker with core, reporter }, .starting⟩⟩) := by
  -- By cases on whether a core is found.
  have inside := (Array.getElem?_eq_some_iff.mp found).1
  cases assigned : e.cores.assign preference e.dedicatedCores with
  | error fault =>
    exact Or.inl ⟨fault, by rw [spawn, assigned]⟩
  | ok placed =>
    obtain ⟨claim, cores⟩ := placed
    refine Or.inr ⟨claim, cores, (e.spawn f number preference).2.1.pins, some claim.core,
      { label := toString claim.core }, rfl, ?_⟩
    rw [spawn, assigned]
    refine Prod.ext rfl ?_
    show Fleet.start (f.onMember number _) number = _
    rw [Fleet.onMember_eq found, Fleet.start, Fleet.onMember]
    simp [inside, idle]

namespace History

variable {inputs quiet : Nat → Prop} {h after : History σ} {closed : List Nat}
  {live rest : List Placed} {number : Nat} {m m' : Member σ} {placed : Placed}

/-- A history whose records agree with its fleet, and whose running workers go on. -/
structure Orderly (inputs : Nat → Prop) (h : History σ) (closed : List Nat) (live : List Placed) :
    Prop where
  sound : h.Sound inputs
  roster : h.Roster closed live
  patient : h.Patient live

/-- One thing that happens keeps a history orderly. -/
theorem Orderly.goes (orderly : h.Orderly inputs closed live) (goes : Goes inputs quiet h after) :
    after.Orderly inputs closed live :=
  ⟨goes.sound orderly.sound, goes.roster orderly.roster, goes.patient orderly.sound orderly.patient⟩

/-- A worker that was never started may change in any way that does not start it. -/
theorem Orderly.replace {plane : Plane} {f : Flow} (orderly : h.Orderly inputs closed live)
    (found : h.fleet.members[number]? = some m) (idle : m.stage = .idle)
    (effect : m.Effect m' h.fleet.plane plane f)
    (kept : (m'.stage = .ended → number ∈ h.engine.registered) → m'.Kept (h.flows number ++ f))
    (made : m'.stage = .idle → plane.life m.worker.life = .created)
    (resting : m'.stage = .idle ∨ m'.stage = .ended) :
    (h.replace number m' plane f).Orderly inputs closed live := by
  -- Soundness and the roster are kept one by one, and whoever is running is another worker.
  refine ⟨orderly.sound.replace found effect kept made, ?_, ?_⟩
  · refine orderly.roster.replace found ?_ (fun _ => idle) fun _ => resting
    intro ended
    exact Stage.noConfusion (idle.symm.trans ended)
  · intro placed there
    obtain ⟨n, here, unasked⟩ := orderly.patient placed there
    have apart : placed.member ≠ number := by
      rintro rfl
      rw [found, Option.some.injEq] at here
      subst here
      rw [Member.Unasked, idle] at unasked
      simp at unasked
    refine ⟨n, (getElem?_replace found m' plane f _).trans ((if_neg apart).trans here), ?_⟩
    have alike : plane.life n.worker.life = h.fleet.plane.life n.worker.life := by
      refine effect.lives _ fun clash => apart ?_
      exact orderly.sound.distinct placed.member number n m here found clash
    rw [Member.Unasked]
    show n.stage = .starting ∧ plane.life _ = _ ∨ n.stage = .polling ∧ plane.life _ = _
    rw [alike]
    exact unasked

/-- A worker that was never started may be given up. -/
theorem Orderly.dismiss (orderly : h.Orderly inputs closed live)
    (found : h.fleet.members[number]? = some m) (idle : m.stage = .idle) :
    ({ h with fleet := h.fleet.dismiss number } : History σ).Orderly inputs closed live := by
  -- Giving a worker up is replacing it by one that is over, with nothing moved.
  have dismissed : ({ h with fleet := h.fleet.dismiss number } : History σ) =
      h.replace number (m.leave h.fleet.plane).1 (m.leave h.fleet.plane).2 {} := by
    rw [replace_still, Fleet.dismiss, Fleet.onMember_eq found, idle]
    rfl
  rw [dismissed]
  refine orderly.replace found idle (m.leave_effect idle h.fleet.plane) ?_
    (fun impossible => Stage.noConfusion impossible) (Or.inr rfl)
  intro known
  exact absurd (known rfl) (orderly.roster.unregistered found idle)

/-- A worker that was never started may be polled. -/
theorem Orderly.poll {f : Flow} (orderly : h.Orderly inputs closed live)
    (found : h.fleet.members[number]? = some m) (idle : m.stage = .idle)
    (alive : (m.worker.turn h.fleet.plane).crashed = false)
    (lives : (m.worker.turn h.fleet.plane).plane.lives = h.fleet.plane.lives)
    (carries : Moment.Carries ⟨m.worker, h.fleet.plane, [], 0, 0⟩
      ⟨(m.worker.turn h.fleet.plane).worker, (m.worker.turn h.fleet.plane).plane, [], 0, 0⟩ f) :
    ({ h with
        fleet := (h.fleet.turnHere number).2
        flows := Function.update h.flows number (h.flows number ++ f) } : History σ).Orderly inputs
      closed live := by
  -- A turn outside a run is a replacement that moves what the flow says and keeps the worker idle.
  have turned : (h.fleet.turnHere number).2 = ⟨(m.worker.turn h.fleet.plane).plane,
      h.fleet.members.setIfInBounds number ⟨(m.worker.turn h.fleet.plane).worker, .idle⟩⟩ := by
    rw [Fleet.turnHere, found]
    simp only [Member.after, alive, Bool.false_eq_true, if_false]
  have same : ∀ other, (m.worker.turn h.fleet.plane).plane.life other =
      h.fleet.plane.life other := by
    intro other
    rw [Plane.life, lives, Plane.life]
  have stepped : Member.Stepped m ⟨(m.worker.turn h.fleet.plane).worker, .idle⟩ h.fleet.plane
      (m.worker.turn h.fleet.plane).plane f := by
    refine Member.Stepped.of_carries carries ?_ ?_ ?_ (fun other _ => same other)
      (congrArg Array.size lives)
    · simp [idle]
    · simp [idle]
    · simp [idle]
  rw [turned]
  refine orderly.replace found idle stepped.toEffect ?_ ?_ (Or.inl rfl)
  · intro _
    refine (orderly.sound.kept number m found ?_).stepped stepped
    intro ended
    exact Stage.noConfusion (idle.symm.trans ended)
  · intro _
    rw [same]
    exact (orderly.sound.made number m found).idle idle

/-- A history after a worker that was never started became a starting one. -/
def launch (h : History σ) (engine : Engine) (number : Nat) (w : Worker σ) : History σ := {
  h with
  engine
  fleet := ⟨h.fleet.plane, h.fleet.members.setIfInBounds number ⟨w, .starting⟩⟩ }

variable {engine : Engine}

/-- The members after one of them was launched. -/
theorem getElem?_launch (found : h.fleet.members[number]? = some m) (engine : Engine)
    (w : Worker σ) (other : Nat) :
    (h.launch engine number w).fleet.members[other]? =
      if other = number then some ⟨w, .starting⟩ else h.fleet.members[other]? :=
  Fleet.getElem?_set found _ other

/-- A history stays sound when a worker is launched. -/
theorem Sound.launch (sound : h.Sound inputs) (found : h.fleet.members[number]? = some m)
    (idle : m.stage = .idle) (core : Option Nat) (reporter : Reporter)
    (registered : engine.registered = h.engine.registered ++ [number]) :
    (h.launch engine number { m.worker with core, reporter }).Sound inputs := by
  -- Placing the worker on a core changes its report only, and nothing of what it moved.
  have kept := sound.kept number m found fun ended => Stage.noConfusion (idle.symm.trans ended)
  have starts : Member.Kept ⟨{ m.worker with core, reporter }, .starting⟩
      (h.flows number ++ {}) := by
    rw [Flow.append_empty]
    exact ⟨kept.custody, kept.received, kept.settled,
      fun impossible => Stage.noConfusion impossible⟩
  have replaced := sound.replace found (m.start_effect idle h.fleet.plane core reporter)
    (fun _ => starts) fun impossible => Stage.noConfusion impossible
  rw [replace_still] at replaced
  refine ⟨replaced.atRest, replaced.held, replaced.squared, ?_, replaced.made, replaced.fresh,
    replaced.distinct⟩
  intro other n there known
  refine replaced.kept other n there fun ended => ?_
  have old := known ended
  show other ∈ h.engine.registered
  rw [History.launch, registered, List.mem_append, List.mem_singleton] at old
  obtain before | rfl := old
  · exact before
  · -- The worker that starts is not over.
    rw [getElem?_launch found, if_pos rfl, Option.some.injEq] at there
    subst there
    exact Stage.noConfusion ended

/-- A worker that is launched is the last of the running ones. -/
theorem Roster.launch (roster : h.Roster closed live) (found : h.fleet.members[number]? = some m)
    (idle : m.stage = .idle) (w : Worker σ) {claim : CoreClaim}
    (registered : engine.registered = h.engine.registered ++ [number])
    (cores : engine.cores.Holds (live.map Placed.claim ++ [claim])) :
    (h.launch engine number w).Roster closed (live ++ [⟨number, claim⟩]) := by
  have members := getElem?_launch found engine w
  -- Only the worker that starts changes, and it was not registered before.
  have apart : ∀ other ∈ h.engine.registered,
      (h.launch engine number w).fleet.members[other]? = h.fleet.members[other]? := by
    intro other there
    refine (members other).trans (if_neg ?_)
    rintro rfl
    exact roster.unregistered found idle there
  have closedApart : ∀ other ∈ closed,
      (h.launch engine number w).fleet.members[other]? = h.fleet.members[other]? := by
    intro other there
    exact apart other (by rw [roster.registered]; exact List.mem_append_left _ there)
  refine ⟨?_, ?_, ?_, ?_, ?_, ?_, ?_⟩
  · rw [List.map_append, ← List.append_assoc, ← roster.registered]
    exact registered
  · show engine.registered.Nodup
    rw [registered]
    refine List.nodup_append.mpr ⟨roster.once, List.nodup_singleton number, ?_⟩
    intro other there last single
    rw [List.mem_singleton.mp single]
    rintro rfl
    exact roster.unregistered found idle there
  · intro other there
    rw [closedApart other there]
    exact roster.finished other there
  · intro placed there
    -- there := List.mem_append.mp there | Those started before are as they were, and the new one is
    -- no longer idle.
    obtain there | there := List.mem_append.mp there
    · rw [apart placed.member (by
        rw [roster.registered]
        exact List.mem_append_right _ (List.mem_map_of_mem there))]
      exact roster.started placed there
    · rw [List.mem_singleton.mp there]
      exact ⟨_, (members number).trans (if_pos rfl), Stage.noConfusion⟩
  · intro other n there unknown
    rw [History.launch, registered, List.mem_append, List.mem_singleton, not_or] at unknown
    rw [members, if_neg unknown.2] at there
    exact roster.others other n there unknown.1
  · -- The final counters are of closed workers, none of which changed.
    refine roster.finals.trans (List.map_congr_left ?_)
    intro other there
    rw [Fleet.counters, Fleet.counters, closedApart other there]
  · rw [List.map_append]
    exact cores

/-- Nobody was asked to stop when a worker is launched. -/
theorem Patient.launch (patient : h.Patient live) (found : h.fleet.members[number]? = some m)
    (idle : m.stage = .idle) (core : Option Nat) (reporter : Reporter) (claim : CoreClaim)
    (created : h.fleet.plane.life m.worker.life = .created) :
    (h.launch engine number { m.worker with core, reporter }).Patient
      (live ++ [⟨number, claim⟩]) := by
  -- Whoever was running is another worker, and the new one is just created.
  intro placed there
  obtain there | there := List.mem_append.mp there
  · obtain ⟨n, here, unasked⟩ := patient placed there
    have apart : placed.member ≠ number := by
      rintro rfl
      rw [found, Option.some.injEq] at here
      subst here
      rw [Member.Unasked, idle] at unasked
      simp at unasked
    exact ⟨n, (getElem?_launch found _ _ _).trans ((if_neg apart).trans here), unasked⟩
  · rw [List.mem_singleton.mp there]
    exact ⟨_, (getElem?_launch found _ _ number).trans (if_pos rfl), Or.inl ⟨rfl, created⟩⟩

/-- A worker may be started on a core. -/
theorem Orderly.launch (orderly : h.Orderly inputs closed live)
    (found : h.fleet.members[number]? = some m) (idle : m.stage = .idle) (core : Option Nat)
    (reporter : Reporter) {claim : CoreClaim} {preference : CorePreference} {dedicated : Bool}
    (assigned : h.engine.cores.assign preference dedicated = .ok (claim, engine.cores))
    (registered : engine.registered = h.engine.registered ++ [number]) :
    (h.launch engine number { m.worker with core, reporter }).Orderly inputs closed
      (live ++ [⟨number, claim⟩]) := by
  -- The core was assigned, so its claim is held by the new worker.
  obtain ⟨sound, roster, patient⟩ := orderly
  refine ⟨sound.launch found idle core reporter registered, ?_, ?_⟩
  · exact roster.launch found idle _ registered (roster.cores.assign assigned)
  · exact patient.launch found idle core reporter claim ((sound.made number m found).idle idle)

/-- Asking one running worker to stop asks none of the others. -/
theorem Orderly.ask (orderly : h.Orderly inputs closed (placed :: rest)) :
    (h.ask placed).Sound inputs ∧ (h.ask placed).Roster closed (placed :: rest) ∧
      (h.ask placed).Patient rest := by
  -- Each worker has a lifecycle of its own, so asking one asks no other.
  obtain ⟨sound, roster, patient⟩ := orderly
  obtain ⟨m, found, started⟩ := roster.started placed (List.mem_cons_self ..)
  have asked : h.ask placed =
      { h with fleet := { h.fleet with plane := h.fleet.plane.requestStop m.worker.life } } := by
    rw [History.ask, Fleet.requestStop, found]
  refine ⟨sound.ask found started, ?_, ?_⟩
  · rw [asked]
    exact roster.congr rfl rfl rfl rfl
  · intro other there
    obtain ⟨n, here, unasked⟩ := patient other (List.mem_cons_of_mem _ there)
    have apart : other.member ≠ placed.member := by
      have once := roster.once
      rw [roster.registered, List.map_cons] at once
      have fresh := (List.nodup_cons.mp (List.nodup_append.mp once).2.1).1
      intro same
      exact fresh (same ▸ List.mem_map_of_mem there)
    have alike : (h.fleet.plane.requestStop m.worker.life).life n.worker.life =
        h.fleet.plane.life n.worker.life := by
      refine Member.lives_setLife _ _ _ _ fun clash => apart ?_
      exact sound.distinct other.member placed.member n m here found clash
    rw [asked]
    refine ⟨n, here, ?_⟩
    rw [Member.Unasked]
    show n.stage = .starting ∧ (h.fleet.plane.requestStop m.worker.life).life _ = _ ∨
      n.stage = .polling ∧ (h.fleet.plane.requestStop m.worker.life).life _ = _
    rw [alike]
    exact unasked

/-- Whatever happens while a worker is waited for keeps the records, and asks nobody else. -/
theorem waited_kept (waited : Relation.ReflTransGen (Goes inputs quiet) h after)
    (sound : h.Sound inputs) (roster : h.Roster closed live) (patient : h.Patient rest) :
    after.Sound inputs ∧ after.Roster closed live ∧ after.Patient rest ∧
      after.engine = h.engine ∧ after.finals = h.finals := by
  -- By induction on what happens, each of which keeps all of it.
  induction waited with
  | refl => exact ⟨sound, roster, patient, rfl, rfl⟩
  | tail _ goes ih =>
    obtain ⟨sound, roster, patient, engine, finals⟩ := ih
    exact ⟨goes.sound sound, goes.roster roster, goes.patient sound patient,
      goes.engine.1.trans engine, goes.engine.2.trans finals⟩

/-- A worker that was asked and waited for can be joined. -/
theorem Orderly.join {ended : History σ} (orderly : h.Orderly inputs closed (placed :: rest))
    (waited : Relation.ReflTransGen (Goes inputs quiet) (h.ask placed) ended)
    (finished : ended.fleet.hasEnded placed.member = true) :
    (ended.join placed).Orderly inputs (closed ++ [placed.member]) rest ∧
      ended.engine = h.engine ∧ ended.finals = h.finals := by
  -- Asking, waiting and joining keep the records, one after another.
  obtain ⟨sound, roster, patient⟩ := orderly.ask
  obtain ⟨sound, roster, patient, engine, finals⟩ := waited_kept waited sound roster patient
  exact ⟨⟨sound.congr rfl rfl rfl rfl, roster.join finished, patient⟩, engine, finals⟩

/-- Which workers are running does not matter to the records. -/
theorem Orderly.setRunning (orderly : h.Orderly inputs closed live) (running : List Placed) :
    ({ h with engine := { h.engine with running } } : History σ).Orderly inputs closed live :=
  ⟨orderly.sound.congr rfl rfl rfl rfl, orderly.roster.congr rfl rfl rfl rfl, orderly.patient⟩

/-- Stopping workers keeps the records, and moves all of them to those that were stopped. -/
theorem Stops.orderly (stops : Stops inputs quiet live h after)
    (orderly : h.Orderly inputs closed live) :
    after.Orderly inputs (closed ++ live.map Placed.member) [] ∧
      after.engine.running = h.engine.running := by
  -- Each worker that is joined moves over to those that were stopped.
  induction stops generalizing closed with
  | none h => exact ⟨by simpa using orderly, rfl⟩
  | @next placed rest h ended after waited finished later ih =>
    obtain ⟨joined, engine, -⟩ := orderly.join waited finished
    obtain ⟨orderly, running⟩ := ih joined
    have same : (ended.join placed).engine.running = h.engine.running := by
      show ended.engine.running = _
      rw [engine]
    refine ⟨?_, running.trans same⟩
    rwa [List.append_assoc] at orderly

/-- Nobody was asked to stop when a plan is built, whether it is refused or not. -/
theorem Patient.build (patient : h.Patient live) (sound : h.Sound inputs) (plan : WorkerPlan σ) :
    ({ h with fleet := (h.fleet.build plan).2 } : History σ).Patient live := by
  -- A new worker has a lifecycle of its own, and one that is refused has none.
  intro placed there
  obtain ⟨n, here, unasked⟩ := patient placed there
  have made := sound.made placed.member n here
  obtain refused | ⟨w, plane, makes, built⟩ := h.fleet.build_cases plan
  · have leaves := h.fleet.plane.closeEnds_leaves plan.input plan.output
    rw [refused]
    refine ⟨n, here, ?_⟩
    rw [Member.Unasked, Plane.life] at unasked ⊢
    rw [leaves.lives]
    exact unasked
  · have inside := (Array.getElem?_eq_some_iff.mp here).1
    rw [built]
    refine ⟨n, ?_, ?_⟩
    · show (h.fleet.members.push _)[placed.member]? = _
      rw [Array.getElem?_push, if_neg (Nat.ne_of_lt inside)]
      exact here
    · rw [Member.Unasked, Plane.life, Array.getD_eq_getD_getElem?] at unasked ⊢
      rw [makes.lives, Array.getElem?_push, if_neg (Nat.ne_of_lt made.life)]
      exact unasked

/-- Every reachable history is orderly. -/
theorem Reachable.orderly (reached : Reachable inputs h) :
    ∃ closed, h.Orderly inputs closed h.engine.running := by
  -- By induction on the history: each kind of event keeps the records in its own way.
  induction reached with
  | start cores settings atRest =>
    refine ⟨[], ⟨atRest, ?_, ?_, ?_, ?_, fun _ _ => rfl, ?_⟩,
      ⟨rfl, List.nodup_nil, ?_, ?_, ?_, rfl, Cores.make_holds cores⟩, ?_⟩
    · exact fun k => Nat.zero_le _
    · exact fun k _ _ => rfl
    · simp
    · simp
    · simp
    · simp
    · simp [Engine.make]
    · simp
    · simp [Patient, Engine.make]
  | goes _ goes ih =>
    obtain ⟨closed, orderly⟩ := ih
    rw [goes.engine.1]
    exact ⟨closed, orderly.goes goes⟩
  | @build h _ plan held ih =>
    obtain ⟨closed, orderly⟩ := ih
    refine ⟨closed, orderly.sound.build held, ?_, orderly.patient.build orderly.sound plan⟩
    -- ⟨w, plane, -, built⟩ | A refused plan leaves everything as it was.
    obtain refused | ⟨w, plane, -, built⟩ := h.fleet.build_cases plan
    · exact orderly.roster.congr (by rw [refused]) rfl rfl rfl
    · rw [built]
      exact orderly.roster.add plane w
  | poll _ found idle alive lives carries ih =>
    obtain ⟨closed, orderly⟩ := ih
    exact ⟨closed, orderly.poll found idle alive lives carries⟩
  | dismiss _ found idle ih =>
    obtain ⟨closed, orderly⟩ := ih
    exact ⟨closed, orderly.dismiss found idle⟩
  | disable _ disabled ih =>
    obtain ⟨closed, ⟨sound, roster, patient⟩⟩ := ih
    exact ⟨closed, sound.congr rfl rfl rfl rfl,
      { roster with cores := roster.cores.disable disabled }, patient⟩
  | @spawn h _ number m found idle used preference ih =>
    obtain ⟨closed, orderly⟩ := ih
    -- ⟨claim | A worker that could not be spawned is dismissed, and another is launched on its core.
    obtain ⟨_, refused⟩ | ⟨claim, cores, pins, core, reporter, assigned, spawned⟩ :=
      h.engine.spawn_cases found idle preference
    · rw [refused]
      exact ⟨closed, orderly.dismiss found idle⟩
    · rw [spawned]
      exact ⟨closed, orderly.launch found idle core reporter assigned rfl⟩
  | @stop h after _ shuts ih =>
    obtain ⟨closed, orderly⟩ := ih
    obtain ⟨orderly, running⟩ := Stops.orderly shuts (orderly.setRunning [])
    rw [running]
    exact ⟨_, orderly⟩

end History

end PacketPlane
