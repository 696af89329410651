import Mathlib.Data.List.Permutation
import PacketPlane.Proofs.Fleet.Progress
import PacketPlane.Proofs.Worker.Course

/-! Timing: when a worker sees the request to stop does not matter to what its packets come to. -/

namespace PacketPlane

/-- What others may do between two turns of a worker: anything that leaves buffers, rings and taps
alone. -/
structure Plane.Quiet (before after : Plane) : Prop where
  buffers : after.buffers = before.buffers
  rings : after.rings = before.rings
  taps : after.taps = before.taps
  atRest : before.AtRest → after.AtRest

namespace Worker

variable {σ : Type}

/-- A number of turns, whatever the lifecycle says, amid what others do before each of them and after
the last. -/
def turnsAmid (w : Worker σ) (others : Nat → Plane → Plane) (plane : Plane) : Nat → Turn σ
  -- Others are told how many turns are left.
  | 0 => ⟨0, false, w, others 0 plane⟩
  | left + 1 =>
    let turn := w.turn (others (left + 1) plane)
    if turn.crashed then turn else turn.worker.turnsAmid others turn.plane left

/-- A run that sees the request to stop after a number of turns, amid what others do. -/
def stopAfter (w : Worker σ) (others : Nat → Plane → Plane) (plane : Plane) (count : Nat) :
    Turn σ :=
  -- Start, turns, drain, end.
  conclude ((w.begin plane).turnsAmid others
    (plane.advanceLife w.life .created .running).2 count)

/-- Turns that nobody interferes with are turns amid others who do nothing. -/
theorem turns_eq_turnsAmid (w : Worker σ) (p : Plane) (bound : Nat) :
    ∃ count ≤ bound, w.turns p bound = w.turnsAmid (fun _ plane => plane) p count := by
  -- Turns stop early when somebody asks for it.
  induction bound generalizing w p with
  | zero => exact ⟨0, Nat.le_refl 0, rfl⟩
  | succ bound ih =>
    rw [turns]
    by_cases running : p.life w.life = .running
    · obtain ⟨count, few, same⟩ := ih (w.turn p).worker (w.turn p).plane
      refine ⟨count + 1, Nat.succ_le_succ few, ?_⟩
      simp only [if_pos running, turnsAmid, same]
    · rw [if_neg running]
      exact ⟨0, Nat.zero_le _, rfl⟩

/-- A run that nobody interferes with sees the request to stop after some number of turns. -/
theorem run_eq_stopAfter (w : Worker σ) (p : Plane) (bound : Nat) :
    ∃ count ≤ bound, w.run p bound = w.stopAfter (fun _ plane => plane) p count := by
  -- The turns of a run are so many turns with nobody interfering. A run that may not begin has none.
  obtain ⟨⟨taken, q⟩, advanced⟩ : ∃ advance, p.advanceLife w.life .created .running = advance :=
    ⟨_, rfl⟩
  have begun : p.advanceLife (w.begin p).life .created .running = (taken, q) := advanced
  cases taken with
  | true =>
    obtain ⟨count, few, same⟩ := (w.begin p).turns_eq_turnsAmid q bound
    refine ⟨count, few, ?_⟩
    rw [run, stopAfter, begun, advanced, conclude]
    simp only [same]
  | false =>
    refine ⟨0, Nat.zero_le _, ?_⟩
    rw [run, stopAfter, begun, advanced]
    rfl

/-- A worker before its run, with all packets it will ever see on its input ring, nothing on its hands,
and an output that cannot refuse any of them. -/
structure Fed (treat : Treatment σ) (w : Worker σ) (p : Plane) : Prop where
  treats : w.process.Treats treat
  accepted : w.settings.fault? = none
  persistent : w.settings.drainAttempts ≠ 0
  fresh : w.backlog.pending = []
  atRest : p.AtRest
  input : ∃ number, w.input = .ring number
  room : ∀ target, w.target? = some target → ∃ number, target = .ring number ∧
    w.input ≠ .ring number ∧
    (p.contents (.ring number)).length + (p.contents w.input.place).length ≤ p.ringCapacity number
  held : ∃ l : Ledger, l.Reachable ∧ l.buffers = p.buffers ∧
    (p.contents w.input.place).Subperm l.packets ∧
    (w.capture ≠ none → ∀ packet,
      l.references packet + (p.contents w.input.place).count packet < UInt32.size)

end Worker

/-- A backlog is empty when nothing waits. -/
theorem Backlog.isEmpty_iff {b : Backlog} : b.isEmpty = true ↔ b.pending = [] :=
  -- A backlog is as empty as its list.
  List.isEmpty_iff

/-- Packets taken off a ring are the oldest ones there. -/
theorem Plane.dequeueBulk_taken {p : Plane} (atRest : p.AtRest) (number limit : Nat) :
    (p.dequeueBulk number limit).1 = (p.contents (.ring number)).take limit := by
  -- A ring at rest holds a list, and gives the front of it.
  rw [dequeueBulk, contents, ringAt?]
  cases found : p.ring? number with
  | none => simp
  | some r =>
    obtain ⟨items, held⟩ := atRest (.ring number) r found
    simp only [Option.map_some, Option.getD_some, held.toList_eq]
    exact (held.dequeueBulk_holds limit).1

namespace Desk

variable {σ : Type} {treat : Treatment σ} {w : Worker σ} {p q : Plane}

/-- A worker does not notice what others do quietly. -/
theorem Clear.quiet (clear : Clear treat ⟨w, p, [], {}⟩) {number : Nat}
    (input : w.input = .ring number) (quiet : p.Quiet q) :
    Clear treat ⟨w, q, [], {}⟩ ∧
      outlook treat ⟨w, q, [], {}⟩ = outlook treat ⟨w, p, [], {}⟩ := by
  -- Rings, buffers and taps are all that the outlook is made of, and others leave them be.
  have same : ∀ k, q.contents (.ring k) = p.contents (.ring k) := by
    intro k
    simp only [Plane.contents, Plane.ringAt?, Plane.ring?, quiet.rings]
  have sent : (⟨w, q, [], {}⟩ : Desk σ).sent = (⟨w, p, [], {}⟩ : Desk σ).sent := by
    simp only [Desk.sent]
    cases output : w.target? with
    | none => rfl
    | some target =>
      obtain ⟨k, rfl, -⟩ := clear.room target output
      exact same k
  refine clear.still rfl (quiet.atRest clear.atRest) (fun _ => rfl) ?_ ?_ (List.Sublist.refl _)
    (Plane.ringCapacity_congr quiet.rings)
  · simp only [Desk.coming, input]
    exact same number
  · simp only [course, quiet.buffers, quiet.taps, sent]

/-- A turn keeps a worker clear, and its outlook as it is. -/
theorem Clear.turn (clear : Clear treat ⟨w, p, [], {}⟩) :
    (w.turn p).crashed = false ∧ Clear treat ⟨(w.turn p).worker, (w.turn p).plane, [], {}⟩ ∧
      outlook treat ⟨(w.turn p).worker, (w.turn p).plane, [], {}⟩ =
        outlook treat ⟨w, p, [], {}⟩ := by
  -- The strokes of the turn keep a worker clear. Its push may not give up anything, and need not,
  -- since the output accepts all.
  have alive := w.turn_alive p clear.treats.survives
  refine ⟨alive, ?_⟩
  obtain ⟨w', q, began, pulled, strokes, same⟩ := w.turn_strokes false p alive
  obtain ⟨before, outlook⟩ := clear.strokes strokes
  have pushed : Strokes false ⟨w', q, [], {}⟩ ⟨(w'.push q).1, (w'.push q).2, [], {}⟩ := by
    cases output : w'.target? with
    | none => exact w'.push_idle output (before.idle output) q
    | some target =>
      apply w'.push_strokes output q
      right
      obtain ⟨-, -, empty⟩ := before.offer output rfl
      exact empty
  have finished := pushed.trans (w'.finishTurn_strokes began pulled q)
  rw [same]
  obtain ⟨after, kept⟩ := before.strokes finished
  exact ⟨after, kept.trans outlook⟩

/-- One attempt pushes out all that waits. -/
theorem Clear.attempt (clear : Clear treat ⟨w, p, [], {}⟩) {target : Target}
    (output : w.target? = some target) :
    Clear treat ⟨(w.attempt p).1, (w.attempt p).2, [], {}⟩ ∧
      outlook treat ⟨(w.attempt p).1, (w.attempt p).2, [], {}⟩ = outlook treat ⟨w, p, [], {}⟩ ∧
      (w.attempt p).1.backlog.pending = [] := by
  -- The output has room for all that waits, so the offer empties the backlog.
  obtain ⟨after, same⟩ := clear.strokes (w.attempt_strokes output p)
  refine ⟨after, same, ?_⟩
  obtain ⟨⟨outcome, backlog, p'⟩, tried⟩ : ∃ flushed,
      w.backlog.tryFlush target.sender p = flushed := ⟨_, rfl⟩
  obtain ⟨-, -, empty⟩ := clear.offer output tried
  simp only [Worker.attempt, output, tried]
  exact empty

/-- A worker that may make an attempt pushes out all that waits, and gives nothing up. -/
theorem Clear.flushPending (clear : Clear treat ⟨w, p, [], {}⟩)
    (persistent : w.settings.drainAttempts ≠ 0) :
    Clear treat ⟨(w.flushPending p).1, (w.flushPending p).2, [], {}⟩ ∧
      outlook treat ⟨(w.flushPending p).1, (w.flushPending p).2, [], {}⟩ =
        outlook treat ⟨w, p, [], {}⟩ := by
  -- A backlog that is empty from the start needs no attempt, another needs one.
  have done : ∀ (w : Worker σ) (p : Plane) (count : Nat), w.backlog.pending = [] →
      w.attempts p count = (w, p) := by
    intro w p count empty
    cases count with
    | zero => rfl
    | succ count => rw [Worker.attempts, if_pos (Backlog.isEmpty_iff.mpr empty)]
  have flushed : ∀ (w' : Worker σ) (p' : Plane), w'.backlog.pending = [] →
      w.attempts p w.settings.drainAttempts.toNat = (w', p') → w.flushPending p = (w', p') := by
    intro w' p' empty tried
    simp only [Worker.flushPending, tried]
    rw [if_pos (Backlog.isEmpty_iff.mpr empty)]
  by_cases empty : w.backlog.pending = []
  · rw [flushed w p empty (done w p _ empty)]
    exact ⟨clear, rfl⟩
  · -- The first attempt leaves nothing for the others.
    obtain ⟨count, some⟩ : ∃ count, w.settings.drainAttempts.toNat = count + 1 := by
      apply Nat.exists_eq_succ_of_ne_zero
      intro zero
      exact persistent (UInt32.toNat_inj.mp zero)
    cases output : w.target? with
    | none => exact absurd (clear.idle output) empty
    | some target =>
      obtain ⟨after, same, nothing⟩ := clear.attempt output
      have tried : w.attempts p w.settings.drainAttempts.toNat = w.attempt p := by
        rw [some, Worker.attempts, if_neg (mt Backlog.isEmpty_iff.mp empty)]
        exact done _ _ _ nothing
      rw [flushed _ _ nothing tried]
      exact ⟨after, same⟩

/-- A batch of a drain takes what it asks for off the input, and keeps a worker clear. -/
theorem Clear.drainBatch (clear : Clear treat ⟨w, p, [], {}⟩)
    (persistent : w.settings.drainAttempts ≠ 0) {number left : Nat} (input : w.input = .ring number)
    (burst : w.settings.burstSize ≠ 0) (more : left ≠ 0)
    (enough : left ≤ (p.contents (.ring number)).length) :
    let batch := w.drainBatch p left
    batch.crashed = false ∧ batch.pulled = min left w.settings.burstSize.toNat ∧
      Clear treat ⟨batch.worker, batch.plane, [], {}⟩ ∧
      outlook treat ⟨batch.worker, batch.plane, [], {}⟩ = outlook treat ⟨w, p, [], {}⟩ := by
  -- There are enough packets for the batch to be full, so it finds some. Its strokes and its flush
  -- keep the worker clear.
  have alive := w.drainBatch_alive p left clear.treats.survives
  have taken := Plane.dequeueBulk_taken clear.atRest number (min left w.settings.burstSize.toNat)
  have size : w.settings.burstSize.toNat ≠ 0 := fun zero => burst (UInt64.toNat_inj.mp zero)
  have length : (p.dequeueBulk number (min left w.settings.burstSize.toNat)).1.length =
      min left w.settings.burstSize.toNat := by
    rw [taken, List.length_take]
    exact Nat.min_eq_left (Nat.le_trans (Nat.min_le_left _ _) enough)
  have found : (p.dequeueBulk number (min left w.settings.burstSize.toNat)).1 ≠ [] := by
    rw [← List.length_pos_iff_ne_nil, length]
    omega
  obtain ⟨w', q, strokes, same⟩ := w.drainBatch_strokes false p left input alive found
  obtain ⟨before, outlook⟩ := clear.strokes strokes
  have settings : w'.settings = w.settings :=
    congrArg Fixture.settings (Worker.Strokes.fixed strokes)
  obtain ⟨after, flushed⟩ := before.flushPending (settings ▸ persistent)
  rw [same]
  exact ⟨rfl, length, after, flushed.trans outlook⟩

/-- The input of a clear worker is not its output. -/
theorem Clear.output_ne {hand : List Packet} {tally : Tally} (clear : Clear treat ⟨w, p, hand, tally⟩)
    {number : Nat} (input : w.input = .ring number) : w.output ≠ .ring number := by
  -- Input and output of a clear worker are apart.
  intro output
  apply clear.apart
  simp only [Worker.target?, output, input]
  rfl

/-- A batch of a drain takes as many packets off the input as it says. -/
theorem Clear.drainBatch_left (clear : Clear treat ⟨w, p, [], {}⟩) {number : Nat}
    (input : w.input = .ring number) (left : Nat) :
    let batch := w.drainBatch p left
    batch.worker.fixture = w.fixture ∧
      batch.pulled + (batch.plane.contents (.ring number)).length =
        (p.contents (.ring number)).length := by
  -- What a ring loses by a batch is what the batch pulled, as none of it comes back by the output.
  intro batch
  have alive := w.drainBatch_alive p left clear.treats.survives
  obtain ⟨pulled, count, f, carries, same⟩ := w.drainBatch_leads p left alive
  refine ⟨carries.fixed, ?_⟩
  have moved := carries.hauls.ring_length clear.atRest number
  rw [if_pos input, if_neg (clear.output_ne input), same, count] at moved
  exact moved

/-- A drain of all that is queued keeps a worker clear and leaves nothing on its input. -/
theorem Clear.drainFrom (clear : Clear treat ⟨w, p, [], {}⟩)
    (persistent : w.settings.drainAttempts ≠ 0) {number left : Nat} (input : w.input = .ring number)
    (burst : w.settings.burstSize ≠ 0) (all : left = (p.contents (.ring number)).length) :
    let drained := w.drainFrom p left
    drained.crashed = false ∧ drained.worker.fixture = w.fixture ∧
      drained.plane.contents (.ring number) = [] ∧
      Clear treat ⟨drained.worker, drained.plane, [], {}⟩ ∧
      outlook treat ⟨drained.worker, drained.plane, [], {}⟩ = outlook treat ⟨w, p, [], {}⟩ := by
  -- Every batch takes at least one packet.
  induction left using Nat.strongRecOn generalizing w p with
  | ind left ih =>
    rw [Worker.drainFrom]
    by_cases none : left = 0
    · rw [if_pos none]
      have empty : p.contents (.ring number) = [] := by
        rw [← List.length_eq_zero_iff, ← all, none]
      exact ⟨rfl, rfl, empty, clear, rfl⟩
    · rw [if_neg none]
      have size : w.settings.burstSize.toNat ≠ 0 := fun zero => burst (UInt64.toNat_inj.mp zero)
      obtain ⟨alive, pulled, after, outlook⟩ :=
        clear.drainBatch persistent input burst none (Nat.le_of_eq all)
      obtain ⟨fixed, moved⟩ := clear.drainBatch_left input left
      have settings : (w.drainBatch p left).worker.settings = w.settings :=
        congrArg Fixture.settings fixed
      have goes : ¬ ((w.drainBatch p left).crashed ∨ (w.drainBatch p left).pulled = 0) := by
        rw [alive, pulled]
        simp only [Bool.false_eq_true, false_or]
        omega
      simp only [if_neg goes]
      obtain ⟨lived, kept, empty, rest, same⟩ := ih (left - (w.drainBatch p left).pulled) (by omega)
        after (settings ▸ persistent) ((congrArg Fixture.input fixed).trans input)
        (settings ▸ burst) (by omega)
      exact ⟨lived, kept.trans fixed, empty, rest, same.trans outlook⟩

/-- Turns amid what others do quietly keep a worker clear, and its outlook as it is. -/
theorem Clear.turnsAmid (clear : Clear treat ⟨w, p, [], {}⟩) {number : Nat}
    (input : w.input = .ring number) {others : Nat → Plane → Plane}
    (quiet : ∀ left q, Plane.Quiet q (others left q)) (count : Nat) :
    let turned := w.turnsAmid others p count
    turned.crashed = false ∧ turned.worker.fixture = w.fixture ∧
      Clear treat ⟨turned.worker, turned.plane, [], {}⟩ ∧
      outlook treat ⟨turned.worker, turned.plane, [], {}⟩ = outlook treat ⟨w, p, [], {}⟩ := by
  -- One turn follows the other.
  induction count generalizing w p with
  | zero => exact ⟨rfl, rfl, clear.quiet input (quiet 0 p)⟩
  | succ left ih =>
    obtain ⟨before, unchanged⟩ := clear.quiet input (quiet (left + 1) p)
    obtain ⟨alive, after, same⟩ := before.turn
    obtain ⟨pulled, -, leads⟩ := w.turn_leads (others (left + 1) p) alive
    have fixed := leads.fixed
    obtain ⟨lived, kept, rest, outlook⟩ := ih after ((congrArg Fixture.input fixed).trans input)
    simp only [Worker.turnsAmid, alive, Bool.false_eq_true, if_false]
    exact ⟨lived, kept.trans fixed, rest, outlook.trans (same.trans unchanged)⟩

/-- A drain takes all that is queued. -/
theorem drainCount_eq (atRest : p.AtRest) {number : Nat} (input : w.input = .ring number) :
    w.drainCount p = (p.contents (.ring number)).length := by
  -- A ring at rest counts what it holds.
  simp only [Worker.drainCount, input]
  exact p.ringCount_eq atRest number

/-- The end of a run leaves nothing to come and nothing waiting, and keeps the outlook as it is. -/
theorem Clear.conclude (clear : Clear treat ⟨w, p, [], {}⟩)
    (persistent : w.settings.drainAttempts ≠ 0) {number : Nat} (input : w.input = .ring number)
    (burst : w.settings.burstSize ≠ 0) :
    let done := Worker.conclude ⟨0, false, w, p⟩
    done.crashed = false ∧ done.worker.fixture = w.fixture ∧
      done.worker.backlog.pending = [] ∧ done.plane.contents (.ring number) = [] ∧
      outlook treat ⟨done.worker, done.plane, [], {}⟩ = outlook treat ⟨w, p, [], {}⟩ := by
  obtain ⟨alive, fixed, empty, drained, outlook⟩ :=
    clear.drainFrom persistent input burst (drainCount_eq clear.atRest input)
  simp only [Worker.conclude, Worker.drain, alive, Bool.false_eq_true, if_false]
  generalize w.drainFrom p (w.drainCount p) = last at fixed empty drained outlook ⊢
  have settings : last.worker.settings = w.settings := congrArg Fixture.settings fixed
  have input' : last.worker.input = .ring number := (congrArg Fixture.input fixed).trans input
  obtain ⟨after, same⟩ := drained.flushPending (settings ▸ persistent)
  obtain ⟨⟨f, carries, pulled⟩, nothing⟩ := last.worker.flushPending_leads last.plane
  have moved := carries.hauls.ring_length drained.atRest number
  rw [if_pos input', if_neg (drained.output_ne input'), pulled, empty] at moved
  have left : (last.worker.flushPending last.plane).2.contents (.ring number) = [] :=
    List.length_eq_zero_iff.mp (by simpa using moved)
  -- The end of a run only publishes what was counted.
  have finished : Stroke false
      ⟨(last.worker.flushPending last.plane).1, (last.worker.flushPending last.plane).2, [], {}⟩ _ :=
    .note rfl rfl rfl rfl ⟨rfl, rfl, rfl, rfl⟩
  obtain ⟨-, ended⟩ := after.stroke finished
  exact ⟨trivial, carries.fixed.trans fixed, nothing, left, (ended.trans same).trans outlook⟩

/-- With nothing to come and nothing waiting, the outlook is what the worker and its plane say. -/
theorem outlook_idle (treat : Treatment σ) (d : Desk σ) (coming : d.coming = []) :
    d.outlook treat = d.course := by
  -- The outlook runs through what is to come.
  rw [outlook, coming]
  rfl

/-- A worker at the start of its run is clear. -/
theorem clear_of_fed (fed : w.Fed treat p) : Clear treat ⟨w, p, [], {}⟩ := by
  -- The output is a ring with room for all, and no other than the input.
  have apart : ∀ number, w.input ≠ .ring number → w.input.place ≠ .ring number := by
    intro number input
    cases ends : w.input with
    | port port => exact Place.noConfusion
    | ring k =>
      rw [ends] at input
      intro same
      exact input (by rw [Place.ring.inj same])
  obtain ⟨l, run, same, owned, small⟩ := fed.held
  refine ⟨fed.treats, ?_, fed.atRest, fun _ => fed.fresh, fun _ => rfl, ?_,
    l, run, same, ?_, small⟩
  · intro there
    obtain ⟨target, output, place⟩ := Option.map_eq_some_iff.mp there
    obtain ⟨number, rfl, other, -⟩ := fed.room target output
    exact apart number other place.symm
  · intro target output
    obtain ⟨number, rfl, -, room⟩ := fed.room target output
    refine ⟨number, rfl, ?_⟩
    simp only [Desk.sent, output, kept, Desk.coming, fed.fresh]
    exact room
  · simp only [kept, Desk.coming, fed.fresh]
    exact owned

end Desk

namespace Worker

variable {σ : Type} {treat : Treatment σ} {w : Worker σ} {p : Plane}

/-- Whenever a run sees the request to stop, its packets come to what they come to when they are taken
one by one: nothing is left on the input, nothing waits, and nothing else was counted or changed. -/
theorem Fed.stopAfter (fed : w.Fed treat p) {others : Nat → Plane → Plane}
    (quiet : ∀ left q, Plane.Quiet q (others left q)) (count : Nat) :
    let done := w.stopAfter others p count
    done.crashed = false ∧ done.worker.fixture = w.fixture ∧ done.worker.backlog.pending = [] ∧
      done.plane.contents w.input.place = [] ∧
      (⟨done.worker, done.plane, [], {}⟩ : Desk σ).course =
        Desk.outlook treat ⟨w, p, [], {}⟩ := by
  -- The outlook is kept by the begin, by every turn, and by the drain, after which nothing is to come
  -- and it is the course itself.
  obtain ⟨number, input⟩ := fed.input
  have burst := (WorkerSettings.fault?_eq_none.mp fed.accepted).1
  have place : w.input.place = .ring number := by
    rw [input]
    rfl
  have begun : Stroke false ⟨w, p, [], {}⟩
      ⟨w.begin p, (p.advanceLife w.life .created .running).2, [], {}⟩ := by
    rw [Plane.advanceLife]
    exact .note rfl rfl rfl rfl ⟨rfl, rfl, rfl, rfl⟩
  obtain ⟨before, started⟩ := (Desk.clear_of_fed fed).stroke begun
  obtain ⟨alive, fixed, after, turned⟩ := before.turnsAmid input quiet count
  simp only [Worker.stopAfter]
  generalize (w.begin p).turnsAmid others (p.advanceLife w.life .created .running).2 count = last
    at alive fixed after turned ⊢
  obtain ⟨pulled, crashed, w', p'⟩ := last
  obtain rfl : crashed = false := alive
  have settings : w'.settings = w.settings := congrArg Fixture.settings fixed
  have input' : w'.input = .ring number := (congrArg Fixture.input fixed).trans input
  obtain ⟨lived, kept, nothing, empty, same⟩ :=
    after.conclude (settings ▸ fed.persistent) input' (settings ▸ burst)
  -- How many packets the last turn pulled is no matter.
  have whole : conclude ⟨pulled, false, w', p'⟩ = conclude ⟨0, false, w', p'⟩ := rfl
  rw [whole, place]
  refine ⟨lived, kept.trans fixed, nothing, empty, ?_⟩
  rw [← Desk.outlook_idle treat, same, turned, started]
  have last : (conclude ⟨0, false, w', p'⟩).worker.input = .ring number :=
    (congrArg Fixture.input kept).trans input'
  simp only [Desk.coming, List.nil_append, last]
  exact empty

/-- A worker with nothing on its hands has counted what its course says. -/
theorem stable_course (idle : w.backlog.pending = []) :
    (⟨w, p, [], {}⟩ : Desk σ).course.stable = w.counters.stable := by
  -- The course adds what waits to the counts, and nothing does.
  simp [Desk.course, Course.stable, Counters.stable, idle, Buffers.totalLen]

/-- The moment of stopping does not matter when the output accepts everything. Whatever others do
quietly, after however many turns the request to stop is seen, a run ends with the same packets in the
same order on the output, the same bytes in all buffers, the same captures and the same counts. A run that
nobody interferes with is one of these. -/
theorem Fed.same_whenever_stopped (fed : w.Fed treat p) {others others' : Nat → Plane → Plane}
    (quiet : ∀ left q, Plane.Quiet q (others left q))
    (quiet' : ∀ left q, Plane.Quiet q (others' left q)) (count count' : Nat) :
    let one := w.stopAfter others p count
    let two := w.stopAfter others' p count'
    one.crashed = false ∧ two.crashed = false ∧
      one.worker.counters.stable = two.worker.counters.stable ∧
      one.worker.memory = two.worker.memory ∧ one.plane.buffers = two.plane.buffers ∧
      one.plane.taps = two.plane.taps ∧
      (∀ target, w.target? = some target →
        one.plane.contents target.place = two.plane.contents target.place) ∧
      ∀ bound, ∃ turns ≤ bound, w.run p bound = w.stopAfter (fun _ plane => plane) p turns := by
  -- Both runs come to the same outlook, and the parts of it are compared.
  intro one two
  obtain ⟨alive, fixed, idle, -, course⟩ := fed.stopAfter quiet count
  obtain ⟨alive', fixed', idle', -, course'⟩ := fed.stopAfter quiet' count'
  have same := course.trans course'.symm
  refine ⟨alive, alive', ?_, congrArg Course.memory same, congrArg Course.buffers same,
    congrArg Course.taps same, ?_, w.run_eq_stopAfter p⟩
  · rw [← stable_course idle, ← stable_course idle']
    exact congrArg Course.stable same
  · intro target output
    have sent := congrArg Course.sent same
    simp only [Desk.course, Desk.sent, target?_eq fixed, target?_eq fixed', output, idle, idle',
      Option.map_some, Option.getD_some, List.append_nil] at sent
    exact sent

/-- Five packets of a pool. -/
def fivePackets : List Packet := [⟨0, 0⟩, ⟨0, 1⟩, ⟨0, 2⟩, ⟨0, 3⟩, ⟨0, 4⟩]

/-- A pool that has handed these out. -/
def fiveLent : Ledger :=
  (({} : Ledger).call (.make "eight" { capacity := 8 } Ledger.reserveAny)).call (.allocBulk 0 5)

/-- The same, with bytes in two of them. -/
def fiveLaden : Ledger :=
  (fiveLent.call (.edit ⟨0, 0⟩ (.copy [1]))).call (.edit ⟨0, 3⟩ (.copy [2, 3]))

/-- A ring with eight places. -/
def eightWide : Ring Packet :=
  { name := "eight", capacity := 8, capacity_valid := Ring.capacity_eight }

/-- A plane with a ring that these packets wait on, and one with nothing on it. -/
def fivePlane : Plane where
  buffers := fiveLaden.buffers
  clocks := #[{ hz := 1000 }]
  lives := #[.created]
  rings := #[{ value := (eightWide.enqueueBulk fivePackets).ring }, { value := eightWide }]

/-- A worker that forwards packets from the first ring to the second. It drains two at a time, and pulls
one in each turn while its clock moves on by a thousand cycles. -/
def paced : Worker Unit where
  id := 0
  input := .ring 0
  output := .ring 1
  process := passThrough Unit
  memory := ()
  backlog := Backlog.make 2 .drop
  pacer := some { cyclesPerPacket := 1000, maxTokens := 1, tokens := 1, last := 0 }
  clock := 0
  watch := none
  watched := []
  capture := none
  life := 0
  reporter := { label := "worker-0" }
  statsInterval := 0
  settings := { burstSize := 2 }

/-- On that plane, this worker has all its packets and room for each of them. -/
theorem paced_fed : paced.Fed (fun _ memory _ => (true, memory, [])) fivePlane := by
  -- All five packets are lent and in the input ring, and the output ring has eight places.
  have empty : eightWide.Holds [] := Ring.holds_make (rfl : Ring.make "eight" 8 = .ok eightWide)
  have full := empty.enqueueBulk_taken fivePackets
  have atRest : fivePlane.AtRest := by
    intro place r found
    match place with
    | .ring 0 =>
      cases found
      exact ⟨_, full⟩
    | .ring 1 =>
      cases found
      exact ⟨_, empty⟩
    | .ring (k + 2) | .received port | .sending port | .tap k => cases found
  have lent : fiveLent.Reachable :=
    (Ledger.Reachable.start.call (.make ..) trivial).call (.allocBulk 0 5) trivial
  have all : fiveLent.packets = fivePackets := by cbv
  have listed : ∀ packet ∈ fivePackets, packet ∈ fiveLent.packets := by
    rw [all]
    exact fun packet member => member
  -- Two of the packets were written to, so that they tell the bytes apart.
  have run : fiveLaden.Reachable :=
    (lent.call (.edit ⟨0, 0⟩ (.copy [1])) (listed _ (by decide))).call (.edit ⟨0, 3⟩ (.copy [2, 3]))
      (listed ⟨0, 3⟩ (by decide))
  have waiting : fivePlane.contents (.ring 0) = fivePackets := by cbv
  have free : fivePlane.contents (.ring 1) = [] := by cbv
  refine ⟨fun _ _ _ _ => ⟨rfl, rfl, rfl⟩, rfl, by decide, rfl, atRest, ⟨0, rfl⟩, ?_, fiveLaden, run,
    rfl, ?_, fun watched => absurd rfl watched⟩
  · intro target output
    cases output
    refine ⟨1, rfl, by decide, ?_⟩
    show (fivePlane.contents (.ring 1)).length + (fivePlane.contents (.ring 0)).length ≤ 8
    rw [free, waiting]
    decide
  · show (fivePlane.contents (.ring 0)).Subperm fiveLent.packets
    rw [waiting, all]

/-- In its first turn this worker pulls one packet of five, and four are left to a drain. Stopped there
or at any other time while its clock runs, it forwards all of them in order and counts the same. -/
theorem same_whenever_stopped_pass_through :
    let ticking := fun (_ : Nat) (plane : Plane) => plane.advanceClock 0 1000
    let turned := paced.turnsAmid ticking fivePlane 1
    turned.plane.contents (.ring 0) = [⟨0, 1⟩, ⟨0, 2⟩, ⟨0, 3⟩, ⟨0, 4⟩] ∧
      ∀ count, let stopped := paced.stopAfter ticking fivePlane count
        stopped.worker.counters.stable.map UInt64.toNat = [5, 5, 3, 3, 0, 0, 0] ∧
          stopped.plane.contents (.ring 1) = fivePackets := by
  have still : ∀ (left : Nat) (q : Plane), q.Quiet q :=
    fun _ _ => ⟨rfl, rfl, rfl, fun atRest => atRest⟩
  have ticks : ∀ (left : Nat) (q : Plane), q.Quiet (q.advanceClock 0 1000) := by
    intro left q
    have rings : Plane.SameRings q (q.advanceClock 0 1000) := Plane.SameRings.congr rfl rfl rfl
    exact ⟨rfl, rfl, rfl, fun atRest => (rings.contents atRest).1⟩
  -- It is enough to look at the run that is stopped at once, which only drains.
  have counted : (paced.stopAfter (fun _ plane => plane) fivePlane 0).worker.counters.stable.map
      UInt64.toNat = [5, 5, 3, 3, 0, 0, 0] := by cbv
  have sent : (paced.stopAfter (fun _ plane => plane) fivePlane 0).plane.contents (.ring 1) =
      fivePackets := by cbv
  refine ⟨by cbv, fun count => ?_⟩
  obtain ⟨-, -, counts, -, -, -, same, -⟩ := paced_fed.same_whenever_stopped ticks still count 0
  exact ⟨(congrArg _ counts).trans counted, (same (.ring 1) rfl).trans sent⟩

end Worker

end PacketPlane
