import PacketPlane.Proofs.Fleet.Steps
import PacketPlane.Proofs.Transmit.Fates
import PacketPlane.Proofs.Worker.Amid
import PacketPlane.Proofs.Worker.Fates
import PacketPlane.Proofs.Worker.Timing

/-! Draining: what was queued when a drain began is taken, and every packet is brought to its fate,
whatever the output and the others do. -/

namespace PacketPlane

namespace Desk

variable {σ : Type}

/-- Work that brings packets to their fates, with turns of others at any time. -/
inductive Works (others : Others) (a : Desk σ) : Desk σ → Fate → Prop
  /-- Nothing has been done yet. -/
  | rest : Works others a a {}
  /-- The worker does something more. -/
  | work {b c : Desk σ} {f g : Fate} (before : Works others a b f) (brings : Brings b c g) :
      Works others a c (f ++ g)
  /-- Others do something at one of their times. -/
  | others {w : Worker σ} {p : Plane} {hand : List Packet} {tally : Tally} {f : Fate}
      (before : Works others a ⟨w, p, hand, tally⟩ f) (time : Nat) :
      Works others a ⟨w, others time p, hand, tally⟩ f

/-- What work comes to, whoever else was at work. -/
structure Comes (a b : Desk σ) (f : Fate) : Prop where
  fixed : b.worker.fixture = a.worker.fixture
  fits : f.Fits a.worker.target?
  custody : (a.moment.kept ++ f.flow.pulled).Perm
    (f.flow.accepted ++ f.flow.released ++ b.moment.kept)
  received : b.moment.received = a.moment.received + UInt64.ofNat f.flow.pulled.length
  settled : b.moment.settled =
    a.moment.settled + UInt64.ofNat (f.flow.accepted.length + f.flow.released.length)
  sent : b.sentCount = a.sentCount + UInt64.ofNat f.sent.length

variable {others : Others} {a b c : Desk σ} {f g : Fate} {pulled more : List Packet}

/-- Work of the worker's own comes to what it brings. -/
theorem Comes.work (comes : Comes a b f) (brings : Brings b c g) : Comes a c (f ++ g) := by
  -- What was brought before and what is brought now follow each other.
  have target : b.worker.target? = a.worker.target? := Worker.target?_eq comes.fixed
  refine ⟨brings.fixed.trans comes.fixed, comes.fits.append (target ▸ brings.fits),
    Moment.custody_trans comes.custody brings.custody, ?_, ?_, ?_⟩
  · show c.moment.received =
      a.moment.received + UInt64.ofNat (f.flow.pulled ++ g.flow.pulled).length
    rw [brings.received, comes.received, List.length_append, UInt64.ofNat_add, UInt64.add_assoc]
  · show c.moment.settled =
      a.moment.settled + UInt64.ofNat ((f.flow.accepted ++ g.flow.accepted).length +
        (f.flow.released ++ g.flow.released).length)
    rw [brings.settled, comes.settled, UInt64.add_assoc, ← UInt64.ofNat_add]
    congr 2
    simp only [List.length_append]
    omega
  · show c.sentCount = a.sentCount + UInt64.ofNat (f.sent ++ g.sent).length
    rw [brings.sent, comes.sent, List.length_append, UInt64.ofNat_add, UInt64.add_assoc]

/-- Work amid others comes to what the worker brought. -/
theorem Works.comes (works : Works others a b f) : Comes a b f := by
  -- Nothing that a worker answers for is in the hands of others.
  induction works with
  | rest =>
    have none := Brings.refl a
    exact ⟨none.fixed, none.fits, none.custody, none.received, none.settled, none.sent⟩
  | work before brings ih => exact ih.work brings
  | others before time ih =>
    exact ⟨ih.fixed, ih.fits, ih.custody, ih.received, ih.settled, ih.sent⟩

end Desk

/-- What others may do while they leave a worker's input ring alone. -/
def Plane.Spares (input : Input) (before after : Plane) : Prop :=
  before.AtRest → after.AtRest ∧ ∀ number, input = .ring number →
    after.contents (.ring number) = before.contents (.ring number)

namespace Desk

variable {σ : Type} {others : Others} {a b c : Desk σ} {f g : Fate} {pulled more : List Packet}

/-- When others leave it alone, an input ring loses what is pulled, and gains what its worker sends when
it is the output as well. -/
theorem Works.input (works : Works others a b f)
    (spares : ∀ time q, Plane.Spares a.worker.input q (others time q)) (atRest : a.plane.AtRest) :
    b.plane.AtRest ∧ ∀ number, a.worker.input = .ring number →
      f.flow.pulled ++ b.plane.contents (.ring number) = a.plane.contents (.ring number) ++
        if a.worker.output = .ring number then f.flow.accepted else [] := by
  -- By induction on the work, during which others leave the input alone.
  induction works with
  | rest => exact ⟨atRest, fun number _ => by simp⟩
  | @work b c f g before brings ih =>
    obtain ⟨middle, one⟩ := ih
    obtain ⟨after, moved⟩ := brings.hauls.places middle
    refine ⟨after, fun number input => ?_⟩
    have fixed := before.comes.fixed
    have here : b.worker.input = .ring number := (congrArg Fixture.input fixed).trans input
    have output : b.worker.output = a.worker.output := congrArg Fixture.output fixed
    have two : g.flow.outOf b.worker.ends (.ring number) ++ c.plane.contents (.ring number) =
        b.plane.contents (.ring number) ++ g.flow.into b.worker.ends (.ring number) :=
      moved (.ring number)
    rw [Flow.outOf_ring, Flow.into_ring, if_pos here, output] at two
    calc f.flow.pulled ++ g.flow.pulled ++ c.plane.contents (.ring number)
        = f.flow.pulled ++ b.plane.contents (.ring number) ++
            if a.worker.output = .ring number then g.flow.accepted else [] := by
          rw [List.append_assoc, two, List.append_assoc]
      _ = a.plane.contents (.ring number) ++
            if a.worker.output = .ring number then f.flow.accepted ++ g.flow.accepted else [] := by
          rw [one number input, List.append_assoc]
          split <;> rfl
  | @others w p hand tally f before time ih =>
    obtain ⟨middle, one⟩ := ih
    obtain ⟨after, same⟩ := spares time p middle
    exact ⟨after, fun number input => by rw [same number input]; exact one number input⟩

/-- Work amid others that pulls packets. -/
def Gets (others : Others) (a b : Desk σ) (pulled : List Packet) : Prop :=
  ∃ f, Works others a b f ∧ f.flow.pulled = pulled

/-- Work that pulls nothing more. -/
theorem Gets.settles (gets : Gets others a b pulled) (settles : Settles b c) :
    Gets others a c pulled := by
  -- Settling pulls nothing.
  obtain ⟨f, works, same⟩ := gets
  obtain ⟨g, brings, none⟩ := settles
  refine ⟨f ++ g, works.work brings, ?_⟩
  show f.flow.pulled ++ g.flow.pulled = pulled
  rw [same, none, List.append_nil]

/-- Work that pulls more. -/
theorem Gets.pulls (gets : Gets others a b pulled) (brings : Brings b c f) :
    Gets others a c (pulled ++ f.flow.pulled) := by
  -- What is pulled now follows what was pulled before.
  obtain ⟨g, works, same⟩ := gets
  refine ⟨g ++ f, works.work brings, ?_⟩
  show g.flow.pulled ++ f.flow.pulled = _
  rw [same]

/-- What stays of a worker stays amid others. -/
theorem Gets.fixed (gets : Gets others a b pulled) : b.worker.fixture = a.worker.fixture := by
  -- Neither the worker nor others change its fixture.
  obtain ⟨f, works, -⟩ := gets
  exact works.comes.fixed

end Desk

namespace Scene

open Desk

variable {σ : Type} {others : Others} {a : Desk σ} {s : Scene σ} {pulled : List Packet}

/-- The worker of a scene between two bursts. -/
def desk (s : Scene σ) : Desk σ :=
  -- There is nothing in its hands.
  ⟨s.worker, s.plane, [], {}⟩

/-- A turn of the others pulls nothing. -/
theorem gets_disturb {hand : List Packet} {tally : Tally}
    (gets : Gets others a ⟨s.worker, s.plane, hand, tally⟩ pulled) :
    Gets others a ⟨s.worker, (s.disturb others).plane, hand, tally⟩ pulled := by
  -- What others do is no work of the worker's.
  obtain ⟨f, works, same⟩ := gets
  exact ⟨f, works.others s.time, same⟩

/-- Attempts to push out what waits pull nothing. -/
theorem gets_attempts (gets : Gets others a s.desk pulled) (count : Nat) :
    Gets others a (s.attempts others count).2.desk pulled := by
  -- One attempt follows the other.
  induction count generalizing s with
  | zero => exact gets
  | succ count ih =>
    rw [attempts]
    split
    · exact gets
    · exact ih ((gets_disturb gets).settles (attempt_settles _ _))

/-- Pushing out all that waits pulls nothing. -/
theorem gets_flush (gets : Gets others a s.desk pulled) :
    Gets others a (s.flush others).desk pulled := by
  -- Attempts pull nothing, and neither does giving up what they leave.
  have tried := gets_attempts gets s.worker.settings.drainAttempts.toNat
  simp only [flush]
  split
  · exact tried
  · exact tried.settles (dropPending_settles _ _)

/-- Processing packets pulls nothing and takes all of them out of the worker's hands, unless the
processor dies. -/
theorem gets_processAll (context : Context) {packets : List Packet} {tally : Tally}
    (gets : Gets others a ⟨s.worker, s.plane, packets, tally⟩ pulled) (alive : s.crashed = false) :
    let done := s.processAll others context packets tally
    (a.worker.process.Survives → done.2.crashed = false) ∧
      (done.2.crashed = false →
        Gets others a ⟨done.2.worker, done.2.plane, [], done.1⟩ pulled) := by
  -- One packet follows the other.
  induction packets generalizing s tally with
  | nil => exact ⟨fun _ => alive, fun _ => gets⟩
  | cons packet rest ih =>
    have before := gets_disturb gets
    have process : s.worker.process = a.worker.process := congrArg Fixture.process gets.fixed
    obtain ⟨one, processed⟩ : ∃ one, Worker.processAll context [packet]
        ⟨s.worker, tally, (s.disturb others).plane, false⟩ = one := ⟨_, rfl⟩
    have lives : a.worker.process.Survives → one.crashed = false := by
      intro survives
      rw [← processed]
      exact Worker.processAll_alive context [packet] _ (process ▸ survives) rfl
    have settles := process_settles context packet rest
      ⟨s.worker, tally, (s.disturb others).plane, false⟩
    have here : (s.disturb others).worker = s.worker := rfl
    simp only [processed] at settles
    simp only [processAll, here, processed]
    cases died : one.crashed with
    | true =>
      rw [died] at lives
      exact ⟨lives, Bool.noConfusion⟩
    | false => exact ih (before.settles (settles died)) alive

/-- A burst processed takes what was pulled, and brings it to its fate unless the processor dies. -/
theorem gets_burst (gets : Gets others a s.desk pulled) {q : Plane} {packets : List Packet}
    (pulls : s.plane.Pulls q s.worker.input.place packets) (alive : s.crashed = false) :
    let done := burst others { s with plane := q } packets
    (a.worker.process.Survives → done.crashed = false) ∧
      (done.crashed = false → Gets others a done.desk (pulled ++ packets)) := by
  -- The packets are pulled and counted first, and then each is brought to its fate.
  have taken := gets.pulls (Brings.of_pulls pulls (UInt64.ofNat (q.buffers.totalLen packets)))
  obtain ⟨lives, processed⟩ := gets_processAll
    (s := { s with
      plane := q
      taken := s.taken ++ packets
      worker := { s.worker with
        counters := s.worker.counters.recordRx (UInt64.ofNat packets.length)
          (UInt64.ofNat (q.buffers.totalLen packets)) } })
    (s.worker.context q (q.clock s.worker.clock).now) taken alive
  simp only [burst]
  split
  · rename_i dead
    refine ⟨lives, fun living => ?_⟩
    rw [dead] at living
    cases living
  · refine ⟨lives, fun living => ?_⟩
    exact (processed living).settles ((recordTally_brings _ _ _).settles rfl)

section Kept

variable (others : Others) (s : Scene σ)

/-- Attempts are not more than allowed, and take nothing. -/
theorem attempts_keep (count : Nat) :
    let tried := s.attempts others count
    tried.1 ≤ count ∧ tried.2.taken = s.taken ∧ tried.2.flushes = s.flushes ∧
      tried.2.crashed = s.crashed := by
  -- By induction on the attempts that are left.
  induction count generalizing s with
  | zero => exact ⟨Nat.le_refl 0, rfl, rfl, rfl⟩
  | succ count ih =>
    simp only [attempts]
    split
    · exact ⟨Nat.zero_le _, rfl, rfl, rfl⟩
    · obtain ⟨few, kept⟩ := ih
        { s.disturb others with
          worker := ((s.disturb others).worker.attempt (s.disturb others).plane).1
          plane := ((s.disturb others).worker.attempt (s.disturb others).plane).2 }
      exact ⟨Nat.succ_le_succ few, kept⟩

/-- A flush makes no more attempts than allowed, takes nothing, and leaves nothing waiting. -/
theorem flush_keeps :
    let flushed := s.flush others
    (∃ made ≤ s.worker.settings.drainAttempts.toNat, flushed.flushes = s.flushes ++ [made]) ∧
      flushed.taken = s.taken ∧ flushed.crashed = s.crashed ∧
      flushed.worker.backlog.pending = [] := by
  -- The attempts are listed when they are over, and what they leave is given up.
  obtain ⟨few, taken, flushes, crashed⟩ :=
    s.attempts_keep others s.worker.settings.drainAttempts.toNat
  have listed : ∃ made ≤ s.worker.settings.drainAttempts.toNat,
      (s.attempts others s.worker.settings.drainAttempts.toNat).2.flushes ++
        [(s.attempts others s.worker.settings.drainAttempts.toNat).1] = s.flushes ++ [made] :=
    ⟨_, few, by rw [flushes]⟩
  simp only [flush]
  split
  · rename_i empty
    exact ⟨listed, taken, crashed, Backlog.isEmpty_iff.mp empty⟩
  · exact ⟨listed, taken, crashed, rfl⟩

/-- Processing takes nothing and flushes nothing. -/
theorem processAll_keeps (context : Context) (packets : List Packet) (tally : Tally) :
    let done := s.processAll others context packets tally
    done.2.taken = s.taken ∧ done.2.flushes = s.flushes := by
  -- By induction on the packets.
  induction packets generalizing s tally with
  | nil => exact ⟨rfl, rfl⟩
  | cons packet rest ih =>
    simp only [processAll]
    split
    · exact ⟨rfl, rfl⟩
    · exact ih _ _

/-- A burst takes its packets and flushes nothing. -/
theorem burst_keeps (packets : List Packet) :
    (s.burst others packets).taken = s.taken ++ packets ∧
      (s.burst others packets).flushes = s.flushes := by
  -- The packets are taken before they are processed.
  have kept := processAll_keeps others
    { s with
      taken := s.taken ++ packets
      worker := { s.worker with
        counters := s.worker.counters.recordRx (UInt64.ofNat packets.length)
          (UInt64.ofNat (s.plane.buffers.totalLen packets)) } }
    (s.worker.context s.plane (s.plane.clock s.worker.clock).now) packets {}
  simp only [burst]
  split
  · exact kept
  · exact kept

end Kept

/-- A flush at the end of a batch or a drain takes nothing and, unless the processor died, makes no more
attempts than allowed and leaves nothing waiting. -/
theorem conclude_keeps (gets : s.crashed = false → Gets others a s.desk s.taken) :
    let done := s.conclude others
    done.crashed = s.crashed ∧ done.taken = s.taken ∧
      (s.crashed = true → done.flushes = s.flushes) ∧
      (s.crashed = false → Gets others a done.desk done.taken ∧
        done.worker.backlog.pending = [] ∧
        ∃ made ≤ a.worker.settings.drainAttempts.toNat, done.flushes = s.flushes ++ [made]) := by
  -- By cases on whether the processor died, since then no flush is made.
  obtain ⟨⟨made, few, flushes⟩, taken, crashed, empty⟩ := s.flush_keeps others
  rw [conclude]
  cases died : s.crashed with
  | true => exact ⟨died, rfl, fun _ => rfl, Bool.noConfusion⟩
  | false =>
    have whole := gets died
    have settings : s.worker.settings = a.worker.settings := congrArg Fixture.settings whole.fixed
    rw [if_neg Bool.false_ne_true]
    refine ⟨crashed.trans died, taken, Bool.noConfusion, fun _ => ⟨?_, empty, made, ?_, flushes⟩⟩
    · rw [taken]
      exact gets_flush whole
    · rw [← settings]
      exact few

/-- What a batch amid others comes to: it takes packets, brings them to their fates unless the processor
dies, and then flushes once unless it found nothing. -/
structure Batched (others : Others) (a : Desk σ) (s s' : Scene σ) (packets : List Packet) :
    Prop where
  taken : s'.taken = s.taken ++ packets
  lives : a.worker.process.Survives → s'.crashed = false
  gets : s'.crashed = false → Gets others a s'.desk s'.taken
  still : s'.crashed ∨ packets = [] → s'.flushes = s.flushes
  flushed : s'.crashed = false → packets ≠ [] →
    ∃ made ≤ a.worker.settings.drainAttempts.toNat, s'.flushes = s.flushes ++ [made]

section Batches

variable {number : Nat}

/-- A batch takes what it finds once others had their turn. -/
theorem batch_batched (gets : Gets others a s.desk s.taken) (alive : s.crashed = false)
    (input : a.worker.input = .ring number) (left : Nat) :
    let found := ((s.disturb others).plane.dequeueBulk number
      (min left a.worker.settings.burstSize.toNat)).1
    (s.batch others number left).1 = found.length ∧
      Batched others a s (s.batch others number left).2 found := by
  -- Others have their turn first, and then what is found is processed and flushed.
  have before : Gets others a (s.disturb others).desk s.taken := gets_disturb gets
  have taken : (s.disturb others).taken = s.taken := rfl
  have flushes : (s.disturb others).flushes = s.flushes := rfl
  have living : (s.disturb others).crashed = false := alive
  simp only [batch]
  generalize s.disturb others = s' at before taken flushes living ⊢
  have settings : s'.worker.settings = a.worker.settings := congrArg Fixture.settings before.fixed
  have place : s'.worker.input.place = .ring number := by
    rw [show s'.worker.input = .ring number from (congrArg Fixture.input before.fixed).trans input]
    rfl
  have pulls := s'.plane.dequeueBulk_pulls number (min left a.worker.settings.burstSize.toNat)
  rw [settings]
  generalize s'.plane.dequeueBulk number (min left a.worker.settings.burstSize.toNat) = found
    at pulls ⊢
  obtain ⟨packets, remaining, q⟩ := found
  simp only at pulls ⊢
  rw [← place] at pulls
  by_cases empty : packets = []
  · subst empty
    -- Pulling nothing leaves all as it was, so there is no flush.
    have nothing : Settles s'.desk ⟨s'.worker, q, [], {}⟩ := (Brings.of_nothing pulls).settles rfl
    refine ⟨rfl, taken.trans (List.append_nil _).symm, fun _ => living, fun _ => ?_,
      fun _ => flushes, fun _ some => absurd rfl some⟩
    show Gets others a ⟨s'.worker, q, [], {}⟩ s'.taken
    rw [taken]
    exact before.settles nothing
  · -- The packets are processed amid others, and the flush follows if the processor survived.
    obtain ⟨lives, processed⟩ := gets_burst before pulls living
    obtain ⟨all, none⟩ := burst_keeps others { s' with plane := q } packets
    replace all := all.trans (congrArg (· ++ packets) taken)
    rw [if_neg (mt List.isEmpty_iff.mp empty)]
    refine ⟨rfl, ?_⟩
    rw [← all] at processed
    obtain ⟨crashed, kept, dead, alive⟩ := conclude_keeps processed
    refine ⟨kept.trans all, fun survives => crashed.trans (lives survives),
      fun living => (alive (crashed.symm.trans living)).1, fun last => ?_, fun living _ => ?_⟩
    · exact (dead (crashed.symm.trans (last.resolve_right empty))).trans (none.trans flushes)
    · obtain ⟨-, -, made, few, flushed⟩ := alive (crashed.symm.trans living)
      exact ⟨made, few, flushed.trans (congrArg (· ++ [made]) (none.trans flushes))⟩

/-- Batches flush no more often than there are packets to take, with no more attempts than allowed, and
bring all that they take to its fate unless the processor dies. -/
theorem drainFrom_gets (gets : Gets others a s.desk s.taken) (alive : s.crashed = false)
    (input : a.worker.input = .ring number) (left : Nat) :
    let done := s.drainFrom others number left
    (a.worker.process.Survives → done.crashed = false) ∧
      (done.crashed = false → Gets others a done.desk done.taken) ∧
      ∃ more, done.flushes = s.flushes ++ more ∧ more.length ≤ left ∧
        ∀ made ∈ more, made ≤ a.worker.settings.drainAttempts.toNat := by
  -- Every batch but the last leaves fewer packets to take.
  induction left using Nat.strongRecOn generalizing s with
  | ind left ih =>
    rw [drainFrom]
    split
    · exact ⟨fun _ => alive, fun _ => gets, [], (List.append_nil _).symm, Nat.zero_le _,
        List.forall_mem_nil _⟩
    · rename_i some
      obtain ⟨count, batched⟩ := batch_batched gets alive input left
      generalize s.batch others number left = batch at count batched ⊢
      obtain ⟨pulled, s'⟩ := batch
      simp only at count batched ⊢
      split
      · -- A drain stops at a dead processor or an empty ring, and makes no flush for that.
        rename_i last
        have still := batched.still (last.imp_right fun none => by
          rw [← List.length_eq_zero_iff, ← count, none])
        exact ⟨batched.lives, batched.gets, [], still.trans (List.append_nil _).symm,
          Nat.zero_le _, List.forall_mem_nil _⟩
      · rename_i goes
        rw [not_or, Bool.not_eq_true] at goes
        obtain ⟨living, found⟩ := goes
        -- This batch took one flush, and the others take one for each packet left at most.
        obtain ⟨made, few, flushed⟩ := batched.flushed living fun none => found (by
          rw [count, none]
          rfl)
        obtain ⟨lives, whole, more, listed, length, bounded⟩ :=
          ih (left - pulled) (by omega) (batched.gets living) living
        refine ⟨lives, whole, made :: more, ?_, ?_, ?_⟩
        · rw [listed, flushed, List.append_assoc]
          rfl
        · rw [List.length_cons]
          omega
        · intro other among
          obtain rfl | later := List.mem_cons.mp among
          · exact few
          · exact bounded other later

/-- While the others leave its input alone, a batch takes the next packets of those that were queued at
first, a full burst unless there are fewer. -/
theorem batch_takes (gets : Gets others a s.desk s.taken) (alive : s.crashed = false)
    (input : a.worker.input = .ring number) {left : Nat}
    (spares : ∀ time q, Plane.Spares a.worker.input q (others time q)) (atRest : a.plane.AtRest)
    (all : s.taken.length + left = (a.plane.contents (.ring number)).length) :
    let batch := s.batch others number left
    batch.1 = min left a.worker.settings.burstSize.toNat ∧
      batch.2.taken = (a.plane.contents (.ring number)).take (s.taken.length + batch.1) := by
  -- Others leave the input alone, so what is found is what is left of the packets queued at first.
  obtain ⟨count, batched⟩ := batch_batched gets alive input left
  obtain ⟨f, works, same⟩ : Gets others a (s.disturb others).desk s.taken := gets_disturb gets
  obtain ⟨rest, queue⟩ := works.input spares atRest
  have moved : f.flow.pulled ++ (s.disturb others).plane.contents (.ring number) = _ :=
    queue number input
  rw [same] at moved
  have found : ((s.disturb others).plane.dequeueBulk number _).1 = _ :=
    Plane.dequeueBulk_taken rest number (min left a.worker.settings.burstSize.toNat)
  have lengths := congrArg List.length moved
  simp only [List.length_append] at lengths
  have enough : min left a.worker.settings.burstSize.toNat ≤
      ((s.disturb others).plane.contents (.ring number)).length := by omega
  have full : (s.batch others number left).1 = min left a.worker.settings.burstSize.toNat := by
    rw [count, found, List.length_take]
    exact Nat.min_eq_left enough
  refine ⟨full, ?_⟩
  calc (s.batch others number left).2.taken
      = s.taken ++ ((s.disturb others).plane.contents (.ring number)).take
          (min left a.worker.settings.burstSize.toNat) := by
        rw [batched.taken, found]
        rfl
    _ = (a.plane.contents (.ring number) ++ if a.worker.output = .ring number then
          f.flow.accepted else []).take (s.taken.length + (s.batch others number left).1) := by
        rw [← moved, List.take_length_add_append, full]
    _ = (a.plane.contents (.ring number)).take
          (s.taken.length + (s.batch others number left).1) := by
        rw [List.take_append_of_le_length (by omega)]

/-- A full batch, or all that is left, makes one batch fewer to come. -/
theorem ceil_div_step {left burst : Nat} (some : left ≠ 0) (positive : burst ≠ 0) :
    (left + burst - 1) / burst = (left - min left burst + burst - 1) / burst + 1 := by
  -- The last batch takes all that is left, and any other one takes a burst.
  by_cases last : left ≤ burst
  · have none : (burst - 1) / burst = 0 := Nat.div_eq_of_lt (by omega)
    have one : (left - 1) / burst = 0 := Nat.div_eq_of_lt (by omega)
    rw [Nat.min_eq_left last, Nat.sub_self, Nat.zero_add, none,
      show left + burst - 1 = left - 1 + burst by omega, Nat.add_div_right _ (by omega), one]
  · rw [Nat.min_eq_right (by omega), ← Nat.add_div_right _ (by omega)]
    congr 1
    omega

/-- While the others leave its input alone, batches take what was queued at first, in order, and all of
it unless the processor dies, with one flush for each burst. -/
theorem drainFrom_takes (gets : Gets others a s.desk s.taken) (alive : s.crashed = false)
    (input : a.worker.input = .ring number) {left : Nat}
    (spares : ∀ time q, Plane.Spares a.worker.input q (others time q)) (atRest : a.plane.AtRest)
    (positive : a.worker.settings.burstSize ≠ 0)
    (all : s.taken.length + left = (a.plane.contents (.ring number)).length) :
    let done := s.drainFrom others number left
    done.taken <+: a.plane.contents (.ring number) ∧
      (done.crashed = false → done.taken = a.plane.contents (.ring number) ∧
        done.flushes.length = s.flushes.length +
          (left + a.worker.settings.burstSize.toNat - 1) / a.worker.settings.burstSize.toNat) := by
  have size : a.worker.settings.burstSize.toNat ≠ 0 := fun zero =>
    positive (UInt64.toNat_inj.mp zero)
  -- Every batch but the last leaves fewer packets to take.
  induction left using Nat.strongRecOn generalizing s with
  | ind left ih =>
    rw [drainFrom]
    split
    · rename_i none
      subst none
      obtain ⟨f, works, same⟩ := gets
      -- All has been taken, which is what the ring held at first.
      have moved := (works.input spares atRest).2 number input
      rw [same] at moved
      have whole : s.taken = a.plane.contents (.ring number) := (List.append_inj moved all).1
      refine ⟨whole ▸ List.prefix_refl _, fun _ => ⟨whole, ?_⟩⟩
      rw [Nat.div_eq_of_lt (by omega), Nat.add_zero]
    · rename_i some
      obtain ⟨count, batched⟩ := batch_batched gets alive input left
      obtain ⟨full, taken⟩ := batch_takes gets alive input spares atRest all
      generalize s.batch others number left = batch at count batched full taken ⊢
      obtain ⟨pulled, s'⟩ := batch
      simp only at count batched full taken ⊢
      have before : s'.taken <+: a.plane.contents (.ring number) := taken ▸ List.take_prefix _ _
      split
      · rename_i last
        refine ⟨before, fun living => ?_⟩
        rw [living] at last
        simp only [Bool.false_eq_true, false_or] at last
        omega
      · rename_i goes
        rw [not_or, Bool.not_eq_true] at goes
        obtain ⟨living, -⟩ := goes
        obtain ⟨made, -, flushed⟩ := batched.flushed living fun none => by
          rw [none, List.length_nil] at count
          omega
        -- A batch that goes on was full, so the number of batches left is one less.
        have length : s'.taken.length = s.taken.length + pulled := by
          rw [taken, List.length_take]
          omega
        obtain ⟨first, rest⟩ := ih (left - pulled) (by omega) (batched.gets living) living
          (by omega)
        refine ⟨first, fun lived => ?_⟩
        obtain ⟨whole, flushes⟩ := rest lived
        refine ⟨whole, ?_⟩
        rw [flushes, flushed, ceil_div_step some size, full, List.length_append,
          List.length_singleton]
        omega

end Batches

/-- A drain amid others that came to its end: nothing waits, and each packet that waited before or was
taken was sent or dropped, and counted as that. -/
structure Completes (others : Others) (w : Worker σ) (p : Plane) (done : Scene σ) : Prop where
  waiting : done.worker.backlog.pending = []
  fates : ∃ f, Works others ⟨w, p, [], {}⟩ done.desk f ∧ f.Fits w.target? ∧
    f.flow.pulled = done.taken ∧ (w.backlog.pending ++ done.taken).Perm (f.sent ++ f.dropped) ∧
    done.worker.counters.rxPackets =
      w.counters.rxPackets + UInt64.ofNat done.taken.length ∧
    done.worker.counters.txPackets = w.counters.txPackets + UInt64.ofNat f.sent.length ∧
    done.worker.counters.dropped + done.worker.counters.txDropped =
      w.counters.dropped + w.counters.txDropped + UInt64.ofNat f.dropped.length

/-- Work after which nothing waits has brought every packet to its fate. -/
theorem completes_of_gets {w : Worker σ} {p : Plane}
    (gets : Gets others ⟨w, p, [], {}⟩ s.desk s.taken) (empty : s.worker.backlog.pending = []) :
    Completes others w p s := by
  -- Nothing waits and nothing is in hand, so what was pulled was sent or dropped.
  obtain ⟨f, works, same⟩ := gets
  have comes := works.comes
  have left := comes.fits.perm
  have custody : (w.backlog.pending ++ s.taken).Perm (f.sent ++ f.dropped) := by
    have kept := comes.custody
    simp only [moment, Moment.kept, desk, empty, List.append_nil, same] at kept
    exact kept.trans left
  have counted : f.flow.accepted.length + f.flow.released.length =
      f.sent.length + f.dropped.length := by
    rw [← List.length_append, left.length_eq, List.length_append]
  have received := comes.received
  have sent := comes.sent
  have settled := comes.settled
  simp only [moment, Moment.received, Moment.settled, sentCount, desk, Tally.count, Counters.settled,
    counted, same, UInt64.ofNat_add] at received sent settled
  exact ⟨empty, f, works, comes.fits, same, custody, by grind, by grind, by grind⟩

/-- A drain is its batches, of which there are none for a port, and what concludes it. -/
theorem drain_cases (w : Worker σ) (p : Plane) (others : Others) :
    let start : Scene σ := { worker := w, plane := p }
    ∃ s : Scene σ, start.drain others = s.conclude others ∧
      (w.process.Survives → s.crashed = false) ∧
      (s.crashed = false → Gets others ⟨w, p, [], {}⟩ s.desk s.taken) ∧
      s.flushes.length ≤ w.drainCount p ∧
      (∀ made ∈ s.flushes, made ≤ w.settings.drainAttempts.toNat) ∧
      (∀ port, w.input = .port port → s = start) ∧
      ∀ number, w.input = .ring number → s = start.drainFrom others number (w.drainCount p) := by
  -- By cases on the input: a port has nothing to drain, and a ring is drained batch by batch.
  intro start
  have begun : Gets others ⟨w, p, [], {}⟩ start.desk start.taken := ⟨{}, .rest, rfl⟩
  have here : start.worker.input = w.input := rfl
  rw [drain, here]
  cases input : w.input with
  | port port =>
    exact ⟨start, rfl, fun _ => rfl, fun _ => begun, Nat.zero_le _, List.forall_mem_nil _,
      fun _ _ => rfl, fun _ => Input.noConfusion⟩
  | ring number =>
    obtain ⟨lives, gets, more, listed, few, bounded⟩ :=
      drainFrom_gets begun rfl input (w.drainCount p)
    have flushes : (start.drainFrom others number (w.drainCount p)).flushes = more := listed
    refine ⟨_, rfl, lives, gets, flushes ▸ few, flushes ▸ bounded, fun _ => Input.noConfusion, ?_⟩
    rintro _ ⟨⟩
    rfl

end Scene

namespace Worker

open Desk Scene

variable {σ : Type}

/-- A drain comes to an end whatever the others do: it flushes at most once for each packet that was
queued at first, and once more, each time with no more attempts than allowed. Unless the processor dies,
nothing waits afterwards, and each packet was sent or dropped and counted as that. From a port no packet
is taken. From a ring that the others leave alone, exactly the packets that were queued at first are
taken, in order, and afterwards nothing is there but what the worker itself sent to it. -/
theorem drain_completes {w : Worker σ} {p : Plane} (accepted : w.settings.fault? = none)
    (atRest : p.AtRest) :
    (Scene.drain .idle { worker := w, plane := p }).Shows (w.drain p) ∧
    ∀ others : Others,
      let start : Scene σ := { worker := w, plane := p }
      let done := start.drain others
      (w.process.Survives → done.crashed = false) ∧
      done.flushes.length ≤ w.drainCount p + 1 ∧
      (∀ made ∈ done.flushes, made ≤ w.settings.drainAttempts.toNat) ∧
      (done.crashed = false → Completes others w p done) ∧
      (∀ port, w.input = .port port → done = start.flush others ∧ done.taken = []) ∧
      ∀ number, w.input = .ring number →
        (∀ time q, Plane.Spares w.input q (others time q)) →
        let queued := p.contents (.ring number)
        let burst := w.settings.burstSize.toNat
        done.taken <+: queued ∧
        (done.crashed = false →
          done.taken = queued ∧ done.flushes.length = (queued.length + burst - 1) / burst + 1 ∧
          ∀ f, Works others ⟨w, p, [], {}⟩ done.desk f → f.flow.pulled = queued →
            done.plane.contents (.ring number) =
              if w.output = .ring number then f.flow.accepted else []) := by
  refine ⟨Scene.drain_idle _ rfl, fun others => ?_⟩
  intro start done
  obtain ⟨s, drained, lives, gets, few, bounded, onPort, onRing⟩ := drain_cases w p others
  have same : done = s.conclude others := drained
  obtain ⟨crashed, taken, dead, alive⟩ := conclude_keeps gets
  rw [← same] at crashed taken dead alive
  -- The last flush is one more, if there is one.
  have listed : ∃ more, done.flushes = s.flushes ++ more ∧ more.length ≤ 1 ∧
      ∀ made ∈ more, made ≤ w.settings.drainAttempts.toNat := by
    cases died : s.crashed with
    | true =>
      exact ⟨[], (dead died).trans (List.append_nil _).symm, Nat.zero_le _, List.forall_mem_nil _⟩
    | false =>
      obtain ⟨-, -, made, allowed, flushes⟩ := alive died
      exact ⟨[made], flushes, Nat.le_refl _, by simpa using allowed⟩
  obtain ⟨more, flushes, once, allowed⟩ := listed
  refine ⟨fun survives => crashed.trans (lives survives), ?_, ?_, fun living => ?_,
    fun port input => ?_, fun number input spares => ?_⟩
  · rw [flushes, List.length_append]
    exact Nat.add_le_add few once
  · intro made among
    rw [flushes] at among
    exact (List.mem_append.mp among).elim (bounded made) (allowed made)
  · obtain ⟨whole, empty, -⟩ := alive (crashed.symm.trans living)
    exact completes_of_gets whole empty
  · have idle := onPort port input
    rw [taken, same, idle]
    exact ⟨rfl, rfl⟩
  · intro queued burst
    have positive := (WorkerSettings.fault?_eq_none.mp accepted).1
    have begun : Gets others ⟨w, p, [], {}⟩ start.desk start.taken := ⟨{}, .rest, rfl⟩
    have count : w.drainCount p = queued.length := drainCount_eq atRest input
    obtain ⟨first, takes⟩ := drainFrom_takes begun rfl input spares atRest positive
      ((Nat.zero_add _).trans count)
    rw [← onRing number input] at first takes
    rw [taken]
    refine ⟨first, fun living => ?_⟩
    have lived := crashed.symm.trans living
    obtain ⟨whole, flushed⟩ := takes lived
    obtain ⟨-, -, made, -, last⟩ := alive lived
    refine ⟨whole, ?_, fun f works pulled => ?_⟩
    · rw [last, List.length_append, flushed, count]
      exact congrArg (· + 1) (Nat.zero_add _)
    · -- The ring lost all it held, so it now holds what came back by the output.
      have moved := (works.input spares atRest).2 number input
      rw [pulled] at moved
      exact List.append_cancel_left moved

/-- A worker that forwards packets to the ring that it takes them from. -/
def looped : Worker Unit where
  id := 0
  input := .ring 0
  output := .ring 0
  process := passThrough Unit
  memory := ()
  backlog := Backlog.make 2 .drop
  pacer := none
  clock := 0
  watch := none
  watched := []
  capture := none
  life := 0
  reporter := { label := "worker-0" }
  statsInterval := 0
  settings := {}

/-- A ring with two places. -/
def twoWide : Ring Packet :=
  { name := "loop", capacity := 2, capacity_valid := by decide }

/-- A plane with two packets on its ring. -/
def loopPlane : Plane :=
  -- There is no room for another one.
  Dispatch.overRing (twoWide.enqueueBulk [⟨0, 0⟩, ⟨0, 1⟩]).ring

/-- A drain takes both packets off that ring, pushes out what waits twice and leaves nothing waiting,
also while a clock runs. -/
theorem drain_completes_looped :
    looped.settings.fault? = none ∧ loopPlane.AtRest ∧
    (looped.drain loopPlane).crashed = false ∧
    (looped.drain loopPlane).worker.backlog.pending = [] ∧
    let ticking : Others := fun time plane => plane.advanceClock 0 (UInt64.ofNat time)
    let done := Scene.drain ticking { worker := looped, plane := loopPlane }
    done.taken = [⟨0, 0⟩, ⟨0, 1⟩] ∧ done.flushes.length = 2 := by
  -- What the theorem asks for is checked, and it is used with a clock that others move on.
  have held : twoWide.Holds [] := Ring.holds_make (rfl : Ring.make "loop" 2 = .ok twoWide)
  have full := held.enqueueBulk_taken [⟨0, 0⟩, ⟨0, 1⟩]
  have atRest : loopPlane.AtRest := Dispatch.overRing_atRest full
  have queued : loopPlane.contents (.ring 0) = [⟨0, 0⟩, ⟨0, 1⟩] := by cbv
  have survives : looped.process.Survives := fun _ _ _ _ => Verdict.noConfusion
  obtain ⟨⟨worker, -, crashed⟩, amid⟩ := drain_completes (w := looped) rfl atRest
  obtain ⟨lives, -, -, completes, -⟩ := amid .idle
  have alone := (completes (lives survives)).waiting
  rw [worker] at alone
  refine ⟨rfl, atRest, crashed.symm.trans (lives survives), alone, ?_⟩
  intro ticking done
  have spares : ∀ time q, Plane.Spares looped.input q (ticking time q) := by
    intro time q before
    have rings : Plane.SameRings q (q.advanceClock 0 (UInt64.ofNat time)) :=
      Plane.SameRings.congr rfl rfl rfl
    obtain ⟨after, same⟩ := rings.contents before
    exact ⟨after, fun number _ => same _⟩
  obtain ⟨alive, -, -, -, -, onRing⟩ := amid ticking
  obtain ⟨-, whole⟩ := onRing 0 rfl spares
  obtain ⟨taken, flushes, -⟩ := whole (alive survives)
  refine ⟨taken.trans queued, flushes.trans ?_⟩
  rw [queued]
  decide

end Worker

end PacketPlane
