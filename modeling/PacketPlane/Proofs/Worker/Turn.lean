import PacketPlane.Proofs.Worker.Custody

/-! Custody over a turn: pulling, processing and pushing each keep account of every packet. -/

namespace PacketPlane

namespace Counters

/-- Packets handed to the output are settled. -/
theorem settled_recordTx (c : Counters) (packets bytes : UInt64) :
    (c.recordTx packets bytes).settled = c.settled + packets := by
  -- Sent packets are one of the terms of what is settled.
  simp only [settled, recordTx]
  grind

/-- Packets that the processor dropped are settled. -/
theorem settled_recordDrop (c : Counters) (packets : UInt64) :
    (c.recordDrop packets).settled = c.settled + packets := by
  -- Dropped packets are another.
  simp only [settled, recordDrop]
  grind

/-- Packets dropped because the output kept refusing them are settled. -/
theorem settled_recordTxDrop (c : Counters) (packets : UInt64) :
    (c.recordTxDrop packets).settled = c.settled + packets := by
  -- Packets the output refused are the third.
  simp only [settled, recordTxDrop]
  grind

/-- A number that is only counted when it is not zero is counted all the same. -/
theorem settled_ite {count : Nat} {c c' : Counters}
    (counted : c'.settled = c.settled + UInt64.ofNat count) :
    (if count > 0 then c' else c).settled = c.settled + UInt64.ofNat count := by
  -- Zero adds nothing.
  split
  · exact counted
  · rename_i zero
    rw [Nat.eq_zero_of_not_pos zero]
    exact (UInt64.add_zero _).symm

end Counters

/-- The packets that a tally has counted. -/
def Tally.count (t : Tally) : Nat :=
  t.outcome.sent + t.outcome.dropped + t.dropped

namespace Moment

variable {σ : Type} {a b c : Moment σ}

/-- A moment that follows another one with some packets pulled in between, all accounted for. -/
def Leads (a b : Moment σ) (pulled : List Packet) : Prop :=
  ∃ f, Carries a b f ∧ f.pulled = pulled

/-- A worker that stands still pulls nothing. -/
theorem Leads.refl (a : Moment σ) : Leads a a [] :=
  -- The empty fate.
  ⟨{}, Carries.refl a, rfl⟩

/-- One stretch of work after another. -/
theorem Leads.trans {pulled more : List Packet} (first : Leads a b pulled)
    (second : Leads b c more) : Leads a c (pulled ++ more) := by
  -- The fates of both stretches together, with what they pulled one after the other.
  obtain ⟨f, one, same⟩ := first
  obtain ⟨g, two, rest⟩ := second
  refine ⟨f ++ g, one.trans two, ?_⟩
  rw [← same, ← rest]
  rfl

/-- Work after which nothing more is pulled. -/
theorem Leads.andThen {pulled : List Packet} (first : Leads a b pulled) (second : Leads b c []) :
    Leads a c pulled := by
  -- What was pulled is followed by nothing.
  have both := first.trans second
  rwa [List.append_nil] at both

/-- What stays of a worker stays through any stretch of work. -/
theorem Leads.fixed {pulled : List Packet} (leads : Leads a b pulled) :
    b.worker.fixture = a.worker.fixture := by
  -- Every fate carries the fixture along.
  obtain ⟨f, carries, -⟩ := leads
  exact carries.fixed

/-- Work that moves no packet. -/
theorem Carries.leads (carries : Carries a b {}) : Leads a b [] :=
  -- The empty fate pulls nothing.
  ⟨{}, carries, rfl⟩

section Deliveries

variable {w : Worker σ} {p q : Plane} {outcome : Outcome} {b' : Backlog} {f : Flow}

/-- A delivery out of a worker's backlog, with its outcome still to be counted. -/
theorem Leads.of_delivers (inHand : List Packet) (unreceived uncounted : Nat)
    (delivers : Backlog.Delivers w.ends w.backlog p outcome b' q f) :
    Leads ⟨w, p, inHand, unreceived, uncounted⟩
      ⟨{ w with backlog := b' }, q, inHand, unreceived,
        uncounted + (outcome.sent + outcome.dropped)⟩ [] := by
  -- The backlog's own account of the delivery is the worker's, as neither hand nor counters are
  -- touched.
  refine ⟨f, ⟨?_, delivers.hauls, ?_, ?_, ?_⟩, delivers.pulled⟩
  · simp only [Worker.fixture, delivers.threshold, delivers.policy]
  · rw [delivers.pulled, List.append_nil, kept, kept, delivers.order, List.append_assoc]
  · rw [delivers.pulled, List.length_nil]
    exact (UInt64.add_zero _).symm
  · rw [Moment.settled, Moment.settled, delivers.counted, UInt64.ofNat_add, UInt64.add_assoc]

/-- A packet in hand buffered, with its outcome still to be counted. -/
theorem Leads.of_buffered {packet : Packet} (rest : List Packet) (unreceived uncounted : Nat)
    (delivers : Backlog.Delivers w.ends { w.backlog with pending := w.backlog.pending ++ [packet] }
      p outcome b' q f) :
    Leads ⟨w, p, packet :: rest, unreceived, uncounted⟩
      ⟨{ w with backlog := b' }, q, rest, unreceived,
        uncounted + (outcome.sent + outcome.dropped)⟩ [] := by
  -- First the packet only changes places, from the hand to the end of the backlog. What the backlog
  -- then does is a delivery.
  have waits : Carries ⟨w, p, packet :: rest, unreceived, uncounted⟩
      ⟨{ w with backlog := { w.backlog with pending := w.backlog.pending ++ [packet] } }, p, rest,
        unreceived, uncounted⟩ {} := by
    apply Carries.of_still
    · rfl
    · exact Plane.SameRings.refl _
    · exact fun _ _ => rfl
    · simp [kept]
    · rfl
    · rfl
  exact waits.leads.trans (Leads.of_delivers rest unreceived uncounted delivers)

/-- A packet in hand given back, still to be counted. -/
theorem Leads.of_release (w : Worker σ) (p : Plane) (packet : Packet) (rest : List Packet)
    (unreceived uncounted : Nat) :
    Leads ⟨w, p, packet :: rest, unreceived, uncounted⟩
      ⟨w, p.mapBuffers (·.release packet), rest, unreceived, uncounted + 1⟩ [] := by
  -- The packet given back is the fate of one that was in hand, and is still to be counted.
  refine ⟨{ released := [packet] }, ⟨rfl, ?_, ?_, ?_, ?_⟩, rfl⟩
  · exact Plane.Hauls.of_releaseAll w.ends p [packet]
  · rw [List.append_nil, kept, kept]
    exact List.perm_middle
  · exact (UInt64.add_zero _).symm
  · rw [Moment.settled, Moment.settled, UInt64.ofNat_add, ← UInt64.add_assoc]
    rfl

end Deliveries

end Moment

namespace Worker

variable {σ : Type}

open Moment

/-- An outcome adds what was sent or dropped to the counters. -/
theorem settled_recordOutcome (w : Worker σ) (outcome : Outcome) :
    (w.recordOutcome outcome).counters.settled =
      w.counters.settled + UInt64.ofNat (outcome.sent + outcome.dropped) := by
  -- Sent and dropped packets are counted when there are any, and refusals are not among what is
  -- settled.
  have refused : ∀ c : Counters,
      (if outcome.rejected then c.recordBackpressure else c).settled = c.settled := by
    intro c
    split <;> rfl
  rw [UInt64.ofNat_add, ← UInt64.add_assoc]
  simp only [recordOutcome]
  rw [Counters.settled_ite (Counters.settled_recordTxDrop _ _), refused,
    Counters.settled_ite (Counters.settled_recordTx _ _ _)]

/-- An outcome does not count as pulled. -/
theorem rxPackets_recordOutcome (w : Worker σ) (outcome : Outcome) :
    (w.recordOutcome outcome).counters.rxPackets = w.counters.rxPackets := by
  -- Whatever is counted, it is not what was received.
  simp only [recordOutcome]
  split <;> split <;> split <;> rfl

/-- Counting an outcome carries nothing. -/
theorem recordOutcome_leads (w : Worker σ) (outcome : Outcome) (p : Plane)
    (inHand : List Packet) (unreceived uncounted : Nat) :
    Leads ⟨w, p, inHand, unreceived, uncounted + (outcome.sent + outcome.dropped)⟩
      ⟨w.recordOutcome outcome, p, inHand, unreceived, uncounted⟩ [] := by
  -- Only the counters change: what was still to be counted is settled now.
  apply Carries.leads
  apply Carries.of_still
  · rfl
  · exact Plane.SameRings.refl _
  · exact fun _ _ => rfl
  · rfl
  · rw [Moment.received, Moment.received, rxPackets_recordOutcome]
  · rw [Moment.settled, Moment.settled, settled_recordOutcome, UInt64.ofNat_add uncounted]
    grind

/-- Showing a packet to the tap carries nothing but what the tap keeps. -/
theorem capturePacket_leads (w : Worker σ) (packet : Packet) (p : Plane) (inHand : List Packet)
    (unreceived uncounted : Nat) :
    Leads ⟨w, p, inHand, unreceived, uncounted⟩
      ⟨(w.capturePacket packet p).1, (w.capturePacket packet p).2, inHand, unreceived,
        uncounted⟩ [] := by
  -- Without a tap nothing happens. A tap keeps the packet or misses it, and the miss is counted apart
  -- from what is settled.
  rw [capturePacket]
  split
  · exact Leads.refl _
  · rename_i number watched
    have tapped : w.ends.tap = some number := watched
    obtain ⟨captured, hauls⟩ := Plane.Hauls.of_tapPacket tapped p packet
    have shown : Leads ⟨w, p, inHand, unreceived, uncounted⟩
        ⟨w, (p.tapPacket number packet).2, inHand, unreceived, uncounted⟩ [] := by
      refine ⟨{ captured }, ⟨rfl, hauls, ?_, ?_, ?_⟩, rfl⟩
      · simp [kept]
      · exact (UInt64.add_zero _).symm
      · exact (UInt64.add_zero _).symm
    split
    · rename_i told
      rw [told] at shown
      exact shown
    · rename_i q told
      rw [told] at shown
      have counted : Carries ⟨w, q, inHand, unreceived, uncounted⟩
          ⟨{ w with counters := w.counters.recordCaptureDrop }, q, inHand, unreceived, uncounted⟩
          {} := Carries.of_worker q inHand unreceived uncounted rfl rfl rfl rfl
      exact shown.andThen counted.leads

/-- Putting a packet on its way takes it out of the worker's hands. -/
theorem forward_leads (w : Worker σ) (packet : Packet) (rest : List Packet) (tally : Tally)
    (p : Plane) :
    let work := w.forward packet tally p
    Leads ⟨w, p, packet :: rest, 0, tally.count⟩
      ⟨work.worker, work.plane, rest, 0, work.tally.count⟩ [] := by
  -- The tap comes first. With an output the packet is buffered, without one it is given back and
  -- tallied as sent.
  have shown := w.capturePacket_leads packet p (packet :: rest) 0 tally.count
  simp only [forward]
  generalize w.capturePacket packet p = pair at shown
  obtain ⟨w', p'⟩ := pair
  simp only at shown ⊢
  cases output : w'.target? with
  | some target =>
    have sink : w'.ends.target = some target := output
    obtain ⟨f, delivers⟩ := Backlog.buffer_delivers sink w'.backlog packet p'
    have buffered := Leads.of_buffered rest 0 tally.count delivers
    refine shown.trans ?_
    simp only
    convert buffered using 2
    simp only [Tally.count, Outcome.merge]
    omega
  | none =>
    have released := Leads.of_release w' p' packet rest 0 tally.count
    refine shown.trans ?_
    simp only
    convert released using 2
    simp only [Tally.count]
    omega

/-- Processing packets takes all of them out of the worker's hands, unless the processor dies. -/
theorem processAll_leads (context : Context) (packets : List Packet) (work : Work σ)
    (alive : (processAll context packets work).crashed = false) :
    let done := processAll context packets work
    Leads ⟨work.worker, work.plane, packets, 0, work.tally.count⟩
      ⟨done.worker, done.plane, [], 0, done.tally.count⟩ [] := by
  -- Each packet leaves the worker's hands in its turn.
  induction packets generalizing work with
  | nil =>
    exact Leads.refl _
  | cons packet rest ih =>
    simp only [processAll] at alive ⊢
    generalize decided : work.worker.process context packet work.worker.memory
      work.plane.toSurroundings = decision at alive ⊢
    -- The processor sees the packet and moves none.
    have looked : Carries ⟨work.worker, work.plane, packet :: rest, 0, work.tally.count⟩
        ⟨{ work.worker with memory := decision.memory },
          { work.plane with toSurroundings := decision.surroundings }, packet :: rest, 0,
          work.tally.count⟩ {} := by
      apply Carries.of_still
      · rfl
      · exact Plane.SameRings.congr rfl rfl rfl
      · intro modest other
        have kept := modest context packet work.worker.memory work.plane.toSurroundings other
        rw [decided] at kept
        exact kept
      · rfl
      · rfl
      · rfl
    cases verdict : decision.verdict with
    | forward =>
      simp only [verdict] at alive ⊢
      have sent := forward_leads { work.worker with memory := decision.memory } packet rest
        work.tally { work.plane with toSurroundings := decision.surroundings }
      exact looked.leads.trans (sent.trans (ih _ alive))
    | drop =>
      simp only [verdict] at alive ⊢
      have freed := Leads.of_release { work.worker with memory := decision.memory }
        { work.plane with toSurroundings := decision.surroundings } packet rest 0 work.tally.count
      exact looked.leads.trans (freed.trans (ih _ alive))
    | crash => simp [verdict] at alive

/-- Processing a burst counts what was pulled and what came of it, unless the processor dies. -/
theorem processBurst_leads (w : Worker σ) (now : UInt64) (packets : List Packet) (p : Plane)
    (alive : (w.processBurst now packets p).crashed = false) :
    let burst := w.processBurst now packets p
    Leads ⟨w, p, packets, packets.length, 0⟩ ⟨burst.worker, burst.plane, [], 0, 0⟩ [] ∧
      burst.pulled = packets.length := by
  -- The received packets are counted first, then each is decided about, and what became of them is
  -- counted at the end.
  have received : Carries ⟨w, p, packets, packets.length, 0⟩
      ⟨{ w with
          counters := w.counters.recordRx (UInt64.ofNat packets.length)
            (UInt64.ofNat (p.buffers.totalLen packets)) }, p, packets, 0, 0⟩ {} := by
    apply Carries.of_still
    · rfl
    · exact Plane.SameRings.refl _
    · exact fun _ _ => rfl
    · rfl
    · exact UInt64.add_zero _
    · rfl
  simp only [processBurst] at alive ⊢
  generalize ({ w with
    counters := w.counters.recordRx (UInt64.ofNat packets.length)
      (UInt64.ofNat (p.buffers.totalLen packets)) } : Worker σ) = w' at received alive ⊢
  split at alive
  · cases alive
  · rename_i living
    rw [if_neg living]
    rw [Bool.not_eq_true] at living
    have processed := processAll_leads (w.context p now) packets ⟨w', {}, p, false⟩ living
    generalize processAll (w.context p now) packets ⟨w', {}, p, false⟩ = work at processed ⊢
    refine ⟨?_, rfl⟩
    refine received.leads.trans (processed.trans ?_)
    -- What the tally says was dropped is counted in the worker now.
    have dropped : Carries ⟨work.worker, work.plane, [], 0, work.tally.count⟩
        ⟨if work.tally.dropped > 0 then
            { work.worker with
              counters := work.worker.counters.recordDrop (UInt64.ofNat work.tally.dropped) }
          else work.worker, work.plane, [], 0,
          0 + (work.tally.outcome.sent + work.tally.outcome.dropped)⟩ {} := by
      apply Carries.of_still
      · split <;> rfl
      · exact Plane.SameRings.refl _
      · exact fun _ _ => rfl
      · simp only [kept]
        split <;> rfl
      · simp only [Moment.received]
        split <;> rfl
      · have counted := Counters.settled_ite
          (work.worker.counters.settled_recordDrop (UInt64.ofNat work.tally.dropped))
        rw [Moment.settled, Moment.settled, Tally.count, Nat.zero_add,
          UInt64.ofNat_add _ work.tally.dropped, UInt64.add_comm (UInt64.ofNat _) (UInt64.ofNat _),
          ← UInt64.add_assoc, ← counted]
        congr 1
        split <;> rfl
    exact dropped.leads.trans (recordOutcome_leads _ work.tally.outcome work.plane [] 0 0)

/-- Pushing out what waits keeps account of it. -/
theorem push_leads (w : Worker σ) (p : Plane) :
    Leads ⟨w, p, [], 0, 0⟩ ⟨(w.push p).1, (w.push p).2, [], 0, 0⟩ [] := by
  -- A delivery with an output or without one, and its outcome is counted.
  rw [push]
  cases output : w.target? with
  | some target =>
    have sink : w.ends.target = some target := output
    obtain ⟨f, delivers⟩ := Backlog.flush_delivers sink w.backlog p
    have flushed := Leads.of_delivers [] 0 0 delivers
    exact flushed.trans (recordOutcome_leads _ _ _ [] 0 0)
  | none =>
    have delivers := Backlog.discard_delivers w.ends w.backlog p
    have discarded := Leads.of_delivers [] 0 0 delivers
    exact discarded.trans (recordOutcome_leads _ _ _ [] 0 0)

/-- Looking for device errors moves no packet. -/
theorem checkDevices_leads (w : Worker σ) (p : Plane) :
    Leads ⟨w, p, [], 0, 0⟩ ⟨w.checkDevices p, p, [], 0, 0⟩ [] := by
  -- Whether errors are found or not, alarms and streaks are apart from what is carried.
  apply Carries.leads
  rw [checkDevices]
  split
  · exact Carries.refl _
  · split
    · exact Carries.of_worker p [] 0 0 rfl rfl rfl rfl
    · refine Carries.of_worker p [] 0 0 (by rfl) (by rfl) ?_ ?_
      · dsimp only
        split <;> rfl
      · dsimp only
        split <;> rfl

/-- Reporting moves no packet. -/
theorem reportAt_leads (w : Worker σ) (p : Plane) (now : UInt64) :
    Leads ⟨w, p, [], 0, 0⟩ ⟨(w.reportAt p now).1, (w.reportAt p now).2, [], 0, 0⟩ [] := by
  -- A report publishes counters and leaves rings, devices and taps.
  apply Carries.leads
  rw [reportAt]
  split
  · apply Carries.of_still
    · rfl
    · exact Plane.SameRings.congr rfl rfl rfl
    · exact fun _ _ => rfl
    · rfl
    · rfl
    · rfl
  · exact Carries.refl _

/-- The end of a turn keeps account of what waits. -/
theorem finishTurn_leads (w : Worker σ) (began : UInt64) (pulled : Nat) (p : Plane) :
    let turn := w.finishTurn began pulled p
    Leads ⟨w, p, [], 0, 0⟩ ⟨turn.worker, turn.plane, [], 0, 0⟩ [] ∧ turn.pulled = pulled ∧
      turn.crashed = false := by
  -- A push, a check, the cycles and a report, one after the other.
  refine ⟨?_, rfl, rfl⟩
  have pushed := w.push_leads p
  have checked := (w.push p).1.checkDevices_leads (w.push p).2
  have timed : ∀ (w : Worker σ) (q : Plane) (busy total : UInt64),
      Leads ⟨w, q, [], 0, 0⟩
        ⟨{ w with counters := w.counters.recordCycles busy total }, q, [], 0, 0⟩ [] :=
    fun w q _ _ => Carries.leads (Carries.of_worker q [] 0 0 rfl rfl rfl rfl)
  exact pushed.trans (checked.trans ((timed _ _ _ _).trans (reportAt_leads _ _ _)))

/-- Pulling brings packets from the input into the worker's hands. -/
theorem pull_leads (w : Worker σ) (p : Plane) (want : Nat) :
    let pulled := w.pull p want
    Leads ⟨w, p, [], 0, 0⟩ ⟨w, pulled.2, pulled.1, pulled.1.length, 0⟩ pulled.1 := by
  -- What is pulled from the input is at once in hand and still to be counted as received.
  have pulls : Plane.Pulls p (w.pull p want).2 w.input.place (w.pull p want).1 := by
    rw [pull]
    split
    · exact Plane.Pulls.refl p _
    · split
      · rename_i input
        rw [input]
        exact p.rxBurst_pulls _ want
      · rename_i input
        rw [input]
        exact p.dequeueBulk_pulls _ want
  refine ⟨{ pulled := (w.pull p want).1 }, ⟨rfl, ?_, ?_, ?_, ?_⟩, rfl⟩
  · exact Plane.Hauls.of_pulls pulls
  · simp [kept]
  · simp [Moment.received]
  · simp [Moment.settled]

/-- Asking how many packets may be pulled changes the pacer alone. -/
theorem allowance_leads (w : Worker σ) (now : UInt64) (p : Plane) :
    Leads ⟨w, p, [], 0, 0⟩ ⟨(w.allowance now).2, p, [], 0, 0⟩ [] := by
  -- With a pacer or without, only its tokens change.
  apply Carries.leads
  rw [allowance]
  split <;> exact Carries.of_worker p [] 0 0 rfl rfl rfl rfl

/-- A turn keeps account of every packet, unless the processor dies. -/
theorem turn_leads (w : Worker σ) (p : Plane) (alive : (w.turn p).crashed = false) :
    ∃ pulled : List Packet, pulled.length = (w.turn p).pulled ∧
      Leads ⟨w, p, [], 0, 0⟩ ⟨(w.turn p).worker, (w.turn p).plane, [], 0, 0⟩ pulled := by
  -- The pull is followed by the end of the turn when it brought nothing, and else by the burst and
  -- then the end.
  have allowed := w.allowance_leads (p.clock w.clock).now p
  simp only [turn] at alive ⊢
  generalize w.allowance (p.clock w.clock).now = wanted at allowed alive ⊢
  obtain ⟨want, w'⟩ := wanted
  have pulled := w'.pull_leads p want
  simp only at allowed alive ⊢
  generalize w'.pull p want = found at pulled alive ⊢
  obtain ⟨packets, q⟩ := found
  have spent : Carries ⟨w', q, packets, packets.length, 0⟩
      ⟨w'.spend packets.length, q, packets, packets.length, 0⟩ {} :=
    Carries.of_worker q packets packets.length 0 rfl rfl rfl rfl
  -- Up to here only tokens were spent, and packets came into the worker's hands.
  have before := allowed.trans (pulled.andThen spent.leads)
  simp only at before alive ⊢
  split
  · rename_i empty
    rw [List.isEmpty_iff] at empty
    subst empty
    obtain ⟨finished, same, -⟩ := finishTurn_leads
      ({ w'.spend ([] : List Packet).length with
        counters := (w'.spend ([] : List Packet).length).counters.recordIdle } : Worker σ)
      (p.clock w.clock).now 0 q
    -- An idle turn counts itself, and no packet.
    have idle : Carries ⟨w'.spend ([] : List Packet).length, q, [], 0, 0⟩
        ⟨{ w'.spend ([] : List Packet).length with
          counters := (w'.spend ([] : List Packet).length).counters.recordIdle }, q, [], 0, 0⟩ {} :=
      Carries.of_worker q [] 0 0 rfl rfl rfl rfl
    refine ⟨[], same.symm, before.trans (idle.leads.trans finished)⟩
  · rename_i some
    rw [if_neg some] at alive
    split at alive
    · rename_i dead
      rw [dead] at alive
      cases alive
    · rename_i living
      rw [if_neg living]
      rw [Bool.not_eq_true] at living
      obtain ⟨processed, count⟩ := processBurst_leads _ _ packets q living
      obtain ⟨finished, same, -⟩ := finishTurn_leads
        ((w'.spend packets.length).processBurst (p.clock w.clock).now packets q).worker
        (p.clock w.clock).now
        ((w'.spend packets.length).processBurst (p.clock w.clock).now packets q).pulled
        ((w'.spend packets.length).processBurst (p.clock w.clock).now packets q).plane
      refine ⟨packets, (same.trans count).symm, ?_⟩
      exact (before.andThen processed).andThen finished

/-- A worker's processor stays through any stretch of work. -/
theorem process_eq {a b : Moment σ} {pulled : List Packet} (leads : Leads a b pulled) :
    b.worker.process = a.worker.process := by
  -- The processor is part of the fixture.
  exact congrArg Fixture.process leads.fixed

/-- A processor that survives every packet survives a burst. -/
theorem processAll_alive (context : Context) (packets : List Packet) (work : Work σ)
    (survives : work.worker.process.Survives) (alive : work.crashed = false) :
    (processAll context packets work).crashed = false := by
  -- Each packet leaves the processor as it was.
  induction packets generalizing work with
  | nil => exact alive
  | cons packet rest ih =>
    have lived := survives context packet work.worker.memory work.plane.toSurroundings
    simp only [processAll]
    generalize work.worker.process context packet work.worker.memory
      work.plane.toSurroundings = decision at lived ⊢
    cases verdict : decision.verdict with
    | forward =>
      simp only
      have sent := forward_leads { work.worker with memory := decision.memory } packet rest
        work.tally { work.plane with toSurroundings := decision.surroundings }
      apply ih
      · rw [process_eq sent]
        exact survives
      · simp only [forward]
        split <;> rfl
    | drop => exact ih _ survives rfl
    | crash => exact absurd verdict lived

/-- A processor that survives every packet survives a burst, whatever is counted around it. -/
theorem processBurst_alive (w : Worker σ) (now : UInt64) (packets : List Packet) (p : Plane)
    (survives : w.process.Survives) : (w.processBurst now packets p).crashed = false := by
  -- The counts around the packets do not decide about a crash.
  simp only [processBurst]
  rw [if_neg]
  rw [Bool.not_eq_true]
  exact processAll_alive _ _ _ survives rfl

/-- A processor that survives every packet survives a turn. -/
theorem turn_alive (w : Worker σ) (p : Plane) (survives : w.process.Survives) :
    (w.turn p).crashed = false := by
  -- The allowance leaves the worker its processor, and an empty turn never asks it.
  have kept := process_eq (w.allowance_leads (p.clock w.clock).now p)
  simp only [turn]
  split
  · rfl
  · rw [if_neg]
    · rfl
    · rw [Bool.not_eq_true]
      apply processBurst_alive
      show (w.allowance _).2.process.Survives
      rw [kept]
      exact survives

end Worker

end PacketPlane
