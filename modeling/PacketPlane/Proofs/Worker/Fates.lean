import PacketPlane.Proofs.Worker.Course

/-! Fates: which packets a worker's output took and which ones were dropped, step by step and with what
is counted for either. -/

namespace PacketPlane

/-- What became of packets: the flow that shows on the plane, those that were sent, and those that were
dropped. -/
structure Fate where
  flow : Flow := {}
  sent : List Packet := []
  dropped : List Packet := []

/-- One fate after another. -/
instance : Append Fate where
  append f g := ⟨f.flow ++ g.flow, f.sent ++ g.sent, f.dropped ++ g.dropped⟩

namespace Fate

/-- A fate that fits an output: what was sent was accepted there, and what was dropped was given back.
Without an output, all of it was given back. -/
def Fits (f : Fate) : Option Target → Prop
  | some _ => f.flow.accepted = f.sent ∧ f.flow.released = f.dropped
  | none => f.flow.accepted = [] ∧ f.flow.released.Perm (f.sent ++ f.dropped)

variable {f g : Fate} {target : Option Target}

/-- Nothing more became of any packet. -/
theorem append_empty (f : Fate) : f ++ {} = f := by
  -- Each of the lists is followed by nothing.
  show Fate.mk (Flow.mk (f.flow.pulled ++ []) (f.flow.accepted ++ []) (f.flow.released ++ [])
    (f.flow.captured ++ [])) (f.sent ++ []) (f.dropped ++ []) = f
  simp only [List.append_nil]

/-- What sent nothing and gave back what it dropped fits every output. -/
theorem fits_of_unsent {pulled captured dropped : List Packet} (target : Option Target) :
    Fits ⟨{ pulled, captured, released := dropped }, [], dropped⟩ target := by
  -- By cases on whether there is an output.
  cases target with
  | none => exact ⟨rfl, .refl _⟩
  | some target => exact ⟨rfl, rfl⟩

/-- Fates that fit an output one after another. -/
theorem Fits.append (first : f.Fits target) (second : g.Fits target) : (f ++ g).Fits target := by
  -- By cases on whether there is an output, since without one what is sent is given back.
  cases target with
  | none =>
    obtain ⟨none, released⟩ := first
    obtain ⟨still, more⟩ := second
    refine ⟨?_, ?_⟩
    · show f.flow.accepted ++ g.flow.accepted = []
      rw [none, still, List.append_nil]
    · show (f.flow.released ++ g.flow.released).Perm (f.sent ++ g.sent ++ (f.dropped ++ g.dropped))
      rw [List.perm_iff_count]
      intro packet
      have one := released.count_eq packet
      have two := more.count_eq packet
      simp only [List.count_append] at one two ⊢
      omega
  | some target =>
    obtain ⟨accepted, released⟩ := first
    obtain ⟨also, more⟩ := second
    refine ⟨?_, ?_⟩
    · show f.flow.accepted ++ g.flow.accepted = f.sent ++ g.sent
      rw [accepted, also]
    · show f.flow.released ++ g.flow.released = f.dropped ++ g.dropped
      rw [released, more]

/-- What left a worker was sent or dropped. -/
theorem Fits.perm (fits : f.Fits target) :
    (f.flow.accepted ++ f.flow.released).Perm (f.sent ++ f.dropped) := by
  -- By cases on whether there is an output, since without one what is sent is given back.
  cases target with
  | none =>
    obtain ⟨none, released⟩ := fits
    rw [none]
    exact released
  | some target =>
    obtain ⟨accepted, released⟩ := fits
    rw [accepted, released]

end Fate

/-- Nothing came of packets before. -/
@[simp] theorem Outcome.empty_merge (outcome : Outcome) : ({} : Outcome).merge outcome = outcome := by
  simp [merge]

/-- Nothing came of packets after. -/
@[simp] theorem Outcome.merge_empty (outcome : Outcome) : outcome.merge {} = outcome := by
  simp [merge]

namespace Desk

variable {σ : Type}

/-- A desk as a moment of its worker. -/
def moment (d : Desk σ) : Moment σ :=
  ⟨d.worker, d.plane, d.hand, 0, d.tally.count⟩

/-- The packets sent so far, counted or not. -/
def sentCount (d : Desk σ) : UInt64 :=
  d.worker.counters.txPackets + UInt64.ofNat d.tally.outcome.sent

/-- Work that brings packets to their fates, as the worker counts them. -/
structure Brings (a b : Desk σ) (f : Fate) : Prop
    extends Moment.Carries a.moment b.moment f.flow where
  fits : f.Fits a.worker.target?
  sent : b.sentCount = a.sentCount + UInt64.ofNat f.sent.length

variable {a b c : Desk σ} {f g : Fate}

/-- Standing still brings no packet anywhere. -/
theorem Brings.refl (a : Desk σ) : Brings a a {} :=
  ⟨Moment.Carries.refl _, Fate.fits_of_unsent _, (UInt64.add_zero _).symm⟩

/-- One stretch of work after another. -/
theorem Brings.trans (first : Brings a b f) (second : Brings b c g) : Brings a c (f ++ g) := by
  -- The output is the same in both stretches, so fates fit it together.
  have target : b.worker.target? = a.worker.target? := Worker.target?_eq first.fixed
  refine ⟨first.toCarries.trans second.toCarries, first.fits.append (target ▸ second.fits), ?_⟩
  show c.sentCount = a.sentCount + UInt64.ofNat (f.sent ++ g.sent).length
  rw [second.sent, first.sent, List.length_append, UInt64.ofNat_add, UInt64.add_assoc]

/-- Work after which no more packets are brought anywhere. -/
theorem Brings.andThen (first : Brings a b f) (second : Brings b c {}) : Brings a c f := by
  -- The second stretch adds nothing to the fate.
  have both := first.trans second
  rwa [Fate.append_empty] at both

section Steps

variable {w : Worker σ} {p q : Plane} {hand : List Packet} {tally : Tally} {packet : Packet}
  {rest : List Packet}

/-- A worker that counts no packet and moves none brings none anywhere. -/
theorem Brings.of_still {w' : Worker σ} (fixed : w'.fixture = w.fixture)
    (rings : p.SameRings q)
    (references : w.ends.modest → ∀ packet,
      q.buffers.references packet = p.buffers.references packet)
    (pending : w'.backlog.pending = w.backlog.pending)
    (received : w'.counters.rxPackets = w.counters.rxPackets)
    (settled : w'.counters.settled = w.counters.settled)
    (sent : w'.counters.txPackets = w.counters.txPackets) :
    Brings ⟨w, p, hand, tally⟩ ⟨w', q, hand, tally⟩ {} := by
  -- Nothing is moved, and nothing is counted.
  refine ⟨Moment.Carries.of_still fixed rings references ?_ ?_ ?_, Fate.fits_of_unsent _, ?_⟩
  · simp only [moment, Moment.kept, pending]
  · simp only [moment, Moment.received, received]
  · simp only [moment, Moment.settled, settled]
  · show w'.counters.txPackets + _ = w.counters.txPackets + _ + UInt64.ofNat 0
    rw [sent]
    exact (UInt64.add_zero _).symm

/-- Packets pulled off the input are in the worker's hands, and counted as received. -/
theorem Brings.of_pulls {packets : List Packet} (pulled : p.Pulls q w.input.place packets)
    (bytes : UInt64) :
    Brings ⟨w, p, [], {}⟩
      ⟨{ w with counters := w.counters.recordRx (UInt64.ofNat packets.length) bytes }, q, packets,
        {}⟩ ⟨{ pulled := packets }, [], []⟩ := by
  -- The packets go from the input to the hand, and the counter goes up by as many.
  refine ⟨⟨rfl, Plane.Hauls.of_pulls pulled, ?_, ?_, ?_⟩, Fate.fits_of_unsent _, ?_⟩
  · simp [moment, Moment.kept]
  · simp [moment, Moment.received, Counters.recordRx]
  · simp [moment, Moment.settled, Counters.settled, Counters.recordRx]
  · exact (UInt64.add_zero _).symm

/-- A worker that finds nothing on its input brings no packet anywhere. -/
theorem Brings.of_nothing (pulled : p.Pulls q w.input.place []) :
    Brings ⟨w, p, hand, tally⟩ ⟨w, q, hand, tally⟩ {} := by
  -- Pulling nothing moves nothing.
  refine ⟨⟨rfl, Plane.Hauls.of_pulls pulled, ?_, (UInt64.add_zero _).symm,
    (UInt64.add_zero _).symm⟩, Fate.fits_of_unsent _, (UInt64.add_zero _).symm⟩
  exact .of_eq (List.append_nil _)

/-- What a processor does around a packet brings no packet anywhere. -/
theorem Brings.of_decision {context : Context} {decision : Decision σ}
    (decided : w.process context packet w.memory p.toSurroundings = decision) :
    Brings ⟨w, p, hand, tally⟩
      ⟨{ w with memory := decision.memory }, { p with toSurroundings := decision.surroundings }, hand,
        tally⟩ {} := by
  -- Only the surroundings change, where a modest processor keeps all references.
  refine Brings.of_still rfl (Plane.SameRings.congr rfl rfl rfl) ?_ rfl rfl rfl rfl
  intro modest other
  have kept := modest context packet w.memory p.toSurroundings other
  rw [decided] at kept
  exact kept

/-- Showing a packet to the tap brings no packet anywhere but what the tap keeps. -/
theorem capturePacket_brings (w : Worker σ) (packet : Packet) (p : Plane) (hand : List Packet)
    (tally : Tally) :
    ∃ captured, Brings ⟨w, p, hand, tally⟩
      ⟨(w.capturePacket packet p).1, (w.capturePacket packet p).2, hand, tally⟩
      ⟨{ captured }, [], []⟩ := by
  -- Without tap nothing is kept, and otherwise the tap keeps the packet or counts it as missed.
  rw [Worker.capturePacket]
  split
  · exact ⟨[], Brings.refl _⟩
  · rename_i number watched
    have tapped : w.ends.tap = some number := watched
    obtain ⟨captured, hauls⟩ := Plane.Hauls.of_tapPacket tapped p packet
    have shown : Brings ⟨w, p, hand, tally⟩ ⟨w, (p.tapPacket number packet).2, hand, tally⟩
        ⟨{ captured }, [], []⟩ := by
      refine ⟨⟨rfl, hauls, ?_, ?_, ?_⟩, Fate.fits_of_unsent _, (UInt64.add_zero _).symm⟩
      · simp [moment, Moment.kept]
      · exact (UInt64.add_zero _).symm
      · exact (UInt64.add_zero _).symm
    refine ⟨captured, ?_⟩
    split
    · rename_i told
      rw [told] at shown
      exact shown
    · rename_i after told
      rw [told] at shown
      have counted : Brings ⟨w, after, hand, tally⟩
          ⟨{ w with counters := w.counters.recordCaptureDrop }, after, hand, tally⟩ {} :=
        Brings.of_still rfl (Plane.SameRings.refl _) (fun _ _ => rfl) rfl rfl rfl rfl
      exact shown.andThen counted

/-- A packet that the processor drops is given back. -/
theorem Brings.of_drop (w : Worker σ) (p : Plane) (packet : Packet) (rest : List Packet)
    (tally : Tally) :
    Brings ⟨w, p, packet :: rest, tally⟩
      ⟨w, p.mapBuffers (·.release packet), rest, { tally with dropped := tally.dropped + 1 }⟩
      ⟨{ released := [packet] }, [], [packet]⟩ := by
  -- The packet leaves the hand, and is counted in the tally.
  refine ⟨⟨rfl, Plane.Hauls.of_releaseAll w.ends p [packet], ?_, ?_, ?_⟩,
    Fate.fits_of_unsent _, (UInt64.add_zero _).symm⟩
  · simp only [moment, Moment.kept, List.append_nil]
    exact List.perm_middle
  · exact (UInt64.add_zero _).symm
  · simp only [moment, Moment.settled, Tally.count, UInt64.ofNat_add, List.length_nil,
      List.length_singleton]
    grind

/-- A packet that no output is there for is given back as sent. -/
theorem Brings.of_deliver (output : w.target? = none) (p : Plane) (packet : Packet)
    (rest : List Packet) (tally : Tally) (bytes : Nat) :
    Brings ⟨w, p, packet :: rest, tally⟩
      ⟨w, p.mapBuffers (·.release packet), rest,
        { tally with outcome := { tally.outcome with
          sent := tally.outcome.sent + 1, sentBytes := bytes } }⟩
      ⟨{ released := [packet] }, [packet], []⟩ := by
  -- The packet leaves the hand, and is counted in the tally as sent.
  refine ⟨⟨rfl, Plane.Hauls.of_releaseAll w.ends p [packet], ?_, ?_, ?_⟩, ?_, ?_⟩
  · simp only [moment, Moment.kept, List.append_nil]
    exact List.perm_middle
  · exact (UInt64.add_zero _).symm
  · simp only [moment, Moment.settled, Tally.count, UInt64.ofNat_add, List.length_nil,
      List.length_singleton]
    grind
  · show Fate.Fits _ w.target?
    rw [output]
    exact ⟨rfl, .refl _⟩
  · simp only [sentCount, UInt64.ofNat_add, List.length_singleton]
    grind

/-- A packet in hand that is put behind those that wait stays with the worker. -/
theorem Brings.of_queued (w : Worker σ) (p : Plane) (packet : Packet) (rest : List Packet)
    (tally : Tally) :
    Brings ⟨w, p, packet :: rest, tally⟩
      ⟨{ w with backlog := { w.backlog with pending := w.backlog.pending ++ [packet] } }, p, rest,
        tally⟩ {} := by
  -- What is kept is the same, in another order.
  refine ⟨Moment.Carries.of_still rfl (Plane.SameRings.refl p) (fun _ _ => rfl) ?_ rfl rfl,
    Fate.fits_of_unsent _, (UInt64.add_zero _).symm⟩
  simp [moment, Moment.kept]

/-- A delivery out of a worker's backlog brings to their fates the packets that its outcome counts. -/
theorem Brings.of_delivers {outcome : Outcome} {backlog : Backlog} {f : Fate}
    (delivers : Backlog.Delivers w.ends w.backlog p outcome backlog q f.flow)
    (fits : f.Fits w.target?) (sent : outcome.sent = f.sent.length) (hand : List Packet)
    (tally : Tally) :
    Brings ⟨w, p, hand, tally⟩
      ⟨{ w with backlog }, q, hand, { tally with outcome := tally.outcome.merge outcome }⟩ f := by
  -- The outcome counts what was delivered, which the tally takes over.
  have counted := delivers.counted
  refine ⟨⟨?_, delivers.hauls, ?_, ?_, ?_⟩, fits, ?_⟩
  · simp only [moment, Worker.fixture, delivers.threshold, delivers.policy]
  · simp only [moment, Moment.kept]
    rw [delivers.pulled, List.append_nil, delivers.order, List.append_assoc]
  · rw [delivers.pulled]
    exact (UInt64.add_zero _).symm
  · rw [← counted]
    simp only [moment, Moment.settled, Tally.count, Outcome.merge, UInt64.ofNat_add]
    grind
  · simp only [sentCount, Outcome.merge, sent, UInt64.ofNat_add]
    grind

/-- An attempt brings to the output what that accepts. -/
theorem tryFlush_brings {target : Target} (output : w.target? = some target) (p : Plane)
    (hand : List Packet) (tally : Tally) :
    let tried := w.backlog.tryFlush target.sender p
    ∃ accepted, Brings ⟨w, p, hand, tally⟩
      ⟨{ w with backlog := tried.2.1 }, tried.2.2, hand,
        { tally with outcome := tally.outcome.merge tried.1 }⟩ ⟨{ accepted }, accepted, []⟩ := by
  -- An attempt drops nothing, so what is counted is what was accepted.
  have sink : w.ends.target = some target := output
  obtain ⟨⟨accepted, delivers⟩, none⟩ := Backlog.tryFlush_delivers sink w.backlog p
  refine ⟨accepted, Brings.of_delivers delivers ?_ ?_ hand tally⟩
  · rw [output]
    exact ⟨rfl, rfl⟩
  · have counted := delivers.counted
    rw [none] at counted
    exact counted

/-- Counting what came of packets brings none anywhere. -/
theorem recordTally_brings (w : Worker σ) (p : Plane) (tally : Tally) :
    Brings ⟨w, p, [], tally⟩ ⟨w.recordTally tally, p, [], {}⟩ {} := by
  -- What the tally counted is in the counters now.
  obtain ⟨received, sent, dropped, given⟩ := w.packets_recordTally tally
  have same : w.recordTally tally = { w with counters := (w.recordTally tally).counters } :=
    Worker.recordTally_eq w tally
  refine ⟨⟨?_, Plane.Hauls.of_same (Plane.SameRings.refl p) fun _ _ => rfl, ?_, ?_, ?_⟩,
    Fate.fits_of_unsent _, ?_⟩
  · exact (congrArg Worker.fixture same).trans rfl
  · simp only [moment, Moment.kept, congrArg Worker.backlog same]
    exact .of_eq (List.append_nil _)
  · simp only [moment, Moment.received, received]
    exact (UInt64.add_zero _).symm
  · simp only [moment, Moment.settled, Counters.settled, sent, dropped, given, Tally.count,
      UInt64.ofNat_add, List.length_nil]
    grind
  · show _ + UInt64.ofNat 0 = w.counters.txPackets + _ + UInt64.ofNat 0
    rw [sent]

/-- A packet buffered goes behind those that wait, and then the output may accept some of them. -/
theorem buffer_brings {target : Target} (output : w.target? = some target) (packet : Packet)
    (rest : List Packet) (tally : Tally) (p : Plane) :
    let buffered := w.backlog.buffer packet target.sender p
    ∃ accepted, Brings ⟨w, p, packet :: rest, tally⟩
      ⟨{ w with backlog := buffered.2.1 }, buffered.2.2, rest,
        { tally with outcome := tally.outcome.merge buffered.1 }⟩ ⟨{ accepted }, accepted, []⟩ := by
  -- The packet waits first, and is then part of what may be flushed.
  have queued := Brings.of_queued w p packet rest tally
  simp only [Backlog.buffer]
  split
  · rw [Outcome.merge_empty]
    exact ⟨[], queued⟩
  · let w' : Worker σ :=
      { w with backlog := { w.backlog with pending := w.backlog.pending ++ [packet] } }
    obtain ⟨accepted, tried⟩ := tryFlush_brings (w := w') output p rest tally
    refine ⟨accepted, (queued.trans tried).andThen ?_⟩
    refine Brings.of_still ?_ (Plane.SameRings.refl _) (fun _ _ => rfl) ?_ rfl rfl rfl
    · simp only [w']
      split <;> rfl
    · simp only [w']
      split <;> rfl

end Steps

/-- Work that brings packets to their fates and pulls none. -/
def Settles (a b : Desk σ) : Prop :=
  ∃ f, Brings a b f ∧ f.flow.pulled = []

/-- Work that brings packets that were pulled before to their fates. -/
theorem Brings.settles (brings : Brings a b f) (none : f.flow.pulled = []) : Settles a b :=
  ⟨f, brings, none⟩

/-- One stretch of work after another. -/
theorem Settles.trans (first : Settles a b) (second : Settles b c) : Settles a c := by
  -- Neither stretch pulls anything.
  obtain ⟨f, one, none⟩ := first
  obtain ⟨g, two, still⟩ := second
  refine ⟨f ++ g, one.trans two, ?_⟩
  show f.flow.pulled ++ g.flow.pulled = []
  rw [none, still, List.append_nil]

/-- Putting a packet on its way brings it to its fate or leaves it waiting. -/
theorem forward_settles (w : Worker σ) (packet : Packet) (rest : List Packet) (tally : Tally)
    (p : Plane) :
    let work := w.forward packet tally p
    Settles ⟨w, p, packet :: rest, tally⟩ ⟨work.worker, work.plane, rest, work.tally⟩ := by
  -- The packet is shown first, and then waits or is delivered at once.
  obtain ⟨captured, shown⟩ := capturePacket_brings w packet p (packet :: rest) tally
  simp only [Worker.forward]
  generalize w.capturePacket packet p = pair at shown
  obtain ⟨w', q⟩ := pair
  refine (shown.settles rfl).trans ?_
  simp only
  cases output : w'.target? with
  | some target =>
    obtain ⟨accepted, buffered⟩ := buffer_brings output packet rest tally q
    exact buffered.settles rfl
  | none => exact (Brings.of_deliver output q packet rest tally _).settles rfl

/-- A packet processed is brought to its fate or left waiting, unless the processor dies. -/
theorem process_settles (context : Context) (packet : Packet) (rest : List Packet) (work : Work σ)
    (alive : (Worker.processAll context [packet] work).crashed = false) :
    let done := Worker.processAll context [packet] work
    Settles ⟨work.worker, work.plane, packet :: rest, work.tally⟩
      ⟨done.worker, done.plane, rest, done.tally⟩ := by
  -- By cases on the verdict.
  simp only [Worker.processAll] at alive ⊢
  generalize decided : work.worker.process context packet work.worker.memory
    work.plane.toSurroundings = decision at alive ⊢
  have looked : Settles ⟨work.worker, work.plane, packet :: rest, work.tally⟩ _ :=
    (Brings.of_decision decided).settles rfl
  cases verdict : decision.verdict with
  | forward => exact looked.trans (forward_settles _ packet rest work.tally _)
  | drop => exact looked.trans ((Brings.of_drop _ _ packet rest work.tally).settles rfl)
  | crash => simp [verdict] at alive

/-- An attempt to push out what waits brings to its fate what goes. -/
theorem attempt_settles (w : Worker σ) (p : Plane) :
    Settles ⟨w, p, [], {}⟩ ⟨(w.attempt p).1, (w.attempt p).2, [], {}⟩ := by
  -- What came of the packets is counted at once.
  have counts : ∀ {outcome : Outcome} {backlog : Backlog} {q : Plane} {f : Fate},
      Brings ⟨w, p, [], {}⟩
        ⟨{ w with backlog }, q, [], { outcome := ({} : Outcome).merge outcome }⟩ f →
      f.flow.pulled = [] →
      Settles ⟨w, p, [], {}⟩ ⟨({ w with backlog } : Worker σ).recordOutcome outcome, q, [], {}⟩ := by
    intro outcome backlog q f brings none
    rw [Outcome.empty_merge] at brings
    exact (brings.andThen (recordTally_brings _ _ _)).settles none
  rw [Worker.attempt]
  cases output : w.target? with
  | some target =>
    obtain ⟨accepted, tried⟩ := tryFlush_brings output p [] {}
    exact counts tried rfl
  | none =>
    have delivers := Backlog.discard_delivers w.ends w.backlog p
    let f : Fate := ⟨{ released := w.backlog.pending }, w.backlog.pending, []⟩
    have fits : f.Fits w.target? := by
      rw [output]
      exact ⟨rfl, .of_eq (List.append_nil _).symm⟩
    exact counts (Brings.of_delivers (f := f) delivers fits rfl [] {}) rfl

/-- Giving up what waits brings all of it to its fate. -/
theorem dropPending_settles (w : Worker σ) (p : Plane) :
    let given := w.backlog.dropPending p
    Settles ⟨w, p, [], {}⟩
      ⟨{ w with backlog := given.2.1, counters := w.counters.recordTxDrop (UInt64.ofNat given.1) },
        given.2.2, [], {}⟩ := by
  -- The outcome of giving up is counted at once.
  have delivers := Backlog.dropPending_delivers w.ends w.backlog p
  let f : Fate := ⟨{ released := w.backlog.pending }, [], w.backlog.pending⟩
  have given := Brings.of_delivers (f := f) delivers (Fate.fits_of_unsent _) rfl [] {}
  rw [Outcome.empty_merge] at given
  refine (given.andThen ?_).settles rfl
  refine ⟨Moment.Carries.of_still rfl (Plane.SameRings.refl _) (fun _ _ => rfl) rfl rfl ?_,
    Fate.fits_of_unsent _, (UInt64.add_zero _).symm⟩
  simp only [moment, Moment.settled, Tally.count, Counters.settled_recordTxDrop, Nat.zero_add,
    Nat.add_zero]
  exact UInt64.add_zero _

end Desk

end PacketPlane
