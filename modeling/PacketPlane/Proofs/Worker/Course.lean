import PacketPlane.Proofs.Buffer.Treatment
import PacketPlane.Proofs.Worker.Drain
import PacketPlane.Proofs.Worker.Strokes

/-! Courses: what a worker's packets come to when they are taken one by one, and the fact that no
stroke of the worker's work changes it. -/

namespace PacketPlane

namespace Processor.Treats

variable {σ : Type} {process : Processor σ} {treat : Treatment σ} {context : Context}
  {packet : Packet} {memory : σ} {s : Surroundings} {decision : Decision σ}

/-- A processor that treats packets does not die on any. -/
theorem survives (treats : process.Treats treat) : process.Survives := by
  -- A treatment knows of two verdicts, and dying is neither.
  intro context packet memory s died
  have told := (treats context packet memory s).1
  rw [died] at told
  split at told <;> cases told

/-- A packet that the processor forwards is let through by its treatment. -/
theorem through (treats : process.Treats treat) (decided : process context packet memory s = decision)
    (verdict : decision.verdict = .forward) : (treat packet memory s.buffers).1 = true := by
  -- Any other answer would have been a drop.
  have told := (treats context packet memory s).1
  rw [decided, verdict] at told
  by_contra stopped
  rw [if_neg stopped] at told
  cases told

/-- A packet that the processor drops is not let through by its treatment. -/
theorem stopped (treats : process.Treats treat) (decided : process context packet memory s = decision)
    (verdict : decision.verdict = .drop) : (treat packet memory s.buffers).1 ≠ true := by
  -- Any other answer would have been a forward.
  have told := (treats context packet memory s).1
  rw [decided, verdict] at told
  intro through
  rw [if_pos through] at told
  cases told

end Processor.Treats

/-- What a worker's packets have come to: what the processor remembers, the buffers and the taps, the
packets sent, and the counts. -/
@[ext]
structure Course (σ : Type) where
  memory : σ
  buffers : Buffers
  taps : Array (Held Tap)
  sent : List Packet
  rxPackets : UInt64
  rxBytes : UInt64
  txPackets : UInt64
  txBytes : UInt64
  dropped : UInt64
  txDropped : UInt64
  captureDropped : UInt64

namespace Course

variable {σ : Type}

/-- A packet shown to a tap, if there is one. -/
def tapped (c : Course σ) (capture : Option Nat) (packet : Packet) : Course σ :=
  -- Nothing but buffers and taps is needed for that.
  match capture with
  | none => c
  | some tap =>
    let (kept, plane) := ({ buffers := c.buffers, taps := c.taps } : Plane).tapPacket tap packet
    { c with
      buffers := plane.buffers, taps := plane.taps
      captureDropped := c.captureDropped + if kept then 0 else 1 }

/-- A packet pulled and treated. -/
def treated (treat : Treatment σ) (c : Course σ) (packet : Packet) : Course σ :=
  -- Its length is counted as it was before.
  let (_, memory, edits) := treat packet c.memory c.buffers
  { c with
    memory, buffers := c.buffers.performAll packet edits
    rxPackets := c.rxPackets + 1
    rxBytes := c.rxBytes + UInt64.ofNat (c.buffers.len packet) }

/-- A packet that the processor drops. -/
def lost (c : Course σ) (packet : Packet) : Course σ :=
  { c with buffers := c.buffers.release packet, dropped := c.dropped + 1 }

/-- A packet that goes to the output, or is given back as if it had been sent. -/
def passed (discards : Bool) (c : Course σ) (packet : Packet) : Course σ :=
  -- It counts as sent in either case.
  { c with
    buffers := if discards then c.buffers.release packet else c.buffers
    sent := if discards then c.sent else c.sent ++ [packet]
    txPackets := c.txPackets + 1
    txBytes := c.txBytes + UInt64.ofNat (c.buffers.len packet) }

/-- One packet treated, and then shown to the tap and passed on, or dropped. -/
def next (treat : Treatment σ) (capture : Option Nat) (discards : Bool) (c : Course σ)
    (packet : Packet) : Course σ :=
  if (treat packet c.memory c.buffers).1 then
    ((c.treated treat packet).tapped capture packet).passed discards packet
  else (c.treated treat packet).lost packet

/-- The counts of a course in the order of the counters that do not depend on polling. -/
def stable (c : Course σ) : List UInt64 := [
  c.rxPackets, c.txPackets, c.rxBytes, c.txBytes, c.dropped, c.txDropped, c.captureDropped]

end Course

namespace Desk

variable {σ : Type}

/-- The packets that are still to be processed, in their order. -/
def coming (d : Desk σ) : List Packet :=
  d.hand ++ d.plane.contents d.worker.input.place

/-- All packets that a worker still has to answer for. -/
def kept (d : Desk σ) : List Packet :=
  d.worker.backlog.pending ++ d.coming

/-- The packets on the output, if there is one. -/
def sent (d : Desk σ) : List Packet :=
  (d.worker.target?.map fun target => d.plane.contents target.place).getD []

/-- What the packets processed so far have come to, when those that wait are counted as sent. -/
def course (d : Desk σ) : Course σ where
  memory := d.worker.memory
  buffers := d.plane.buffers
  taps := d.plane.taps
  sent := d.sent ++ d.worker.backlog.pending
  rxPackets := d.worker.counters.rxPackets - UInt64.ofNat d.hand.length
  rxBytes := d.worker.counters.rxBytes - UInt64.ofNat (d.plane.buffers.totalLen d.hand)
  txPackets := d.worker.counters.txPackets +
    UInt64.ofNat (d.tally.outcome.sent + d.worker.backlog.pending.length)
  txBytes := d.worker.counters.txBytes +
    UInt64.ofNat (d.tally.outcome.sentBytes + d.plane.buffers.totalLen d.worker.backlog.pending)
  dropped := d.worker.counters.dropped + UInt64.ofNat d.tally.dropped
  txDropped := d.worker.counters.txDropped + UInt64.ofNat d.tally.outcome.dropped
  captureDropped := d.worker.counters.captureDropped

/-- What all packets will have come to once those that are still to come are processed. -/
def outlook (treat : Treatment σ) (d : Desk σ) : Course σ :=
  d.coming.foldl (Course.next treat d.worker.capture d.worker.target?.isNone) d.course

/-- A worker whose packets are live references, whose processor treats packets alone, and whose output
has room for all that is still to come. -/
structure Clear (treat : Treatment σ) (d : Desk σ) : Prop where
  treats : d.worker.process.Treats treat
  apart : d.worker.target?.map Target.place ≠ some d.worker.input.place
  atRest : d.plane.AtRest
  idle : d.worker.target? = none → d.worker.backlog.pending = []
  honest : d.tally.outcome.sent = 0 → d.tally.outcome.sentBytes = 0
  room : ∀ target, d.worker.target? = some target → ∃ number, target = .ring number ∧
    d.sent.length + d.kept.length ≤ d.plane.ringCapacity number
  held : ∃ l : Ledger, l.Reachable ∧ l.buffers = d.plane.buffers ∧ d.kept.Subperm l.packets ∧
    (d.worker.capture ≠ none →
      ∀ packet, l.references packet + d.coming.count packet < UInt32.size)

end Desk

namespace Plane

variable {p q : Plane}

/-- Places other than taps keep what waits there when rings and devices stay. -/
theorem contents_congr (rings : q.rings = p.rings) (devices : q.devices = p.devices) {place : Place}
    (untapped : ∀ number, place ≠ .tap number) : q.contents place = p.contents place := by
  -- By cases on the place, of which only taps are looked up elsewhere.
  have same : q.ringAt? place = p.ringAt? place := by
    cases place with
    | ring number => rw [ringAt?, ringAt?, ring?, ring?, rings]
    | received port => rw [ringAt?, ringAt?, device?, device?, devices]
    | sending port => rw [ringAt?, ringAt?, device?, device?, devices]
    | tap number => exact absurd rfl (untapped number)
  rw [contents, contents, same]

/-- Rings that stay keep their capacities. -/
theorem ringCapacity_congr (rings : q.rings = p.rings) (number : Nat) :
    q.ringCapacity number = p.ringCapacity number := by
  rw [ringCapacity, ringCapacity, ring?, ring?, rings]

/-- Showing a packet to a tap touches neither rings nor devices. -/
theorem tapPacket_apart (p : Plane) (number : Nat) (packet : Packet) :
    (p.tapPacket number packet).2.rings = p.rings ∧
      (p.tapPacket number packet).2.devices = p.devices := by
  -- Only buffers and taps may change.
  rw [tapPacket]
  split <;> exact ⟨rfl, rfl⟩

/-- What showing a packet to a tap comes to depends on buffers and taps alone. -/
theorem tapPacket_congr (buffers : q.buffers = p.buffers) (taps : q.taps = p.taps) (number : Nat)
    (packet : Packet) :
    (q.tapPacket number packet).1 = (p.tapPacket number packet).1 ∧
      (q.tapPacket number packet).2.buffers = (p.tapPacket number packet).2.buffers ∧
      (q.tapPacket number packet).2.taps = (p.tapPacket number packet).2.taps := by
  -- The same tap is looked up, and does the same to the same buffers.
  have same : q.tap? number = p.tap? number := by
    rw [tap?, tap?, taps]
  rw [tapPacket, tapPacket, same, buffers]
  cases p.tap? number with
  | none => exact ⟨rfl, buffers, taps⟩
  | some tap =>
    refine ⟨rfl, rfl, ?_⟩
    simp only [setTap, taps]

/-- A packet shown to a tap is either shared once more, by somebody else, or left as it was. -/
theorem tapPacket_ledger {l : Ledger} (run : l.Reachable) (same : l.buffers = p.buffers)
    {packet : Packet} (listed : packet ∈ l.packets)
    (small : l.references packet + 1 < UInt32.size) (number : Nat) :
    ∃ later : Ledger, later.Reachable ∧ later.buffers = (p.tapPacket number packet).2.buffers ∧
      l.packets.Subperm later.packets ∧
      (∀ other, later.references other ≤ l.references other + [packet].count other) ∧
      l.buffers.Touches later.buffers [] := by
  -- A tap with room shares the packet, and one without gives its reference back at once.
  have unshared : ∃ later : Ledger, later.Reachable ∧ later.buffers = p.buffers ∧
      l.packets.Subperm later.packets ∧
      (∀ other, later.references other ≤ l.references other + [packet].count other) ∧
      l.buffers.Touches later.buffers [] :=
    ⟨l, run, same, List.Subperm.refl _, fun _ => Nat.le_add_right _ _, Buffers.Touches.refl _⟩
  rw [tapPacket]
  cases found : p.tap? number with
  | none => exact unshared
  | some tap =>
    cases put : tap.ring.enqueue packet with
    | ok ring =>
      refine ⟨l.call (.clone packet), run.call _ ⟨listed, small⟩, ?_, ?_, ?_, ?_⟩
      · simp only [Ledger.call, Tap.tap, put, same]
      · exact (List.sublist_cons_self packet l.packets).subperm
      · intro other
        have count : (l.call (.clone packet)).references other =
            (packet :: l.live).count other := rfl
        rw [count, ← List.singleton_append, List.count_append, Nat.add_comm]
        exact Nat.le_refl _
      · exact l.call_touches (.clone packet)
    | error refused =>
      obtain rfl := Ring.enqueue_error put
      have held : 0 < p.buffers.refcount packet := by
        rw [← same]
        exact run.sound.refcount_pos (List.mem_append_left _ listed)
      simpa only [Tap.tap, put, Buffers.release_addRef held] using unshared

end Plane

/-- A ring with room for all that waits accepts all of it at once. -/
theorem Backlog.tryFlush_room {b b' : Backlog} {p p' : Plane} {number : Nat} {outcome : Outcome}
    (atRest : p.AtRest)
    (room : (p.contents (.ring number)).length + b.pending.length ≤ p.ringCapacity number)
    (tried : b.tryFlush (Target.ring number).sender p = (outcome, b', p')) :
    b' = { b with pending := [] } ∧
      outcome = { sent := b.pending.length, sentBytes := p.buffers.totalLen b.pending } ∧
      p.Puts p' (.ring number) b.pending ∧ p'.taps = p.taps ∧
      ∀ other, p'.ringCapacity other = p.ringCapacity other := by
  -- An empty backlog makes no attempt, and any other goes to a ring that has room for all of it.
  by_cases empty : b.pending = []
  · rw [tryFlush, empty] at tried
    cases tried
    rw [empty]
    refine ⟨?_, rfl, Plane.Puts.refl p _, rfl, fun _ => rfl⟩
    rw [← empty]
  · cases found : p.ring? number with
    | none =>
      rw [Plane.ringCapacity, found] at room
      -- A ring that is not there has no room for what waits.
      have length := List.length_pos_of_ne_nil empty
      simp only at room
      omega
    | some r =>
      obtain ⟨items, held⟩ := atRest (.ring number) r found
      have waiting : p.contents (.ring number) = items := Plane.contents_eq found held
      obtain ⟨accepted, rest, after⟩ := held.enqueueBulk_holds b.pending
      rw [Plane.ringCapacity, found, waiting] at room
      simp only at room
      -- The ring accepts all, and nothing is left over.
      rw [Nat.min_eq_left (by omega)] at accepted
      rw [List.drop_of_length_le (by omega)] at rest
      have put : p.enqueueBulk number b.pending =
          (b.pending.length, [], p.setRing number (r.enqueueBulk b.pending).ring) := by
        rw [Plane.enqueueBulk, found]
        simp only [accepted, rest]
      have puts := (p.enqueueBulk_puts number b.pending).2.2
      rw [put, List.take_length] at puts
      rw [tryFlush, if_neg (by rw [List.isEmpty_iff]; exact empty)] at tried
      simp only [Target.sender, put, Buffers.totalLen, List.foldl_nil, Nat.sub_zero,
        List.isEmpty_nil, Bool.not_true, Prod.mk.injEq] at tried
      obtain ⟨rfl, rfl, rfl⟩ := tried
      exact ⟨rfl, rfl, puts, rfl,
        Plane.ringCapacity_setRing found (Ring.capacity_enqueueBulk r b.pending)⟩

namespace Worker

variable {σ : Type}

/-- A number that is only added when it is not zero is added all the same. -/
theorem ite_add_ofNat (total : UInt64) (count : Nat) :
    (if count > 0 then total + UInt64.ofNat count else total) = total + UInt64.ofNat count := by
  -- Adding zero changes nothing.
  split
  · rfl
  · rename_i zero
    rw [Nat.eq_zero_of_not_pos zero]
    exact (UInt64.add_zero total).symm

/-- The packets of a tally are counted as what it says. -/
theorem packets_recordTally (w : Worker σ) (tally : Tally) :
    let counters := (w.recordTally tally).counters
    counters.rxPackets = w.counters.rxPackets ∧
      counters.txPackets = w.counters.txPackets + UInt64.ofNat tally.outcome.sent ∧
      counters.dropped = w.counters.dropped + UInt64.ofNat tally.dropped ∧
      counters.txDropped = w.counters.txDropped + UInt64.ofNat tally.outcome.dropped := by
  -- Each of the conditions only leaves out what is zero.
  intro counters
  rw [← ite_add_ofNat w.counters.txPackets, ← ite_add_ofNat w.counters.dropped,
    ← ite_add_ofNat w.counters.txDropped]
  simp only [counters, recordTally, recordOutcome, Counters.recordDrop, Counters.recordTx,
    Counters.recordTxDrop, Counters.recordBackpressure, apply_ite Worker.counters,
    apply_ite Counters.rxPackets, apply_ite Counters.txPackets, apply_ite Counters.dropped,
    apply_ite Counters.txDropped, ite_self, and_self]

/-- A tally is counted as what it says, when bytes are sent with packets only. -/
theorem counters_recordTally (w : Worker σ) {tally : Tally}
    (honest : tally.outcome.sent = 0 → tally.outcome.sentBytes = 0) :
    let counters := (w.recordTally tally).counters
    counters.rxPackets = w.counters.rxPackets ∧ counters.rxBytes = w.counters.rxBytes ∧
      counters.txPackets = w.counters.txPackets + UInt64.ofNat tally.outcome.sent ∧
      counters.txBytes = w.counters.txBytes + UInt64.ofNat tally.outcome.sentBytes ∧
      counters.dropped = w.counters.dropped + UInt64.ofNat tally.dropped ∧
      counters.txDropped = w.counters.txDropped + UInt64.ofNat tally.outcome.dropped ∧
      counters.captureDropped = w.counters.captureDropped := by
  -- Bytes are counted under the condition of their packets, which leaves out no bytes either.
  have bytes : (if tally.outcome.sent > 0 then
      w.counters.txBytes + UInt64.ofNat tally.outcome.sentBytes else w.counters.txBytes) =
        w.counters.txBytes + UInt64.ofNat tally.outcome.sentBytes := by
    split
    · rfl
    · rename_i none
      rw [honest (Nat.eq_zero_of_not_pos none)]
      exact (UInt64.add_zero _).symm
  obtain ⟨received, sent, dropped, given⟩ := w.packets_recordTally tally
  refine ⟨received, ?_, sent, ?_, dropped, given, ?_⟩
  · simp only [recordTally, recordOutcome, Counters.recordDrop, Counters.recordTx,
      Counters.recordTxDrop, Counters.recordBackpressure, apply_ite Worker.counters,
      apply_ite Counters.rxBytes, ite_self]
  · rw [← bytes]
    simp only [recordTally, recordOutcome, Counters.recordDrop, Counters.recordTx,
      Counters.recordTxDrop, Counters.recordBackpressure, apply_ite Worker.counters,
      apply_ite Counters.txBytes, ite_self]
  · simp only [recordTally, recordOutcome, Counters.recordDrop, Counters.recordTx,
      Counters.recordTxDrop, Counters.recordBackpressure, apply_ite Worker.counters,
      apply_ite Counters.captureDropped, ite_self]

/-- Showing a packet to a worker's tap comes to the same as on a course, and leaves the rest alone. -/
theorem capturePacket_tapped {w w' : Worker σ} {p p' : Plane} {packet : Packet}
    (shown : w.capturePacket packet p = (w', p')) {c : Course σ} (buffers : c.buffers = p.buffers)
    (taps : c.taps = p.taps) (missed : c.captureDropped = w.counters.captureDropped) :
    w'.fixture = w.fixture ∧ w'.memory = w.memory ∧ w'.backlog = w.backlog ∧
      w'.counters = { w.counters with
        captureDropped := (c.tapped w.capture packet).captureDropped } ∧
      p'.buffers = (c.tapped w.capture packet).buffers ∧
      p'.taps = (c.tapped w.capture packet).taps ∧ p'.rings = p.rings ∧ p'.devices = p.devices := by
  -- Without tap nothing is shown, and otherwise the course shows the packet to the same tap.
  rw [capturePacket] at shown
  cases watched : w.capture with
  | none =>
    simp only [watched, Prod.mk.injEq] at shown
    obtain ⟨rfl, rfl⟩ := shown
    exact ⟨rfl, rfl, rfl, by rw [Course.tapped, missed], buffers.symm, taps.symm, rfl, rfl⟩
  | some number =>
    obtain ⟨kept, stored, watching⟩ := Plane.tapPacket_congr
      (q := { buffers := c.buffers, taps := c.taps }) buffers taps number packet
    obtain ⟨rings, devices⟩ := p.tapPacket_apart number packet
    simp only [watched] at shown
    simp only [Course.tapped, kept, stored, watching, missed]
    split at shown
    · rename_i told
      simp only [Prod.mk.injEq] at shown
      obtain ⟨rfl, rfl⟩ := shown
      rw [told] at rings devices ⊢
      refine ⟨rfl, rfl, rfl, ?_, rfl, rfl, rings, devices⟩
      simp
    · rename_i told
      simp only [Prod.mk.injEq] at shown
      obtain ⟨rfl, rfl⟩ := shown
      rw [told] at rings devices ⊢
      exact ⟨by simp only [fixture, watched], rfl, rfl, rfl, rfl, rfl, rings, devices⟩

end Worker

namespace Desk

variable {σ : Type} {treat : Treatment σ} {w : Worker σ} {p : Plane} {packet : Packet}
  {rest : List Packet} {tally : Tally}

/-- Packets on the output stay there when rings and devices stay. -/
theorem sent_congr {w' : Worker σ} {p' : Plane} {hand hand' : List Packet} {tally' : Tally}
    (fixed : w'.fixture = w.fixture) (rings : p'.rings = p.rings)
    (devices : p'.devices = p.devices) :
    (⟨w', p', hand', tally'⟩ : Desk σ).sent = (⟨w, p, hand, tally⟩ : Desk σ).sent := by
  -- The output is part of the fixture, and is no tap.
  simp only [sent, Worker.target?_eq fixed]
  cases w.target? with
  | none => rfl
  | some out => exact Plane.contents_congr rings devices (Flow.target_ne_tap out)

/-- The packet under work may be edited: none of the others shows it. -/
theorem Clear.edited (clear : Clear treat ⟨w, p, packet :: rest, tally⟩) (edits : List Edit) :
    ∃ l : Ledger, l.Reachable ∧ l.buffers = p.buffers.performAll packet edits ∧
      (w.backlog.pending ++ packet :: (rest ++ p.contents w.input.place)).Subperm l.packets ∧
      (w.capture ≠ none → ∀ other, l.references other +
        (packet :: (rest ++ p.contents w.input.place)).count other < UInt32.size) ∧
      ∀ other ∈ w.backlog.pending ++ (rest ++ p.contents w.input.place),
        other ∈ l.packets ∧ l.buffers.face? other = p.buffers.face? other := by
  -- The packet under work is on record among the others.
  obtain ⟨l, run, same, owned, small⟩ := clear.held
  obtain ⟨edited, faces⟩ := run.edited owned edits
  refine ⟨_, edited, by rw [same], owned, small, ?_⟩
  rw [← same]
  exact faces

/-- What a processor did with the packet under work, as its treatment says. -/
theorem Clear.decided (clear : Clear treat ⟨w, p, packet :: rest, tally⟩) {context : Context}
    {decision : Decision σ}
    (decided : w.process context packet w.memory p.toSurroundings = decision) :
    decision.memory = (treat packet w.memory p.buffers).2.1 ∧
      decision.surroundings.buffers =
        p.buffers.performAll packet (treat packet w.memory p.buffers).2.2 := by
  subst decided
  exact (clear.treats context packet w.memory p.toSurroundings).2

/-- A packet processed as its course says leaves the worker clear, and the outlook as it was. -/
theorem Clear.processed (clear : Clear treat ⟨w, p, packet :: rest, tally⟩) {w' : Worker σ}
    {p' : Plane} {tally' : Tally} (fixed : w'.fixture = w.fixture) (rings : p'.rings = p.rings)
    (devices : p'.devices = p.devices) (atRest : p'.AtRest)
    (idle : w.target? = none → w'.backlog.pending = [])
    (honest : tally'.outcome.sent = 0 → tally'.outcome.sentBytes = 0)
    (most : w'.backlog.pending.length ≤ w.backlog.pending.length + 1)
    (held : ∃ l : Ledger, l.Reachable ∧ l.buffers = p'.buffers ∧
      (w'.backlog.pending ++ (rest ++ p.contents w.input.place)).Subperm l.packets ∧
      (w.capture ≠ none → ∀ other,
        l.references other + (rest ++ p.contents w.input.place).count other < UInt32.size))
    (course : (⟨w', p', rest, tally'⟩ : Desk σ).course =
      Course.next treat w.capture w.target?.isNone
        (⟨w, p, packet :: rest, tally⟩ : Desk σ).course packet) :
    Clear treat ⟨w', p', rest, tally'⟩ ∧
      outlook treat ⟨w', p', rest, tally'⟩ = outlook treat ⟨w, p, packet :: rest, tally⟩ := by
  -- The packet has left the hand, so the course has one packet less ahead and one more behind.
  have target := Worker.target?_eq fixed
  have input : w'.input = w.input := congrArg Fixture.input fixed
  have process : w'.process = w.process := congrArg Fixture.process fixed
  have capture : w'.capture = w.capture := congrArg Fixture.capture fixed
  have untapped : ∀ number, w.input.place ≠ .tap number := by
    intro number
    cases w.input <;> exact Place.noConfusion
  have coming : p'.contents w.input.place = p.contents w.input.place :=
    Plane.contents_congr rings devices untapped
  have sent : (⟨w', p', rest, tally'⟩ : Desk σ).sent =
      (⟨w, p, packet :: rest, tally⟩ : Desk σ).sent := sent_congr fixed rings devices
  refine ⟨⟨?_, ?_, atRest, ?_, honest, ?_, ?_⟩, ?_⟩
  · simpa only [process] using clear.treats
  · simpa only [target, input] using clear.apart
  · simpa only [target] using idle
  · intro out output
    obtain ⟨number, same, room⟩ := clear.room out (target ▸ output)
    refine ⟨number, same, ?_⟩
    have capacity : p'.ringCapacity number = p.ringCapacity number :=
      Plane.ringCapacity_congr rings number
    simp only [kept, Desk.coming, List.length_append, List.length_cons] at room ⊢
    rw [sent]
    simp only [input, coming, capacity]
    omega
  · simpa only [kept, Desk.coming, input, coming, capture] using held
  · simp only [outlook, Desk.coming, input, coming, capture, target, course, List.cons_append,
      List.foldl_cons]

end Desk

namespace Desk

variable {σ : Type} {treat : Treatment σ} {w w' : Worker σ} {p p' : Plane} {packet : Packet}
  {rest : List Packet} {tally : Tally} {context : Context} {decision : Decision σ}

/-- What is not still to come was received. -/
theorem sub_part (count : UInt64) (part rest : Nat) :
    count - UInt64.ofNat rest = count - UInt64.ofNat (part + rest) + UInt64.ofNat part := by
  -- Sums of words may be split.
  rw [UInt64.ofNat_add]
  grind

/-- The bytes received do not count a packet that is still in hand. -/
theorem rxBytes_rest {b b' : Buffers} (count : UInt64)
    (same : b'.totalLen rest = b.totalLen rest) :
    count - UInt64.ofNat (b'.totalLen rest) =
      count - UInt64.ofNat (b.totalLen (packet :: rest)) + UInt64.ofNat (b.len packet) := by
  -- The first packet's bytes are part of the sum.
  rw [same, Buffers.totalLen_eq b (packet :: rest), List.map_cons, List.sum_cons,
    ← Buffers.totalLen_eq]
  exact sub_part count _ _

/-- The packets received do not count one that is still in hand. -/
theorem rxPackets_rest (count : UInt64) :
    count - UInt64.ofNat rest.length = count - UInt64.ofNat (packet :: rest).length + 1 := by
  -- The first packet is one of the list.
  rw [List.length_cons, Nat.add_comm]
  exact sub_part count 1 _

/-- A worker that drops the packet under work does with it what its course says. -/
theorem Clear.drop (clear : Clear treat ⟨w, p, packet :: rest, tally⟩)
    (decided : w.process context packet w.memory p.toSurroundings = decision)
    (verdict : decision.verdict = .drop) :
    let after : Desk σ := ⟨{ w with memory := decision.memory },
      ({ p with toSurroundings := decision.surroundings } : Plane).mapBuffers (·.release packet),
      rest, { tally with dropped := tally.dropped + 1 }⟩
    Clear treat after ∧ after.outlook treat = outlook treat ⟨w, p, packet :: rest, tally⟩ := by
  -- The packet is edited, given back and counted as dropped, as on the course.
  intro after
  obtain ⟨memory, buffers⟩ := clear.decided decided
  obtain ⟨l, run, same, owned, small, faces⟩ := clear.edited (treat packet w.memory p.buffers).2.2
  obtain ⟨later, left, fewer⟩ := run.given owned
  rw [← buffers] at same
  -- The packet's release shows in no other packet's length.
  have lens : ∀ other ∈ w.backlog.pending ++ (rest ++ p.contents w.input.place),
      after.plane.buffers.len other = p.buffers.len other := by
    intro other member
    obtain ⟨listed, face⟩ := faces other member
    apply Buffers.len_congr
    rw [← face, ← run.face?_touches listed (l.buffers.release_touches packet), same]
    rfl
  have rings : Plane.SameRings p after.plane := Plane.SameRings.congr rfl rfl rfl
  refine clear.processed rfl rfl rfl (rings.contents clear.atRest).1 clear.idle clear.honest
    (Nat.le_succ _) ⟨_, later, ?_, left, ?_⟩ ?_
  · simp only [Ledger.call, same]
    rfl
  · intro watched other
    have bound := small watched other
    have less := fewer other
    rw [List.count_cons] at bound
    omega
  · have pending := Buffers.totalLen_congr fun other member =>
      lens other (List.mem_append_left _ member)
    have coming := Buffers.totalLen_congr fun other member =>
      lens other (List.mem_append_right _ (List.mem_append_left _ member))
    -- The treatment stops the packet too, so the course counts it as dropped.
    have stopped : (treat packet (⟨w, p, packet :: rest, tally⟩ : Desk σ).course.memory
        (⟨w, p, packet :: rest, tally⟩ : Desk σ).course.buffers).1 ≠ true :=
      clear.treats.stopped decided verdict
    rw [Course.next, if_neg stopped]
    apply Course.ext
    · exact memory
    · exact congrArg (·.release packet) buffers
    · rfl
    · rfl
    · exact rxPackets_rest _
    · exact rxBytes_rest _ coming
    · rfl
    · show w.counters.txBytes + UInt64.ofNat
          (tally.outcome.sentBytes + after.plane.buffers.totalLen w.backlog.pending) = _
      rw [pending]
      rfl
    · show w.counters.dropped + UInt64.ofNat (tally.dropped + 1) =
        w.counters.dropped + UInt64.ofNat tally.dropped + UInt64.ofNat 1
      rw [UInt64.ofNat_add, UInt64.add_assoc]
    · rfl
    · rfl

/-- What a course does with a packet that is let through, up to its tap. -/
theorem Course.next_through {c : Course σ} {capture : Option Nat} {discards : Bool}
    (through : (treat packet c.memory c.buffers).1 = true) :
    c.next treat capture discards packet =
      ((c.treated treat packet).tapped capture packet).passed discards packet := by
  rw [Course.next, if_pos through]

/-- What showing a packet to a tap leaves alone on a course. -/
theorem Course.tapped_apart (c : Course σ) (capture : Option Nat) (packet : Packet) :
    (c.tapped capture packet).memory = c.memory ∧ (c.tapped capture packet).sent = c.sent ∧
      (c.tapped capture packet).rxPackets = c.rxPackets ∧
      (c.tapped capture packet).rxBytes = c.rxBytes ∧
      (c.tapped capture packet).txPackets = c.txPackets ∧
      (c.tapped capture packet).txBytes = c.txBytes ∧
      (c.tapped capture packet).dropped = c.dropped ∧
      (c.tapped capture packet).txDropped = c.txDropped := by
  -- By cases on whether there is a tap.
  cases capture <;> exact ⟨rfl, rfl, rfl, rfl, rfl, rfl, rfl, rfl⟩

/-- A packet let through is shown to the tap as its course says, which leaves all others alone. -/
theorem Clear.shown (clear : Clear treat ⟨w, p, packet :: rest, tally⟩)
    (decided : w.process context packet w.memory p.toSurroundings = decision)
    (shown : ({ w with memory := decision.memory } : Worker σ).capturePacket packet
      { p with toSurroundings := decision.surroundings } = (w', p')) :
    let c := ((⟨w, p, packet :: rest, tally⟩ : Desk σ).course.treated treat packet).tapped
      w.capture packet
    w'.fixture = w.fixture ∧ w'.memory = c.memory ∧ w'.backlog = w.backlog ∧
      w'.counters = { w.counters with captureDropped := c.captureDropped } ∧
      p'.buffers = c.buffers ∧ p'.taps = c.taps ∧ p'.rings = p.rings ∧ p'.devices = p.devices ∧
      p'.AtRest := by
  -- What was decided is what the treatment says, and showing it touches only buffers and taps.
  intro c
  obtain ⟨memory, buffers⟩ := clear.decided decided
  obtain ⟨fixed, kept, backlog, counters, stored, watching, rings, devices⟩ :=
    Worker.capturePacket_tapped shown
      (c := (⟨w, p, packet :: rest, tally⟩ : Desk σ).course.treated treat packet) buffers.symm rfl rfl
  have same := (Course.tapped_apart
    ((⟨w, p, packet :: rest, tally⟩ : Desk σ).course.treated treat packet) w.capture packet).1
  refine ⟨fixed, (kept.trans memory).trans same.symm, backlog, counters, stored, watching, rings,
    devices, ?_⟩
  have leads := Worker.capturePacket_leads { w with memory := decision.memory } packet
    { p with toSurroundings := decision.surroundings } [] 0 0
  rw [shown] at leads
  obtain ⟨f, carries, -⟩ := leads
  have still : Plane.SameRings p { p with toSurroundings := decision.surroundings } :=
    Plane.SameRings.congr rfl rfl rfl
  exact (carries.hauls.places (still.contents clear.atRest).1).1

/-- What the holders of the others have is on record once a packet was shown to the tap. -/
theorem Clear.watched (clear : Clear treat ⟨w, p, packet :: rest, tally⟩)
    (decided : w.process context packet w.memory p.toSurroundings = decision)
    (shown : ({ w with memory := decision.memory } : Worker σ).capturePacket packet
      { p with toSurroundings := decision.surroundings } = (w', p')) :
    ∃ l : Ledger, l.Reachable ∧ l.buffers = p'.buffers ∧
      (w.backlog.pending ++ packet :: (rest ++ p.contents w.input.place)).Subperm l.packets ∧
      (w.capture ≠ none → ∀ other,
        l.references other + (rest ++ p.contents w.input.place).count other < UInt32.size) ∧
      ∀ other ∈ w.backlog.pending ++ (rest ++ p.contents w.input.place),
        other ∈ l.packets ∧ l.buffers.face? other = p.buffers.face? other := by
  -- By cases on whether there is a tap, and one with room gains a reference.
  obtain ⟨-, buffers⟩ := clear.decided decided
  obtain ⟨l, run, same, owned, small, faces⟩ := clear.edited (treat packet w.memory p.buffers).2.2
  rw [← buffers] at same
  rw [Worker.capturePacket] at shown
  cases capture : w.capture with
  | none =>
    simp only [capture, Prod.mk.injEq] at shown
    obtain ⟨rfl, rfl⟩ := shown
    exact ⟨l, run, same, owned, fun watched => absurd rfl watched, faces⟩
  | some number =>
    have watched : w.capture ≠ none := by simp [capture]
    have listed : packet ∈ l.packets := owned.subset (by simp)
    -- There is room for one more reference, as the packet is still to come once.
    have bound := small watched packet
    rw [List.count_cons_self] at bound
    obtain ⟨later, ran, stored, more, fewer, touches⟩ := Plane.tapPacket_ledger
      (p := { p with toSurroundings := decision.surroundings }) run same listed
      (by omega) number
    have result : later.buffers = p'.buffers := by
      rw [stored]
      simp only [capture] at shown
      split at shown
      · rename_i told
        rw [told]
        exact congrArg (·.2.buffers) shown
      · rename_i told
        rw [told]
        exact congrArg (·.2.buffers) shown
    refine ⟨later, ran, result, owned.trans more, ?_, ?_⟩
    · -- What the tap gained in references, the packets to come have lost.
      intro _ other
      have before := small watched other
      have less := fewer other
      rw [← List.singleton_append, List.count_append] at before
      omega
    · intro other member
      obtain ⟨listed, face⟩ := faces other member
      exact ⟨more.subset listed, (run.face?_touches listed touches).trans face⟩

/-- A packet let through counts on its course as it does with the worker, wherever it goes. -/
theorem Clear.onward (clear : Clear treat ⟨w, p, packet :: rest, tally⟩)
    (decided : w.process context packet w.memory p.toSurroundings = decision)
    (verdict : decision.verdict = .forward)
    (shown : ({ w with memory := decision.memory } : Worker σ).capturePacket packet
      { p with toSurroundings := decision.surroundings } = (w', p'))
    {backlog : Backlog} {q : Plane} {tally' : Tally} (taps : q.taps = p'.taps)
    (dropped : tally'.dropped = tally.dropped)
    (txDropped : tally'.outcome.dropped = tally.outcome.dropped)
    (coming : q.buffers.totalLen rest = p.buffers.totalLen rest)
    (buffers : q.buffers = if w.target?.isNone then p'.buffers.release packet else p'.buffers)
    (sent : (⟨{ w' with backlog }, q, rest, tally'⟩ : Desk σ).sent ++ backlog.pending =
      let sent := (⟨w, p, packet :: rest, tally⟩ : Desk σ).sent ++ w.backlog.pending
      if w.target?.isNone then sent else sent ++ [packet])
    (packets : tally'.outcome.sent + backlog.pending.length =
      tally.outcome.sent + w.backlog.pending.length + 1)
    (bytes : tally'.outcome.sentBytes + q.buffers.totalLen backlog.pending =
      tally.outcome.sentBytes + p.buffers.totalLen w.backlog.pending + p'.buffers.len packet) :
    (⟨{ w' with backlog }, q, rest, tally'⟩ : Desk σ).course =
      Course.next treat w.capture w.target?.isNone
        (⟨w, p, packet :: rest, tally⟩ : Desk σ).course packet := by
  -- Every counter of the course is compared, each of which gains the same on both sides.
  obtain ⟨-, memory, -, counters, stored, watching, -⟩ := clear.shown decided shown
  -- Being tapped changes nothing of the course but references and captures.
  let c := (⟨w, p, packet :: rest, tally⟩ : Desk σ).course.treated treat packet
  obtain ⟨-, sent', rxPackets, rxBytes, txPackets, txBytes, dropped', txDropped'⟩ :=
    Course.tapped_apart c w.capture packet
  rw [Course.next_through (clear.treats.through decided verdict)]
  apply Course.ext
  · exact memory
  · show q.buffers = if w.target?.isNone then (c.tapped w.capture packet).buffers.release packet else
      (c.tapped w.capture packet).buffers
    rw [← stored]
    exact buffers
  · exact taps.trans watching
  · show _ = if w.target?.isNone then (c.tapped w.capture packet).sent else
      (c.tapped w.capture packet).sent ++ [packet]
    rw [sent']
    exact sent
  · show w'.counters.rxPackets - _ = _
    rw [counters]
    exact (rxPackets_rest _).trans rxPackets.symm
  · show w'.counters.rxBytes - UInt64.ofNat (q.buffers.totalLen rest) = _
    rw [counters]
    exact (rxBytes_rest _ coming).trans rxBytes.symm
  · show w'.counters.txPackets + UInt64.ofNat (tally'.outcome.sent + backlog.pending.length) = _
    -- One packet more was sent or waits.
    rw [counters, packets, UInt64.ofNat_add, ← UInt64.add_assoc]
    exact congrArg (· + 1) txPackets.symm
  · show w'.counters.txBytes + UInt64.ofNat
      (tally'.outcome.sentBytes + q.buffers.totalLen backlog.pending) = _
    rw [counters, bytes, UInt64.ofNat_add, ← UInt64.add_assoc, stored]
    exact congrArg (· + _) txBytes.symm
  · show w'.counters.dropped + UInt64.ofNat tally'.dropped = _
    rw [counters, dropped]
    exact dropped'.symm
  · show w'.counters.txDropped + UInt64.ofNat tally'.outcome.dropped = _
    rw [counters, txDropped]
    exact txDropped'.symm
  · show w'.counters.captureDropped = _
    rw [counters]
    rfl

/-- A worker that lets the packet under work through to an output does with it what its course says. -/
theorem Clear.forward (clear : Clear treat ⟨w, p, packet :: rest, tally⟩)
    (decided : w.process context packet w.memory p.toSurroundings = decision)
    (verdict : decision.verdict = .forward) (output : w.target?.isSome)
    (shown : ({ w with memory := decision.memory } : Worker σ).capturePacket packet
      { p with toSurroundings := decision.surroundings } = (w', p')) :
    let after : Desk σ :=
      ⟨{ w' with backlog := { w'.backlog with pending := w'.backlog.pending ++ [packet] } }, p', rest,
        tally⟩
    Clear treat after ∧ after.outlook treat = outlook treat ⟨w, p, packet :: rest, tally⟩ := by
  -- The packet waits now, which the course counts as sent.
  intro after
  obtain ⟨l, run, same, owned, small, faces⟩ := clear.watched decided shown
  obtain ⟨fixed, -, backlog, -, -, -, rings, devices, atRest⟩ := clear.shown decided shown
  have lens : ∀ other ∈ w.backlog.pending ++ (rest ++ p.contents w.input.place),
      p'.buffers.len other = p.buffers.len other := by
    intro other member
    apply Buffers.len_congr
    rw [← same, (faces other member).2]
  have pending := Buffers.totalLen_congr fun other member =>
    lens other (List.mem_append_left _ member)
  have coming := Buffers.totalLen_congr fun other member =>
    lens other (List.mem_append_right _ (List.mem_append_left _ member))
  -- With an output, the course does not give the packet back.
  have occupied : w.target?.isNone = false := by
    rw [← Option.not_isSome, output]
    rfl
  have there : after.sent = (⟨w, p, packet :: rest, tally⟩ : Desk σ).sent :=
    sent_congr fixed rings devices
  refine clear.processed fixed rings devices atRest ?_ clear.honest ?_ ⟨l, run, same, ?_, small⟩
    (clear.onward decided verdict shown rfl rfl rfl coming ?_ ?_ ?_ ?_)
  · intro none
    rw [none] at output
    cases output
  · -- One packet more waits.
    have longer : (w'.backlog.pending ++ [packet]).length = w.backlog.pending.length + 1 := by
      rw [backlog, List.length_append, List.length_singleton]
    exact Nat.le_of_eq longer
  · show ((w'.backlog.pending ++ [packet]) ++ (rest ++ p.contents w.input.place)).Subperm l.packets
    rw [backlog, List.append_assoc]
    exact owned
  · rw [occupied]
    rfl
  · show after.sent ++ (w'.backlog.pending ++ [packet]) = _
    rw [there, backlog, occupied, ← List.append_assoc]
    rfl
  · rw [backlog, List.length_append, ← Nat.add_assoc]
    rfl
  · rw [backlog, Buffers.totalLen_append, pending, Buffers.totalLen_eq _ [packet], ← Nat.add_assoc]
    rfl

/-- A worker that lets the packet under work through without an output does with it what its course
says. -/
theorem Clear.deliver (clear : Clear treat ⟨w, p, packet :: rest, tally⟩)
    (decided : w.process context packet w.memory p.toSurroundings = decision)
    (verdict : decision.verdict = .forward) (output : w.target? = none)
    (shown : ({ w with memory := decision.memory } : Worker σ).capturePacket packet
      { p with toSurroundings := decision.surroundings } = (w', p')) :
    let after : Desk σ := ⟨w', p'.mapBuffers (·.release packet), rest,
      { tally with outcome := { tally.outcome with
        sent := tally.outcome.sent + 1
        sentBytes := tally.outcome.sentBytes + p'.buffers.len packet } }⟩
    Clear treat after ∧ after.outlook treat = outlook treat ⟨w, p, packet :: rest, tally⟩ := by
  -- The packet is given back at once, which both sides count as sent.
  intro after
  obtain ⟨l, run, same, owned, small, faces⟩ := clear.watched decided shown
  obtain ⟨fixed, -, backlog, -, -, -, rings, devices, atRest⟩ := clear.shown decided shown
  obtain ⟨later, left, fewer⟩ := run.given owned
  have idle : w.backlog.pending = [] := clear.idle output
  have lens : ∀ other ∈ rest, after.plane.buffers.len other = p.buffers.len other := by
    intro other member
    obtain ⟨listed, face⟩ := faces other (by simp [member])
    apply Buffers.len_congr
    rw [← face, ← run.face?_touches listed (l.buffers.release_touches packet), same]
    rfl
  have still : Plane.SameRings p' after.plane := Plane.SameRings.congr rfl rfl rfl
  -- Nothing is on an output, as there is none.
  have there : after.sent = (⟨w, p, packet :: rest, tally⟩ : Desk σ).sent :=
    sent_congr fixed rings devices
  refine clear.processed fixed rings devices (still.contents atRest).1 ?_ ?_ ?_
    ⟨_, later, ?_, ?_, ?_⟩
    (clear.onward decided verdict shown rfl rfl rfl (Buffers.totalLen_congr lens) ?_ ?_ ?_ ?_)
  · rw [backlog]
    exact clear.idle
  · intro none
    exact absurd none (Nat.succ_ne_zero _)
  · rw [backlog]
    exact Nat.le_succ _
  · simp only [Ledger.call, same]
    rfl
  · rw [backlog]
    exact left
  · intro watched other
    have bound := small watched other
    have less := fewer other
    omega
  · rw [output]
    rfl
  · show after.sent ++ w'.backlog.pending = _
    rw [there, backlog, output]
    rfl
  · rw [backlog]
    exact Nat.add_right_comm ..
  · rw [backlog, idle]
    exact Nat.add_right_comm ..

section Still

variable {a b : Desk σ}

/-- A worker that comes to the same with the same packets to come is as clear as before. -/
theorem Clear.still (clear : Clear treat a) (fixed : b.worker.fixture = a.worker.fixture)
    (atRest : b.plane.AtRest) (honest : b.tally.outcome.sent = 0 → b.tally.outcome.sentBytes = 0)
    (coming : b.coming = a.coming) (course : b.course = a.course)
    (waits : b.worker.backlog.pending.Sublist a.worker.backlog.pending)
    (capacities : ∀ number, b.plane.ringCapacity number = a.plane.ringCapacity number) :
    Clear treat b ∧ b.outlook treat = a.outlook treat := by
  -- The course and the packets to come determine the outlook.
  have target := Worker.target?_eq fixed
  have input : b.worker.input = a.worker.input := congrArg Fixture.input fixed
  have process : b.worker.process = a.worker.process := congrArg Fixture.process fixed
  have capture : b.worker.capture = a.worker.capture := congrArg Fixture.capture fixed
  refine ⟨⟨?_, ?_, atRest, ?_, honest, ?_, ?_⟩, ?_⟩
  · rw [process]
    exact clear.treats
  · rw [target, input]
    exact clear.apart
  · intro none
    have nothing := clear.idle (target ▸ none)
    rw [nothing] at waits
    exact List.sublist_nil.mp waits
  · -- What is on the output and what waits are together as before, so there is room for the rest.
    intro out output
    obtain ⟨number, same, room⟩ := clear.room out (target ▸ output)
    refine ⟨number, same, ?_⟩
    have sent : b.sent ++ b.worker.backlog.pending = a.sent ++ a.worker.backlog.pending :=
      congrArg Course.sent course
    have lengths := congrArg List.length sent
    rw [kept, coming, capacities]
    rw [kept] at room
    simp only [List.length_append] at room lengths ⊢
    omega
  · obtain ⟨l, run, same, owned, small⟩ := clear.held
    refine ⟨l, run, same.trans (congrArg Course.buffers course).symm, ?_, ?_⟩
    · rw [kept, coming]
      exact (waits.append_right a.coming).subperm.trans owned
    · rw [capture, coming]
      exact small
  · rw [outlook, outlook, coming, course, capture, target]

end Still

/-- A worker that only notes something stays clear, with the same outlook. -/
theorem Clear.note {hand : List Packet} (clear : Clear treat ⟨w, p, hand, tally⟩)
    (fixed : w'.fixture = w.fixture)
    (memory : w'.memory = w.memory) (pending : w'.backlog.pending = w.backlog.pending)
    (counters : w'.counters.stable = w.counters.stable) (alike : p.Alike p') :
    Clear treat ⟨w', p', hand, tally⟩ ∧
      outlook treat ⟨w', p', hand, tally⟩ = outlook treat ⟨w, p, hand, tally⟩ := by
  -- Rings, devices and taps stay, and with them the course.
  have rings : Plane.SameRings p p' :=
    Plane.SameRings.congr alike.rings alike.devices alike.taps
  obtain ⟨atRest, contents⟩ := rings.contents clear.atRest
  have input : w'.input = w.input := congrArg Fixture.input fixed
  have sent : (⟨w', p', hand, tally⟩ : Desk σ).sent = (⟨w, p, hand, tally⟩ : Desk σ).sent :=
    sent_congr fixed alike.rings alike.devices
  simp only [Counters.stable, List.cons.injEq, and_true] at counters
  obtain ⟨rxPackets, txPackets, rxBytes, txBytes, dropped, txDropped, captureDropped⟩ := counters
  refine clear.still fixed atRest clear.honest ?_ ?_ ?_ ?_
  · simp only [Desk.coming, input, contents]
  · simp only [course, memory, alike.buffers, alike.taps, sent, pending, rxPackets, txPackets,
      rxBytes, txBytes, dropped, txDropped, captureDropped]
  · simp only [pending, List.Sublist.refl]
  · exact Plane.ringCapacity_congr alike.rings

/-- A worker that pulls packets and counts them stays clear, with the same outlook. -/
theorem Clear.take {packets : List Packet} (clear : Clear treat ⟨w, p, [], tally⟩)
    (fetched : p.Fetches p' w.input.place packets) :
    let after : Desk σ :=
      ⟨{ w with counters := w.counters.recordRx (UInt64.ofNat packets.length)
                  (UInt64.ofNat (p.buffers.totalLen packets)) }, p', packets, tally⟩
    Clear treat after ∧ after.outlook treat = outlook treat ⟨w, p, [], tally⟩ := by
  -- The packets are in hand instead of on the input, and are to come in either case.
  intro after
  obtain ⟨atRest, here, others⟩ := fetched.places clear.atRest
  have buffers : p'.buffers = p.buffers := congrArg Surroundings.buffers fetched.surroundings
  -- The input is not the output, so what was sent stays there.
  have sent : after.sent = (⟨w, p, [], tally⟩ : Desk σ).sent := by
    show (w.target?.map fun target => p'.contents target.place).getD [] =
      (w.target?.map fun target => p.contents target.place).getD []
    cases output : w.target? with
    | none => rfl
    | some target =>
      have apart := clear.apart
      simp only [output, Option.map_some, ne_eq, Option.some.injEq] at apart
      exact others _ apart
  refine clear.still rfl atRest clear.honest ?_ ?_ (List.Sublist.refl _) fetched.capacities
  · exact here.symm
  · apply Course.ext
    · rfl
    · exact buffers
    · exact fetched.taps
    · exact congrArg (· ++ _) sent
    · -- The received packets are counted already, and taken off again while they are to come.
      show w.counters.rxPackets + UInt64.ofNat packets.length - UInt64.ofNat packets.length =
        w.counters.rxPackets - 0
      grind
    · show w.counters.rxBytes + UInt64.ofNat (p.buffers.totalLen packets) -
        UInt64.ofNat (p'.buffers.totalLen packets) = w.counters.rxBytes - 0
      rw [buffers]
      grind
    · rfl
    · show w.counters.txBytes + UInt64.ofNat
        (tally.outcome.sentBytes + p'.buffers.totalLen w.backlog.pending) = _
      rw [buffers]
      rfl
    · rfl
    · rfl
    · rfl

/-- A worker that counts what came of packets stays clear, with the same outlook. -/
theorem Clear.settle (clear : Clear treat ⟨w, p, [], tally⟩) :
    Clear treat ⟨w.recordTally tally, p, [], {}⟩ ∧
      outlook treat ⟨w.recordTally tally, p, [], {}⟩ = outlook treat ⟨w, p, [], tally⟩ := by
  -- What the tally says is added to the counters, and the course had counted it already.
  have same := w.recordTally_eq tally
  obtain ⟨rxPackets, rxBytes, txPackets, txBytes, dropped, txDropped, captureDropped⟩ :=
    w.counters_recordTally clear.honest
  generalize (w.recordTally tally).counters = counters at *
  rw [same]
  refine clear.still rfl clear.atRest (fun _ => rfl) rfl ?_ (List.Sublist.refl _) fun _ => rfl
  apply Course.ext
  · rfl
  · rfl
  · rfl
  · rfl
  · exact congrArg (· - _) rxPackets
  · exact congrArg (· - _) rxBytes
  · show counters.txPackets + UInt64.ofNat (0 + w.backlog.pending.length) =
      w.counters.txPackets + UInt64.ofNat (tally.outcome.sent + w.backlog.pending.length)
    rw [txPackets, Nat.zero_add, UInt64.ofNat_add, UInt64.add_assoc]
  · show counters.txBytes + UInt64.ofNat (0 + p.buffers.totalLen w.backlog.pending) =
      w.counters.txBytes +
        UInt64.ofNat (tally.outcome.sentBytes + p.buffers.totalLen w.backlog.pending)
    rw [txBytes, Nat.zero_add, UInt64.ofNat_add, UInt64.add_assoc]
  · exact (UInt64.add_zero _).trans dropped
  · exact (UInt64.add_zero _).trans txDropped
  · exact captureDropped

/-- A worker that hands what waits to its output stays clear, with the same outlook, and nothing waits
any more. -/
theorem Clear.offer {hand : List Packet} {target : Target} {outcome : Outcome} {backlog : Backlog}
    (clear : Clear treat ⟨w, p, hand, tally⟩) (output : w.target? = some target)
    (tried : w.backlog.tryFlush target.sender p = (outcome, backlog, p')) :
    let after : Desk σ :=
      ⟨{ w with backlog }, p', hand, { tally with outcome := tally.outcome.merge outcome }⟩
    Clear treat after ∧ after.outlook treat = outlook treat ⟨w, p, hand, tally⟩ ∧
      backlog.pending = [] := by
  -- The ring has room for all that waits, so what waited is on it now, as the course had it.
  intro after
  obtain ⟨number, rfl, room⟩ := clear.room target output
  have sent : (⟨w, p, hand, tally⟩ : Desk σ).sent = p.contents (.ring number) := by
    rw [Desk.sent, output]
    rfl
  rw [sent, kept, List.length_append] at room
  -- There was room for all that is kept, and what waits is a part of it.
  have fits : (p.contents (.ring number)).length + w.backlog.pending.length ≤
      p.ringCapacity number := by
    simp only at room
    omega
  obtain ⟨rfl, rfl, put, taps, capacities⟩ := Backlog.tryFlush_room clear.atRest fits tried
  obtain ⟨atRest, here, others⟩ := put.places clear.atRest
  have buffers : p'.buffers = p.buffers := congrArg Surroundings.buffers put.surroundings
  have apart : w.input.place ≠ .ring number := by
    have apart := clear.apart
    simp only [output, Option.map_some, ne_eq, Option.some.injEq] at apart
    exact Ne.symm apart
  have now : after.sent = p'.contents (.ring number) := by
    show (w.target?.map fun target => p'.contents target.place).getD [] = _
    rw [output]
    rfl
  suffices whole : Clear treat after ∧
      after.outlook treat = outlook treat ⟨w, p, hand, tally⟩ from ⟨whole.1, whole.2, rfl⟩
  refine clear.still rfl atRest ?_ ?_ ?_ (List.nil_sublist _) capacities
  · intro none
    -- If nothing was sent, nothing waited.
    have none : tally.outcome.sent + w.backlog.pending.length = 0 := none
    have nothing : w.backlog.pending = [] := List.length_eq_zero_iff.mp (by omega)
    show tally.outcome.sentBytes + p.buffers.totalLen w.backlog.pending = 0
    rw [clear.honest (Nat.eq_zero_of_add_eq_zero_right none), nothing]
    rfl
  · exact congrArg (hand ++ ·) (others _ apart)
  · apply Course.ext
    · rfl
    · exact buffers
    · exact taps
    · show after.sent ++ [] = (⟨w, p, hand, tally⟩ : Desk σ).sent ++ w.backlog.pending
      rw [List.append_nil, now, here, sent]
    · rfl
    · show w.counters.rxBytes - UInt64.ofNat (p'.buffers.totalLen hand) = _
      rw [buffers]
      rfl
    · rfl
    · show w.counters.txBytes + UInt64.ofNat (tally.outcome.sentBytes +
        p.buffers.totalLen w.backlog.pending + p'.buffers.totalLen []) = _
      rfl
    · rfl
    · rfl
    · rfl

/-- Every stroke of a worker that loses nothing keeps it clear, and its outlook as it is. -/
theorem Clear.stroke {a b : Desk σ} (clear : Clear treat a) (stroke : Stroke false a b) :
    Clear treat b ∧ b.outlook treat = a.outlook treat := by
  -- By cases on the stroke, each of which has its own lemma.
  cases stroke with
  | note fixed memory pending counters alike =>
    exact clear.note fixed memory pending counters alike
  | take fetched => exact clear.take fetched
  | drop context decided verdict => exact clear.drop decided verdict
  | forward context decided verdict output shown =>
    exact clear.forward decided verdict output shown
  | deliver context decided verdict output shown =>
    exact clear.deliver decided verdict output shown
  | offer output tried =>
    obtain ⟨after, same, -⟩ := clear.offer output tried
    exact ⟨after, same⟩
  | giveUp may => cases may
  | settle => exact clear.settle

/-- So do any number of strokes. -/
theorem Clear.strokes {a b : Desk σ} (clear : Clear treat a) (strokes : Strokes false a b) :
    Clear treat b ∧ b.outlook treat = a.outlook treat := by
  -- One stroke follows the other.
  induction strokes with
  | refl => exact ⟨clear, rfl⟩
  | tail _ stroke ih =>
    obtain ⟨after, same⟩ := ih.1.stroke stroke
    exact ⟨after, same.trans ih.2⟩

end Desk

end PacketPlane
