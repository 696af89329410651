import Mathlib.Data.List.Permutation
import PacketPlane.Proofs.Buffer.Edit
import PacketPlane.Proofs.Buffer.Treatment
import PacketPlane.Proofs.Plane.Moves

/-! Fates: what becomes of every packet that is put into a backlog, in the order of time. -/

namespace PacketPlane

/-- A packet that left a backlog, with its length when it did: it was sent, or it was dropped. -/
structure Departure where
  packet : Packet
  len : Nat
  sent : Bool

/-- One call on a backlog, with the output that packets are handed to. -/
inductive DispatchCall where
  | buffer (packet : Packet) (target : Target)
  | flush (target : Target)
  | tryFlush (target : Target)
  | discard
  | dropPending

namespace DispatchCall

/-- The packet that a call brings, if it brings one. -/
def packets : DispatchCall → List Packet
  | .buffer packet _ => [packet]
  | .flush _ | .tryFlush _ | .discard | .dropPending => []

/-- The output that a call hands packets to. -/
def target? : DispatchCall → Option Target
  | .buffer _ target | .flush target | .tryFlush target => some target
  | .discard | .dropPending => none

/-- What a call does to a backlog and the plane around it. -/
def perform (b : Backlog) (p : Plane) : DispatchCall → Outcome × Backlog × Plane
  | .buffer packet target => b.buffer packet target.sender p
  | .flush target => b.flush target.sender p
  | .tryFlush target => b.tryFlush target.sender p
  | .discard => b.discard p
  | .dropPending =>
    let (dropped, b, p) := b.dropPending p
    ({ dropped }, b, p)

/-- The packets that a call sent: what its output has gained, or all that waited when they are
discarded. -/
def shipped (waiting : List Packet) (before after : Plane) : DispatchCall → List Packet
  | .buffer _ target | .flush target | .tryFlush target =>
    (after.contents target.place).drop (before.contents target.place).length
  | .discard => waiting
  | .dropPending => []

end DispatchCall

/-- A backlog with a record of what happened to it: the packets that were put into it, those that left
it, both in the order of time, and the outcomes of all calls added up. -/
structure Dispatch where
  backlog : Backlog
  buffered : List Packet := []
  departed : List Departure := []
  outcome : Outcome := {}

namespace Dispatch

/-- What a call leaves of the record: the packets that it sent, and those that were neither sent nor
wait any more. -/
def leaves (d : Dispatch) (p : Plane) (c : DispatchCall) : List Packet × List Packet :=
  let waiting := d.backlog.pending ++ c.packets
  let (_, backlog, after) := c.perform d.backlog p
  let shipped := c.shipped waiting p after
  (shipped, (waiting.drop shipped.length).take (waiting.length - shipped.length - backlog.len))

/-- The record after a call on a plane. -/
def call (d : Dispatch) (p : Plane) (c : DispatchCall) : Dispatch :=
  let (outcome, backlog, _) := c.perform d.backlog p
  let (shipped, lost) := d.leaves p c
  { backlog
    buffered := d.buffered ++ c.packets
    departed := d.departed ++ (shipped.map fun packet => ⟨packet, p.buffers.len packet, true⟩) ++
      lost.map fun packet => ⟨packet, p.buffers.len packet, false⟩
    outcome := d.outcome.merge outcome }

/-- Records that calls lead to, starting with an empty backlog. The plane is a new one at each call,
as outputs may be drained, limited, cut off and brought back in any way between two calls. -/
inductive Reachable : Dispatch → Prop
  | start (threshold : Nat) (policy : Backpressure) :
    Reachable { backlog := Backlog.make threshold policy }
  | call {d : Dispatch} (run : Reachable d) {p : Plane} (atRest : p.AtRest) (c : DispatchCall) :
    Reachable (d.call p c)

end Dispatch

namespace Backlog

/-- What one call does with the packets that wait: some are sent, from the front, those behind them
are lost, and the others go on waiting. -/
structure Handles (b : Backlog) (p : Plane) (target : Option Target) (waiting : List Packet)
    (outcome : Outcome) (b' : Backlog) (q : Plane) (shipped lost : List Packet) : Prop where
  order : waiting = shipped ++ lost ++ b'.pending
  sent : outcome.sent = shipped.length
  bytes : outcome.sentBytes = p.buffers.totalLen shipped
  dropped : outcome.dropped = lost.length
  lifetime : b'.dropped = b.dropped + UInt64.ofNat lost.length
  gained : ∀ t, target = some t → q.contents t.place = p.contents t.place ++ shipped
  given : q.buffers = p.buffers.releaseAll ((if target.isNone then shipped else []) ++ lost)

variable {b b' : Backlog} {p q : Plane} {target : Target}

/-- A lifetime count to which no packet is added stays as it is. -/
theorem add_none (count : UInt64) : count + UInt64.ofNat ([] : List Packet).length = count :=
  -- No packets are zero of them.
  UInt64.add_zero count

/-- Sending changes no packet, so that the bytes sent are those of the packets that were accepted, and
are never fewer than none. -/
theorem sender_bytes (target : Target) (p : Plane) (packets : List Packet) :
    let sent := target.sender p packets
    p.buffers.totalLen packets =
      p.buffers.totalLen (packets.take sent.accepted) + sent.plane.buffers.totalLen sent.rest := by
  -- Sending leaves the buffers, so the sum is split where the list is.
  obtain ⟨rest, -, put⟩ := target.sender_puts p packets
  have same : (target.sender p packets).plane.buffers = p.buffers :=
    congrArg Surroundings.buffers put.surroundings
  simp only
  rw [same, rest, ← Buffers.totalLen_append, List.take_append_drop]

/-- An attempt sends what the output accepts and loses nothing. -/
theorem tryFlush_handles (atRest : p.AtRest) (target : Target) (b : Backlog) :
    let done := b.tryFlush target.sender p
    ∃ shipped, Handles b p (some target) b.pending done.1 done.2.1 done.2.2 shipped [] := by
  -- Nothing is sent from an empty backlog, and otherwise the output takes the front.
  simp only [tryFlush]
  split
  · rename_i empty
    refine ⟨[], ?_, rfl, rfl, rfl, (add_none _).symm, ?_, rfl⟩
    · rfl
    · intro t _
      exact (List.append_nil _).symm
  · obtain ⟨rest, most, put⟩ := target.sender_puts p b.pending
    have bytes := sender_bytes target p b.pending
    refine ⟨b.pending.take (target.sender p b.pending).accepted, ?_, ?_, ?_, rfl,
      (add_none _).symm, ?_, ?_⟩
    · show b.pending = _ ++ [] ++ (target.sender p b.pending).rest
      rw [List.append_nil, rest, List.take_append_drop]
    · rw [List.length_take, Nat.min_eq_left most]
    · show p.buffers.totalLen b.pending - _ = _
      simp only at bytes
      omega
    · rintro t ⟨⟩
      exact (put.places atRest).2.1
    · exact congrArg Surroundings.buffers put.surroundings

variable {waiting shipped : List Packet} {outcome : Outcome}

/-- What happens to packets does not depend on the attempts remembered. -/
theorem Handles.setAttempts {lost : List Packet} {output : Option Target}
    (handles : Handles b p output waiting outcome b' q shipped lost) (attempts : UInt32) :
    Handles b p output waiting outcome { b' with attempts } q shipped lost :=
  ⟨handles.order, handles.sent, handles.bytes, handles.dropped, handles.lifetime, handles.gained,
    handles.given⟩

/-- What an output has gained is what was sent. -/
theorem Handles.drop_contents {lost : List Packet}
    (handles : Handles b p (some target) waiting outcome b' q shipped lost) :
    (q.contents target.place).drop (p.contents target.place).length = shipped := by
  -- What was sent is behind what the output had before.
  rw [handles.gained target rfl, List.drop_left]

/-- What an attempt left waiting may be dropped, which gives it back. -/
theorem Handles.dropPending
    (handles : Handles b p (some target) waiting outcome b' q shipped []) :
    let dropped := b'.dropPending q
    Handles b p (some target) waiting { outcome with dropped := dropped.1 } dropped.2.1 dropped.2.2
      shipped b'.pending := by
  -- What was left is lost now, and the counter goes up by as many.
  have lifetime : b'.dropped = b.dropped := handles.lifetime.trans (add_none _)
  have given : q.buffers = p.buffers := handles.given
  refine ⟨?_, handles.sent, handles.bytes, rfl, ?_, handles.gained, ?_⟩
  · show waiting = shipped ++ b'.pending ++ []
    rw [handles.order, List.append_nil, List.append_nil]
  · show b'.dropped + UInt64.ofNat b'.len = b.dropped + UInt64.ofNat b'.pending.length
    rw [lifetime, len]
  · show q.buffers.releaseAll b'.pending = p.buffers.releaseAll ([] ++ b'.pending)
    rw [given, List.nil_append]

/-- A flush sends what the output accepts, and loses what the policy gives up. -/
theorem flush_handles (atRest : p.AtRest) (target : Target) (b : Backlog) :
    let done := b.flush target.sender p
    ∃ shipped lost, Handles b p (some target) b.pending done.1 done.2.1 done.2.2 shipped lost := by
  -- By cases on what the attempt left and what the policy says to it.
  obtain ⟨shipped, handles⟩ := tryFlush_handles atRest target b
  simp only [flush]
  split
  · exact ⟨shipped, [], handles.setAttempts 0⟩
  · split
    · exact ⟨shipped, _, (handles.setAttempts _).dropPending⟩
    · exact ⟨shipped, [], handles.setAttempts _⟩

/-- A packet that is buffered waits behind the others, and what the output accepts is sent once the
threshold is reached. -/
theorem buffer_handles (atRest : p.AtRest) (target : Target) (b : Backlog) (packet : Packet) :
    let done := b.buffer packet target.sender p
    ∃ shipped, Handles b p (some target) (b.pending ++ [packet]) done.1 done.2.1 done.2.2
      shipped [] := by
  -- By cases on the threshold, below which nothing is tried.
  simp only [buffer]
  split
  · exact ⟨[], rfl, rfl, rfl, rfl, (add_none _).symm, fun _ _ => (List.append_nil _).symm, rfl⟩
  · obtain ⟨shipped, order, sent, bytes, dropped, lifetime, gained, given⟩ :=
      tryFlush_handles atRest target { b with pending := b.pending ++ [packet] }
    split
    · exact ⟨shipped, order, sent, bytes, dropped, lifetime, gained, given⟩
    · exact ⟨shipped, order, sent, bytes, dropped, lifetime, gained, given⟩

/-- Discarding sends all that waits to nowhere, and gives it back. -/
theorem discard_handles (b : Backlog) (p : Plane) :
    let done := b.discard p
    Handles b p none b.pending done.1 done.2.1 done.2.2 b.pending [] := by
  -- All that waits counts as sent.
  refine ⟨?_, rfl, rfl, rfl, (add_none _).symm, by simp, ?_⟩
  · simp [discard]
  · simp [discard, Plane.releaseAll, Plane.mapBuffers]

/-- Dropping loses all that waits, and gives it back. -/
theorem dropPending_handles (b : Backlog) (p : Plane) :
    let done := b.dropPending p
    Handles b p none b.pending { dropped := done.1 } done.2.1 done.2.2 [] b.pending := by
  -- All that waits counts as lost.
  refine ⟨?_, rfl, rfl, rfl, rfl, by simp, rfl⟩
  simp [dropPending]

end Backlog

namespace Dispatch

variable {d : Dispatch} {p : Plane}

/-- What is lost lies between what is sent and what goes on waiting. -/
theorem take_drop_between {shipped lost rest waiting : List Packet}
    (order : waiting = shipped ++ lost ++ rest) :
    (waiting.drop shipped.length).take (waiting.length - shipped.length - rest.length) = lost := by
  -- What is lost follows what is sent, and is as long as the others leave.
  have length : waiting.length - shipped.length - rest.length = lost.length := by
    rw [order, List.length_append, List.length_append]
    omega
  rw [length, order, List.append_assoc, List.drop_left, List.take_left]

/-- Every call handles the packets that wait as the record has it. -/
theorem call_handles (atRest : p.AtRest) (d : Dispatch) (c : DispatchCall) :
    let done := c.perform d.backlog p
    Backlog.Handles d.backlog p c.target? (d.backlog.pending ++ c.packets) done.1 done.2.1 done.2.2
      (d.leaves p c).1 (d.leaves p c).2 := by
  -- By cases on the call: what is shipped is seen at the output, and what is lost lies behind.
  obtain ⟨shipped, lost, handles, same⟩ : ∃ shipped lost,
      Backlog.Handles d.backlog p c.target? (d.backlog.pending ++ c.packets)
        (c.perform d.backlog p).1 (c.perform d.backlog p).2.1 (c.perform d.backlog p).2.2
        shipped lost ∧
      c.shipped (d.backlog.pending ++ c.packets) p (c.perform d.backlog p).2.2 = shipped := by
    cases c with
    | buffer packet target =>
      obtain ⟨shipped, handles⟩ := Backlog.buffer_handles atRest target d.backlog packet
      exact ⟨shipped, [], handles, handles.drop_contents⟩
    | flush target =>
      obtain ⟨shipped, lost, handles⟩ := Backlog.flush_handles atRest target d.backlog
      refine ⟨shipped, lost, ?_, handles.drop_contents⟩
      rwa [DispatchCall.packets, List.append_nil]
    | tryFlush target =>
      obtain ⟨shipped, handles⟩ := Backlog.tryFlush_handles atRest target d.backlog
      refine ⟨shipped, [], ?_, handles.drop_contents⟩
      rwa [DispatchCall.packets, List.append_nil]
    | discard =>
      refine ⟨d.backlog.pending, [], ?_, List.append_nil _⟩
      rw [DispatchCall.packets, List.append_nil]
      exact d.backlog.discard_handles p
    | dropPending =>
      refine ⟨[], d.backlog.pending, ?_, rfl⟩
      rw [DispatchCall.packets, List.append_nil]
      exact d.backlog.dropPending_handles p
  -- What left is cut out of what waited, by what was shipped and what still waits.
  have leaves : d.leaves p c = (shipped, lost) := by
    rw [Dispatch.leaves]
    simp only [same]
    exact congrArg (Prod.mk shipped) (take_drop_between handles.order)
  rw [leaves]
  exact handles

/-- The packets of a record that were sent, in the order of time. -/
def sent (d : Dispatch) : List Departure :=
  d.departed.filter Departure.sent

/-- The packets of a record that were dropped, in the order of time. -/
def dropped (d : Dispatch) : List Departure :=
  d.departed.filter fun gone => !gone.sent

/-- A record that agrees with its backlog: packets left in the order in which they came, so that those
that left are followed by those that wait, and all counts and bytes are those of the packets that
were sent and dropped. -/
structure Sound (d : Dispatch) : Prop where
  order : d.buffered = d.departed.map Departure.packet ++ d.backlog.pending
  sent : d.outcome.sent = d.sent.length
  bytes : d.outcome.sentBytes = (d.sent.map Departure.len).sum
  dropped : d.outcome.dropped = d.dropped.length
  lifetime : d.backlog.dropped = UInt64.ofNat d.outcome.dropped

/-- A new backlog has nothing on record. -/
theorem sound_make (threshold : Nat) (policy : Backpressure) :
    Sound { backlog := Backlog.make threshold policy } :=
  ⟨rfl, rfl, rfl, rfl, rfl⟩

/-- Every call keeps a record in agreement. -/
theorem Sound.call (sound : d.Sound) (atRest : p.AtRest) (c : DispatchCall) :
    (d.call p c).Sound := by
  -- What departs is what the call handles, with the lengths of packets at that moment.
  have handles := call_handles atRest d c
  generalize shipping : (d.leaves p c).1 = shipped at handles
  generalize losing : (d.leaves p c).2 = lost at handles
  have departed : (d.call p c).departed =
      d.departed ++ (shipped.map fun packet => ⟨packet, p.buffers.len packet, true⟩) ++
        lost.map fun packet => ⟨packet, p.buffers.len packet, false⟩ := by
    rw [← shipping, ← losing]
    rfl
  -- Sent and dropped packets are told apart by how they departed.
  have sent : (d.call p c).sent =
      d.sent ++ shipped.map fun packet => ⟨packet, p.buffers.len packet, true⟩ := by
    rw [Dispatch.sent, departed, List.filter_append, List.filter_append, List.filter_map,
      List.filter_map]
    simp [Dispatch.sent, Function.comp_def]
  have dropped : (d.call p c).dropped =
      d.dropped ++ lost.map fun packet => ⟨packet, p.buffers.len packet, false⟩ := by
    rw [Dispatch.dropped, departed, List.filter_append, List.filter_append, List.filter_map,
      List.filter_map]
    simp [Dispatch.dropped, Function.comp_def]
  refine ⟨?_, ?_, ?_, ?_, ?_⟩
  · rw [departed]
    show d.buffered ++ c.packets = _ ++ (c.perform d.backlog p).2.1.pending
    rw [sound.order, List.append_assoc, handles.order, List.map_append, List.map_append]
    simp [Function.comp_def]
  · rw [sent, List.length_append, List.length_map, ← handles.sent, ← sound.sent]
    rfl
  · rw [sent, List.map_append, List.sum_append, ← sound.bytes, List.map_map]
    show d.outcome.sentBytes + (c.perform d.backlog p).1.sentBytes = _
    rw [handles.bytes, Buffers.totalLen_eq]
    rfl
  · rw [dropped, List.length_append, List.length_map, ← handles.dropped, ← sound.dropped]
    rfl
  · show (c.perform d.backlog p).2.1.dropped =
      UInt64.ofNat (d.outcome.dropped + (c.perform d.backlog p).1.dropped)
    rw [handles.lifetime, handles.dropped, sound.lifetime, UInt64.ofNat_add]

/-- Every record that calls lead to agrees with its backlog. -/
theorem Reachable.sound (reached : d.Reachable) : d.Sound := by
  -- The induction is on the calls, each of which moves packets from those that wait to those that left.
  induction reached with
  | start threshold policy => exact sound_make threshold policy
  | call _ atRest c ih => exact ih.call atRest c

/-- A backlog conserves its packets, their bytes and their order, whatever its threshold and its
policy are and whatever becomes of its outputs between two calls. The packets that were ever put
into it are those that left it, in the order of time, followed by those that wait, so that each was
either sent or dropped or waits. The outcomes of all calls count the packets that were sent and
dropped, and the bytes of those that were sent, and the backlog itself counts the dropped ones in 64
bits. In every call the output gains, at its end, exactly
the packets that are on record as sent, all that is lost or discarded is given back, and no bytes
are taken from fewer. -/
theorem backlog_conserves (reached : d.Reachable) :
    d.buffered = d.departed.map Departure.packet ++ d.backlog.pending ∧
    d.buffered.length = d.outcome.sent + d.outcome.dropped + d.backlog.len ∧
    d.outcome.sent = d.sent.length ∧ d.outcome.dropped = d.dropped.length ∧
    d.backlog.dropped = UInt64.ofNat d.outcome.dropped ∧
    d.outcome.sentBytes = (d.sent.map Departure.len).sum ∧
    ∀ p : Plane, p.AtRest →
      (∀ c target, c.target? = some target →
        let after := (c.perform d.backlog p).2.2
        after.contents target.place = p.contents target.place ++ (d.leaves p c).1 ∧
          after.buffers = p.buffers.releaseAll (d.leaves p c).2) ∧
      (∀ c, c.target? = none →
        (c.perform d.backlog p).2.2.buffers =
          p.buffers.releaseAll ((d.leaves p c).1 ++ (d.leaves p c).2)) ∧
      ∀ (target : Target) packets,
        let sent := target.sender p packets
        sent.plane.buffers.totalLen sent.rest ≤ p.buffers.totalLen packets := by
  -- What departed is either sent or dropped, which the record tells apart.
  obtain ⟨order, sent, bytes, dropped, lifetime⟩ := reached.sound
  refine ⟨order, ?_, sent, dropped, lifetime, bytes, fun p atRest => ⟨?_, ?_, ?_⟩⟩
  · have parted := List.length_eq_length_filter_add (l := d.departed) Departure.sent
    rw [order, List.length_append, List.length_map, parted, sent, dropped]
    rfl
  · intro c target output
    have handles := call_handles atRest d c
    refine ⟨handles.gained target output, handles.given.trans ?_⟩
    rw [output]
    rfl
  · intro c nowhere
    have handles := call_handles atRest d c
    rw [handles.given, nowhere]
    rfl
  · intro target packets
    exact Nat.le.intro ((Nat.add_comm ..).trans (Backlog.sender_bytes target p packets).symm)

/-- Three packets of ten, twenty and thirty bytes, from a pool of four. -/
def laden : Buffers :=
  -- Memory without end is granted.
  match Pool.make "laden" { capacity := 4 } fun size node => .ok { size, node } with
  | .error _ => {}
  | .ok pool =>
    match (({} : Buffers).addPool pool).2.allocBulk 0 3 with
    | .error _ => {}
    | .ok (_, held) =>
      ((held.perform ⟨0, 0⟩ (.append 10)).perform ⟨0, 1⟩ (.append 20)).perform ⟨0, 2⟩ (.append 30)

/-- A ring with one place. -/
def oneWide : Ring Packet :=
  { name := "narrow", capacity := 1, capacity_valid := by decide }

/-- A plane with these packets and one ring. -/
def overRing (ring : Ring Packet) : Plane :=
  { buffers := laden, rings := #[{ value := ring }] }

/-- A plane whose only ring is at rest is at rest. -/
theorem overRing_atRest {ring : Ring Packet} {items : List Packet} (held : ring.Holds items) :
    (overRing ring).AtRest := by
  -- By cases on the place: there is a single ring, and neither devices nor taps.
  intro place r found
  cases place with
  | ring k =>
    obtain ⟨shared, there, rfl⟩ := Option.map_eq_some_iff.mp found
    match k, there with
    | 0, there =>
      cases there
      exact ⟨items, held⟩
  | received port => simp [overRing, Plane.ringAt?, Plane.device?] at found
  | sending port => simp [overRing, Plane.ringAt?, Plane.device?] at found
  | tap k => simp [overRing, Plane.ringAt?, Plane.tap?] at found

/-- Two packets reach the threshold before a ring with one place, the second one is dropped by a flush
while the ring is full, and the third one is discarded: each is on record with its fate. -/
theorem backlog_conserves_narrow : ∃ d : Dispatch, d.Reachable ∧
    d.buffered = [⟨0, 0⟩, ⟨0, 1⟩, ⟨0, 2⟩] ∧
    d.departed.map (fun gone => (gone.len, gone.sent)) = [(10, true), (20, false), (30, true)] ∧
    d.outcome = { sent := 2, sentBytes := 40, dropped := 1, rejected := true } ∧
    d.backlog.dropped = 1 ∧
    d.outcome.sentBytes = (d.sent.map Departure.len).sum := by
  -- The calls find the ring empty at first and full after that, and the theorem gives the counts.
  have held : oneWide.Holds [] := Ring.holds_make (rfl : Ring.make "narrow" 1 = .ok oneWide)
  have empty := overRing_atRest held
  have full := overRing_atRest (held.enqueueBulk_taken [⟨0, 0⟩])
  have filled := ((Reachable.start 2 .drop).call empty (.buffer ⟨0, 0⟩ (.ring 0))).call empty
    (.buffer ⟨0, 1⟩ (.ring 0))
  have emptied := ((filled.call full (.flush (.ring 0))).call full (.buffer ⟨0, 2⟩ (.ring 0))).call
    full .discard
  obtain ⟨-, -, -, -, lifetime, bytes, -⟩ := backlog_conserves emptied
  exact ⟨_, emptied, by cbv, by cbv, by cbv, lifetime.trans (by cbv), bytes⟩

end Dispatch

end PacketPlane
