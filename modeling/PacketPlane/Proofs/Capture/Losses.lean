import Mathlib.Data.List.Permutation
import PacketPlane.Proofs.Capture.Fidelity

/-! Losses of captures: what becomes of the packets on a tap when a sink refuses one. -/

namespace PacketPlane

namespace Tap

variable {σ : Type} {write : SinkWrite σ} {b : Buffers} {sink after : σ} {items packets : List Packet}

/-- Packets that a sink takes one after another, with the sink before and after. -/
inductive Writes (write : SinkWrite σ) (b : Buffers) : σ → List Packet → σ → Prop
  | nil (sink : σ) : Writes write b sink [] sink
  | cons {sink next after : σ} {packet : Packet} {rest : List Packet}
    (put : write (b.capture packet) sink = .ok next) (wrote : Writes write b next rest after) :
    Writes write b sink (packet :: rest) after

/-- The packets that a sink takes before it refuses one. -/
def written (write : SinkWrite σ) (b : Buffers) : List Packet → σ → List Packet
  | [], _ => []
  | packet :: rest, sink =>
    match write (b.capture packet) sink with
    | .error _ => []
    | .ok sink => packet :: written write b rest sink

/-- Recording stops at the first packet that the sink refuses, and otherwise after the last. -/
theorem recordAll_writes (write : SinkWrite σ) (b : Buffers) (packets : List Packet) (sink : σ) :
    let (refusal, after) := recordAll write b packets sink
    let first := written write b packets sink
    Writes write b sink first after ∧
      match refusal with
      | none => packets = first
      | some fault => ∃ packet rest,
        packets = first ++ packet :: rest ∧ write (b.capture packet) after = .error fault := by
  -- By induction on the packets: the first refusal ends the recording, and what it refused is named.
  induction packets generalizing sink with
  | nil => exact ⟨.nil sink, rfl⟩
  | cons packet rest ih =>
    rw [recordAll, written]
    cases put : write (b.capture packet) sink with
    | error fault => exact ⟨.nil sink, packet, rest, rfl, put⟩
    | ok next =>
      obtain ⟨wrote, ended⟩ := ih next
      refine ⟨.cons put wrote, ?_⟩
      simp only
      cases refusal : (recordAll write b rest next).1 with
      | none =>
        rw [refusal] at ended
        exact congrArg (packet :: ·) ended
      | some fault =>
        rw [refusal] at ended
        obtain ⟨refused, others, split, why⟩ := ended
        exact ⟨refused, others, congrArg (packet :: ·) split, why⟩

/-- What a drain comes to when the sink takes the first packets of its batch but not the rest: the whole
batch is off the tap, its references are given back, and nothing else tells of those in the rest. The
drain fails when there are any. -/
inductive Drains (t : Tap) (b : Buffers) (write : SinkWrite σ) (sink : σ) (first : List Packet)
    (ring : Ring Packet) : List Packet → Except Fault Nat × Tap × Buffers × σ → Prop
  | all {after : σ} (wrote : Writes write b sink first after) :
    Drains t b write sink first ring []
      (.ok first.length, { t with ring }, b.releaseAll first, after)
  | refused {after : σ} {fault : Fault} {packet : Packet} {rest : List Packet}
    (wrote : Writes write b sink first after)
    (why : write (b.capture packet) after = .error fault) :
    Drains t b write sink first ring (packet :: rest)
      (.error fault, { t with ring }, b.releaseAll (first ++ packet :: rest), after)

/-- Every drain takes the oldest packets, up to its limit, and leaves the others. -/
theorem drainInto_drains {t : Tap} (held : t.ring.Holds items) (b : Buffers) (write : SinkWrite σ)
    (sink : σ) (limit : Nat) :
    let first := written write b (items.take limit) sink
    ∃ ring rest, items.take limit = first ++ rest ∧ ring.Holds (items.drop limit) ∧
      Drains t b write sink first ring rest (t.drainInto b write sink limit) := by
  -- The batch has left the ring before anything is recorded, whatever the sink says then.
  intro first
  obtain ⟨taken, -, left⟩ := held.dequeueBulk_holds limit
  have recorded := recordAll_writes write b (items.take limit) sink
  simp only [drainInto, taken]
  cases recording : recordAll write b (items.take limit) sink with
  | mk refusal after =>
    rw [recording] at recorded
    obtain ⟨wrote, ended⟩ := recorded
    cases refusal with
    | none =>
      refine ⟨_, [], ended.trans (List.append_nil first).symm, left, ?_⟩
      have whole : items.take limit = first := ended
      rw [whole]
      exact .all wrote
    | some fault =>
      obtain ⟨packet, rest, split, why⟩ := ended
      refine ⟨_, packet :: rest, split, left, ?_⟩
      have whole : items.take limit = first ++ packet :: rest := split
      rw [whole]
      exact .refused wrote why

end Tap

/-- A tap on record: the packets that it kept, those that left it, each with whether a sink took it,
and how many drains failed. -/
structure Trail where
  tap : Tap
  kept : List Packet := []
  departed : List (Packet × Bool) := []
  failed : Nat := 0

namespace Trail

/-- The packets that sinks took. -/
def written (t : Trail) : List Packet :=
  (t.departed.filter (·.2)).map (·.1)

/-- The packets that left the tap and that no sink took. -/
def lost (t : Trail) : List Packet :=
  (t.departed.filter (!·.2)).map (·.1)

/-- The record after the tap was called with a packet. -/
def keep (t : Trail) (b : Buffers) (packet : Packet) : Trail :=
  match t.tap.tap b packet with
  | (true, tap, _) => { t with tap, kept := t.kept ++ [packet] }
  | (false, tap, _) => { t with tap }

/-- The record after the tap was drained into a sink. -/
def drain {σ : Type} (t : Trail) (b : Buffers) (write : SinkWrite σ) (sink : σ) (limit : Nat) :
    Trail :=
  let batch := t.tap.ring.toList.take limit
  let first := Tap.written write b batch sink
  let (told, tap, _, _) := t.tap.drainInto b write sink limit
  { t with
    tap
    departed := t.departed ++ first.map (·, true) ++ (batch.drop first.length).map (·, false)
    failed := t.failed + (if told.isOk then 0 else 1) }

/-- Records that calls on a new tap lead to. Buffers and sink are other ones at each call. -/
inductive Reachable : Trail → Prop
  | start {name : String} {capacity : Nat} {tap : Tap} (made : Tap.make name capacity = .ok tap) :
    Reachable { tap }
  | keep {t : Trail} (run : Reachable t) (b : Buffers) (packet : Packet) :
    Reachable (t.keep b packet)
  | drain {t : Trail} (run : Reachable t) {σ : Type} (b : Buffers) (write : SinkWrite σ) (sink : σ)
    (limit : Nat) : Reachable (t.drain b write sink limit)

/-- A record that agrees with its tap: each packet that was kept is still there or has departed, in
order, each one is counted, and some are lost as soon as a drain failed. -/
structure Sound (t : Trail) : Prop where
  ring : t.tap.ring.Holds t.tap.ring.toList
  ordered : t.departed.map (·.1) ++ t.tap.ring.toList = t.kept
  tapped : t.tap.tapped = UInt64.ofNat t.kept.length
  lossless : t.lost = [] ↔ t.failed = 0

variable {t : Trail}

/-- A tap keeps or skips the packet that it is called with. -/
theorem Sound.keep (sound : t.Sound) (b : Buffers) (packet : Packet) : (t.keep b packet).Sound := by
  -- By cases on the room of the ring: the packet is appended to both lists, or to neither.
  have held := sound.ring
  rw [Trail.keep]
  by_cases room : t.tap.ring.toList.length < t.tap.ring.capacity
  · obtain ⟨ring, kept, after⟩ := Tap.tap_kept held room b packet
    have listed := after.toList_eq
    rw [kept]
    refine ⟨listed.symm ▸ after, ?_, ?_, sound.lossless⟩
    · show _ ++ ring.toList = t.kept ++ [packet]
      rw [listed, ← sound.ordered, List.append_assoc]
    · show t.tap.tapped + 1 = UInt64.ofNat (t.kept ++ [packet]).length
      rw [sound.tapped, List.length_append, UInt64.ofNat_add]
      rfl
  · rw [Tap.tap_full held (Nat.le_of_not_lt room)]
    exact ⟨sound.ring, sound.ordered, sound.tapped, sound.lossless⟩

/-- A drain takes packets off the tap in order, and loses some exactly when it fails. -/
theorem Sound.drain (sound : t.Sound) {σ : Type} (b : Buffers) (write : SinkWrite σ) (sink : σ)
    (limit : Nat) : (t.drain b write sink limit).Sound := by
  -- What departs is the batch, so what is left on the ring follows it, and a failure loses a packet
  -- at least.
  obtain ⟨ring, rest, split, left, drains⟩ := Tap.drainInto_drains sound.ring b write sink limit
  have others := (congrArg (List.drop (Tap.written write b (t.tap.ring.toList.take limit) sink).length)
    split).trans List.drop_left
  have listed := left.toList_eq
  simp only [Trail.drain, others]
  generalize Tap.written write b (t.tap.ring.toList.take limit) sink = first at split drains ⊢
  generalize t.tap.drainInto b write sink limit = outcome at drains ⊢
  have ordered : (t.departed ++ first.map (·, true) ++ rest.map (·, false)).map (·.1) ++ ring.toList =
      t.kept := by
    simp only [List.map_append, List.map_map, Function.comp_def, List.map_id']
    rw [listed, List.append_assoc, List.append_assoc, ← List.append_assoc first, ← split,
      List.take_append_drop, sound.ordered]
  cases drains with
  | all wrote =>
    refine ⟨listed.symm ▸ left, ordered, sound.tapped, ?_⟩
    simpa [Trail.lost, Except.isOk, Except.toBool] using sound.lossless
  | refused wrote why =>
    refine ⟨listed.symm ▸ left, ordered, sound.tapped, ?_⟩
    simp [Trail.lost, Except.isOk, Except.toBool]

/-- Every record that calls lead to agrees with its tap. -/
theorem Reachable.sound (run : t.Reachable) : t.Sound := by
  -- A new tap has kept nothing, and every call keeps the record in step.
  induction run with
  | @start name capacity tap made =>
    rw [Tap.make] at made
    split at made
    · cases made
    · rename_i ring new
      cases made
      have empty := Ring.holds_make new
      have none := empty.toList_eq
      exact ⟨none.symm ▸ empty, none, rfl, by simp [lost]⟩
  | keep run b packet ih => exact ih.keep b packet
  | drain run b write sink limit ih => exact ih.drain b write sink limit

/-- Each packet that departed was taken by a sink or lost. -/
theorem length_departed (t : Trail) : t.departed.length = t.written.length + t.lost.length := by
  -- Packets that departed are marked as written or not, and not both.
  rw [written, lost, List.length_map, List.length_map]
  exact List.length_eq_length_filter_add _

/-- Whatever calls were made on a tap and whatever its sinks refused: the packets that it kept are those
that departed and those still there, in order, and each of them is counted. Each drain takes its whole
batch, so what its sink did not take is lost: the packets that the tap counted are those that sinks took
and those still there as long as no drain has failed, and never again after that. -/
theorem failed_drains_lose (run : t.Reachable) :
    t.departed.map (·.1) ++ t.tap.ring.toList = t.kept ∧
    t.tap.tapped = UInt64.ofNat (t.written.length + t.lost.length + t.tap.ring.count) ∧
    (t.kept.length = t.written.length + t.tap.ring.count ↔ t.failed = 0) ∧
    ∀ (σ : Type) b (write : SinkWrite σ) sink limit, ∃ first rest ring,
      t.tap.ring.toList.take limit = first ++ rest ∧
      ring.toList = t.tap.ring.toList.drop limit ∧
      Tap.Drains t.tap b write sink first ring rest (t.tap.drainInto b write sink limit) := by
  -- Packets are counted as they depart, so a drain that fails is seen in the balance for good.
  have sound := run.sound
  have counted : t.kept.length = t.written.length + t.lost.length + t.tap.ring.count := by
    rw [← sound.ordered, List.length_append, List.length_map, length_departed,
      sound.ring.count_eq]
  refine ⟨sound.ordered, counted ▸ sound.tapped, ?_, ?_⟩
  · rw [← sound.lossless, ← List.length_eq_zero_iff]
    omega
  · intro σ b write sink limit
    obtain ⟨ring, rest, split, left, drains⟩ := Tap.drainInto_drains sound.ring b write sink limit
    exact ⟨_, rest, ring, split, left.toList_eq, drains⟩

/-- A tap that holds up to four packets. -/
def fourWide : Tap :=
  { ring := { name := "tap", capacity := 4, capacity_valid := by decide } }

/-- The record of that tap once it kept three packets. -/
def threeKept : Trail :=
  -- The packets need no buffers to be kept.
  ((({ tap := fourWide } : Trail).keep {} ⟨0, 0⟩).keep {} ⟨0, 1⟩).keep {} ⟨0, 2⟩

/-- Calls on a tap that was just made lead to it. -/
theorem threeKept_reachable : threeKept.Reachable := by
  -- Three packets are kept one after another on a tap with room for four.
  have start : ({ tap := fourWide } : Trail).Reachable :=
    .start (rfl : Tap.make "tap" 4 = .ok fourWide)
  exact ((start.keep {} ⟨0, 0⟩).keep {} ⟨0, 1⟩).keep {} ⟨0, 2⟩

/-- A sink that takes one packet and refuses the others. -/
def takesOne : SinkWrite Nat := fun _ taken =>
  if taken = 0 then .ok 1 else .error .full

/-- Of two packets that leave this tap for such a sink, the first is taken and the second is lost. -/
theorem failed_drains_lose_one :
    threeKept.Reachable ∧ (threeKept.kept.length = threeKept.written.length + 3) ∧
    let after := threeKept.drain {} takesOne 0 2
    after.Reachable ∧ after.failed = 1 ∧ after.departed = [(⟨0, 0⟩, true), (⟨0, 1⟩, false)] ∧
      [⟨0, 0⟩, ⟨0, 1⟩] ++ after.tap.ring.toList = after.kept ∧
      after.kept.length ≠ after.written.length + after.tap.ring.count := by
  -- The theorem is used before the drain and after it, so that both balances can be compared.
  have run := threeKept_reachable
  have later := run.drain {} takesOne 0 2
  have failed : (threeKept.drain {} takesOne 0 2).failed = 1 := by cbv
  have departed : (threeKept.drain {} takesOne 0 2).departed = [(⟨0, 0⟩, true), (⟨0, 1⟩, false)] := by
    cbv
  obtain ⟨-, -, complete, -⟩ := failed_drains_lose run
  obtain ⟨ordered, -, lossless, -⟩ := failed_drains_lose later
  refine ⟨run, ?_, later, failed, departed, ?_, fun same => ?_⟩
  · exact (complete.mpr (by cbv)).trans (by cbv)
  · rw [departed] at ordered
    exact ordered
  · rw [lossless.mp same] at failed
    cases failed

/-- What a drain of that tap into that sink comes to. -/
def threeDrained : Except Fault Nat × Tap × Buffers × Nat :=
  threeKept.tap.drainInto {} takesOne 0 3

/-- Of three packets on the tap the sink refuses the second, and then the last two are neither with the
sink nor on the tap. -/
theorem threeDrained_lost :
    threeKept.Reachable ∧ threeKept.tap.ring.toList = [⟨0, 0⟩, ⟨0, 1⟩, ⟨0, 2⟩] ∧
    threeDrained.1 = .error .full ∧ threeDrained.2.2.2 = 1 ∧ threeDrained.2.1.ring.toList = [] ∧
    threeDrained.2.1.tapped ≠
      UInt64.ofNat (threeDrained.2.2.2 + threeDrained.2.1.ring.count) := by
  -- Everything here is computed, and only the count that does not add up is compared.
  have taken : threeDrained.2.2.2 = 1 := by cbv
  have tapped : threeDrained.2.1.tapped = 3 := by cbv
  have none : threeDrained.2.1.ring.count = 0 := by cbv
  refine ⟨threeKept_reachable, by cbv, by cbv, taken, by cbv, ?_⟩
  rw [taken, tapped, none]
  decide

end Trail

end PacketPlane
