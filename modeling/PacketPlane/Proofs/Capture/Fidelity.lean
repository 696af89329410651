import Mathlib.Data.List.Permutation
import PacketPlane.Proofs.Buffer.Conservation
import PacketPlane.Proofs.Buffer.Isolation

/-! Fidelity of captures: a tap hands over what it kept in the order it was kept, as it was at the
moment of the tap, and counts what it kept and what it skipped. -/

namespace PacketPlane

open scoped List

/-- A tap on record: how often it was called, each packet that it kept as it was then, and each
packet that it handed to a sink as the sink got it. -/
structure Tapping where
  tap : Tap
  calls : Nat := 0
  kept : List Captured := []
  handed : List Captured := []

/-- A sink in memory on record, with everything that taps handed to it. -/
structure Recording where
  sink : MemoryCapture
  handed : List Captured := []

/-- Packets that somebody holds, with the taps that packets go through and the sinks that they are
recorded in. -/
structure Session where
  ledger : Ledger := {}
  taps : List Tapping := []
  sinks : List Recording := []

/-- One call on pools, packets, taps or sinks. -/
inductive SessionCall where
  | pool (call : PoolCall)
  | newTap (name : String) (capacity : Nat)
  | newSink (limit : Option Nat)
  | tap (tap : Nat) (packet : Packet)
  | drain (tap sink limit : Nat)

/-- A packet handed to a sink on record. -/
def Recording.write : SinkWrite Recording := fun captured recording =>
  -- The sink itself decides whether it keeps the packet.
  (MemoryCapture.write captured recording.sink).map fun sink =>
    ⟨sink, recording.handed ++ [captured]⟩

/-- A tap on record called with a packet. -/
def Tapping.call (t : Tapping) (b : Buffers) (packet : Packet) : Tapping × Buffers :=
  match t.tap.tap b packet with
  | (true, tap, after) =>
    ({ t with tap, calls := t.calls + 1, kept := t.kept ++ [b.capture packet] }, after)
  | (false, tap, after) => ({ t with tap, calls := t.calls + 1 }, after)

/-- A tap on record drained into a sink on record, with what the caller is told. -/
def Tapping.drain (t : Tapping) (b : Buffers) (recording : Recording) (limit : Nat) :
    Except Fault Nat × Tapping × Recording × Buffers :=
  -- What is handed over in this call goes on both records.
  let (told, tap, after, got) := t.tap.drainInto b Recording.write ⟨recording.sink, []⟩ limit
  (told, { t with tap, handed := t.handed ++ got.handed },
    ⟨got.sink, recording.handed ++ got.handed⟩, after)

namespace Session

/-- The packets that taps hold. -/
def tapped (s : Session) : List Packet :=
  s.taps.flatMap fun t => t.tap.ring.toList

/-- All references on record, those of taps among them. -/
def whole (s : Session) : Ledger :=
  { s.ledger with packets := s.ledger.packets ++ s.tapped }

/-- What a caller may do: with pools and packets, what it may do as their holder while taps hold
theirs, and it taps only packets that it holds, each shared fewer than 2^32 times. -/
def Permits (s : Session) : SessionCall → Prop
  | .pool c => s.ledger.Permits c ∧ s.whole.Permits c
  | .tap _ packet =>
    packet ∈ s.ledger.packets ∧ s.whole.references packet + 1 < UInt32.size
  | .newTap .. | .newSink _ | .drain .. => True

/-- The session after a call. -/
def call (s : Session) : SessionCall → Session
  -- A tap or a sink that does not exist cannot be called.
  | .pool c => { s with ledger := s.ledger.call c }
  | .newTap name capacity =>
    match Tap.make name capacity with
    | .error _ => s
    | .ok tap => { s with taps := s.taps ++ [{ tap }] }
  | .newSink limit => { s with sinks := s.sinks ++ [{ sink := { limit } }] }
  | .tap k packet =>
    match s.taps[k]? with
    | none => s
    | some t =>
      let (after, buffers) := t.call s.ledger.buffers packet
      { s with ledger := { s.ledger with buffers }, taps := s.taps.set k after }
  | .drain k j limit =>
    match s.taps[k]?, s.sinks[j]? with
    | some t, some recording =>
      let (_, after, got, buffers) := t.drain s.ledger.buffers recording limit
      { ledger := { s.ledger with buffers }, taps := s.taps.set k after, sinks := s.sinks.set j got }
    | _, _ => s

/-- A session that permitted calls lead to, starting without any pool, tap or sink. -/
inductive Reachable : Session → Prop
  | start : Reachable {}
  | call {s : Session} (run : Reachable s) (c : SessionCall) (permitted : s.Permits c) :
    Reachable (s.call c)

end Session

/-- A sink that has what it was handed, in order and up to its limit. -/
def MemoryCapture.Records (sink : MemoryCapture) (handed : List Captured) : Prop :=
  sink.packets.toList = match sink.limit with
    | none => handed
    | some limit => handed.take limit

/-- A tap that hands over what it kept: each packet once, in order, as it was when it was kept, and
with every packet and every call counted. -/
structure Tapping.Faithful (t : Tapping) (b : Buffers) : Prop where
  ordered : t.handed ++ t.tap.ring.toList.map b.capture = t.kept
  tapped : t.tap.tapped = UInt64.ofNat (t.handed.length + t.tap.ring.count)
  called : t.tap.tapped + t.tap.dropped = UInt64.ofNat t.calls

/-- A sink in memory refuses nothing, and has what it was handed before and now. -/
theorem MemoryCapture.Records.write {sink : MemoryCapture} {handed : List Captured}
    (records : sink.Records handed) (captured : Captured) :
    ∃ after, MemoryCapture.write captured sink = .ok after ∧
      after.Records (handed ++ [captured]) := by
  -- By cases on the limit: beyond it nothing is stored, and the first packets stay the first.
  refine ⟨_, rfl, ?_⟩
  rw [Records] at records
  cases bound : sink.limit with
  | none =>
    rw [bound] at records
    simp [Records, records]
  | some limit =>
    rw [bound] at records
    have size : sink.packets.size = min limit handed.length := by
      rw [← Array.length_toList, records, List.length_take]
    by_cases full : limit ≤ sink.packets.size
    · -- The limit was reached before.
      have enough : limit ≤ handed.length := by omega
      simp [Records, bound, full, records, List.take_append_of_le_length enough]
    · have short : handed.length < limit := by omega
      have whole : (handed ++ [captured]).take limit = handed ++ [captured] :=
        List.take_of_length_le (by rw [List.length_append]; exact short)
      simp only [List.take_of_length_le (Nat.le_of_lt short)] at records
      simp [Records, full, records, whole]

/-- Packets recorded one after another are handed over in their order as they are. -/
theorem recordAll_recording (b : Buffers) (packets : List Packet) (recording : Recording)
    (log : List Captured) (records : recording.sink.Records (log ++ recording.handed)) :
    ∃ got, Tap.recordAll Recording.write b packets recording = (none, got) ∧
      got.handed = recording.handed ++ packets.map b.capture ∧
      got.sink.Records (log ++ got.handed) := by
  -- By induction on the packets, for every recording that the first of them may find.
  induction packets generalizing recording with
  | nil => exact ⟨recording, rfl, by simp, records⟩
  | cons packet rest ih =>
    obtain ⟨sink, wrote, after⟩ := records.write (b.capture packet)
    rw [List.append_assoc] at after
    obtain ⟨got, all, handed, recorded⟩ :=
      ih ⟨sink, recording.handed ++ [b.capture packet]⟩ after
    refine ⟨got, ?_, ?_, recorded⟩
    · simp only [Tap.recordAll, Recording.write, wrote, Except.map]
      exact all
    · rw [handed]
      simp

namespace Tap

variable {t : Tap} {b : Buffers} {packet : Packet} {items : List Packet}

/-- A tap with room keeps a reference to the packet. -/
theorem tap_kept (held : t.ring.Holds items) (room : items.length < t.ring.capacity) (b : Buffers)
    (packet : Packet) :
    ∃ ring, t.tap b packet = (true, { t with ring, tapped := t.tapped + 1 }, b.addRef packet) ∧
      ring.Holds (items ++ [packet]) := by
  -- The ring takes the packet, so the reference that was made for it stays.
  obtain ⟨ring, put, after⟩ := held.enqueue_ok packet room
  refine ⟨ring, ?_, after⟩
  simp only [tap, put]

/-- A tap without room gives its reference back at once. -/
theorem tap_full (held : t.ring.Holds items) (full : t.ring.capacity ≤ items.length) :
    t.tap b packet =
      (false, { t with dropped := t.dropped + 1 }, (b.addRef packet).release packet) := by
  -- The ring refuses the packet, and the tap undoes what it did to the pool.
  simp only [tap, held.enqueue_full packet full]

end Tap

namespace Tapping

variable {t : Tapping} {b after : Buffers} {packet : Packet}

/-- A tap stays faithful when the packets that it holds look as before. -/
theorem Faithful.carry (faithful : t.Faithful b)
    (same : ∀ packet ∈ t.tap.ring.toList, after.capture packet = b.capture packet) :
    t.Faithful after := by
  -- What was handed over and counted is past, so only what the tap still holds has to look the same.
  refine ⟨?_, faithful.tapped, faithful.called⟩
  rw [List.map_congr_left same]
  exact faithful.ordered

/-- A call on a tap with room puts the packet on record as it is. -/
theorem call_kept (held : t.tap.ring.Holds t.tap.ring.toList)
    (room : t.tap.ring.toList.length < t.tap.ring.capacity) (faithful : t.Faithful b)
    (same : ∀ other ∈ packet :: t.tap.ring.toList,
      (b.addRef packet).capture other = b.capture other) :
    (t.call b packet).2 = b.addRef packet ∧
      (t.call b packet).1.tap.ring.Holds (t.tap.ring.toList ++ [packet]) ∧
      (t.call b packet).1.Faithful (b.addRef packet) := by
  -- The packet is put on record as it looks while it is tapped, behind those already there.
  obtain ⟨ring, kept, after⟩ := Tap.tap_kept held room b packet
  have called : t.call b packet = ({ t with
      tap := { t.tap with ring, tapped := t.tap.tapped + 1 }, calls := t.calls + 1,
      kept := t.kept ++ [b.capture packet] }, b.addRef packet) := by
    simp only [call, kept]
  rw [called]
  refine ⟨rfl, after, ?_, ?_, ?_⟩
  · show t.handed ++ ring.toList.map _ = t.kept ++ [b.capture packet]
    rw [after.toList_eq, ← faithful.ordered, List.append_assoc]
    congr 1
    rw [List.map_append, List.map_singleton, same packet List.mem_cons_self]
    congr 1
    exact List.map_congr_left fun other member => same other (List.mem_cons_of_mem packet member)
  · show t.tap.tapped + 1 = UInt64.ofNat (t.handed.length + ring.count)
    rw [faithful.tapped, after.count_eq, held.count_eq, List.length_append, List.length_singleton,
      ← Nat.add_assoc, UInt64.ofNat_add _ 1]
    rfl
  · show t.tap.tapped + 1 + t.tap.dropped = UInt64.ofNat (t.calls + 1)
    rw [UInt64.ofNat_add, ← faithful.called]
    grind

/-- A call on a tap without room counts, and changes nothing else. -/
theorem call_full (held : t.tap.ring.Holds t.tap.ring.toList)
    (full : t.tap.ring.capacity ≤ t.tap.ring.toList.length) (faithful : t.Faithful b)
    (back : (b.addRef packet).release packet = b) :
    (t.call b packet).2 = b ∧ (t.call b packet).1.tap.ring = t.tap.ring ∧
      (t.call b packet).1.Faithful b := by
  -- Taking the reference and giving it back cancel, and only the counter of skipped packets is
  -- raised.
  have called : t.call b packet = ({ t with
      tap := { t.tap with dropped := t.tap.dropped + 1 }, calls := t.calls + 1 }, b) := by
    simp only [call, Tap.tap_full held full, back]
  rw [called]
  refine ⟨rfl, rfl, faithful.ordered, faithful.tapped, ?_⟩
  show t.tap.tapped + (t.tap.dropped + 1) = UInt64.ofNat (t.calls + 1)
  rw [UInt64.ofNat_add, ← faithful.called]
  grind

/-- Draining a tap into a sink in memory succeeds, hands over its oldest packets as they are, and
gives back its references to them. -/
theorem drain_eq (held : t.tap.ring.Holds t.tap.ring.toList) {recording : Recording}
    (records : recording.sink.Records recording.handed) (limit : Nat) :
    let taken := t.tap.ring.toList.take limit
    ∃ ring sink, t.drain b recording limit = (.ok taken.length,
        { t with tap := { t.tap with ring }, handed := t.handed ++ taken.map b.capture },
        ⟨sink, recording.handed ++ taken.map b.capture⟩, b.releaseAll taken) ∧
      ring.Holds (t.tap.ring.toList.drop limit) ∧
      sink.Records (recording.handed ++ taken.map b.capture) := by
  -- The batch leaves the ring first, and a sink in memory then takes all of it.
  intro taken
  obtain ⟨items, -, rest⟩ := held.dequeueBulk_holds limit
  obtain ⟨got, all, handed, recorded⟩ := recordAll_recording b taken
    ⟨recording.sink, []⟩ recording.handed (by simpa using records)
  rw [List.nil_append] at handed
  rw [handed] at recorded
  refine ⟨_, got.sink, ?_, rest, recorded⟩
  simp only [drain, Tap.drainInto, items, all, handed, taken]

end Tapping

namespace Session

/-- A session whose record agrees with its pools, taps and sinks. -/
structure Sound (s : Session) : Prop where
  whole : s.whole.Sound
  fits : s.ledger.buffers.Fits
  rings : ∀ t ∈ s.taps, t.tap.ring.Holds t.tap.ring.toList
  taps : ∀ t ∈ s.taps, t.Faithful s.ledger.buffers
  sinks : ∀ r ∈ s.sinks, r.sink.Records r.handed

namespace Sound

variable {s : Session}

/-- A packet that a tap holds is held. -/
theorem refcount_pos (sound : s.Sound) {t : Tapping} (listed : t ∈ s.taps) {packet : Packet}
    (member : packet ∈ t.tap.ring.toList) : 0 < s.ledger.buffers.refcount packet := by
  -- What taps hold is on record with what callers hold.
  apply sound.whole.refcount_pos
  apply List.mem_append_left
  apply List.mem_append_right
  exact List.mem_flatMap.mpr ⟨t, listed, member⟩

/-- What a caller does with its own packets does not show in those that taps hold. -/
theorem capture_pool (sound : s.Sound) {c : PoolCall} (permitted : s.Permits (.pool c))
    {packet : Packet} (member : packet ∈ s.tapped) :
    (s.whole.call c).buffers.capture packet = s.ledger.buffers.capture packet := by
  -- A packet that a caller has too is shared and frozen, and any other is not the caller's to edit.
  have listed : packet ∈ s.whole.live :=
    List.mem_append_left _ (List.mem_append_right _ member)
  have held := sound.whole.refcount_pos listed
  by_cases shared : 2 ≤ s.whole.references packet
  · -- Sharing it with a tap freezes a packet.
    exact Buffers.capture_congr sound.fits ((s.whole.call_touches c).fits sound.fits)
      (sound.whole.call_frozen sound.fits shared c)
  · apply (s.whole.call_touches c).capture sound.fits held
    intro shows
    obtain ⟨edit, rfl⟩ | idle := sound.whole.shown_idle shows
    · -- The caller would hold a second reference to what it edits.
      have own : packet ∈ s.ledger.packets := permitted.1
      have both : 2 ≤ (s.ledger.packets ++ s.tapped).count packet := by
        rw [List.count_append]
        have := List.count_pos_iff.mpr own
        have := List.count_pos_iff.mpr member
        omega
      apply shared
      rw [Ledger.references, Ledger.live, List.count_append]
      exact Nat.le_add_right_of_le both
    · rw [sound.whole.counted] at held
      omega

/-- A caller's call on pools and packets keeps the record in step. -/
theorem pool (sound : s.Sound) {c : PoolCall} (permitted : s.Permits (.pool c)) :
    (s.call (.pool c)).Sound := by
  -- What taps hold is set beside the caller's packets, where the call does the same.
  have beside : (s.call (.pool c)).whole = s.whole.call c :=
    (Ledger.call_beside permitted.1 s.tapped).symm
  have buffers : (s.call (.pool c)).ledger.buffers = (s.whole.call c).buffers := by
    rw [← beside]
    rfl
  refine ⟨?_, ?_, sound.rings, ?_, sound.sinks⟩
  · rw [beside]
    exact sound.whole.call permitted.2
  · rw [buffers]
    exact (s.whole.call_touches c).fits sound.fits
  · intro t listed
    apply (sound.taps t listed).carry
    intro packet member
    rw [buffers]
    exact sound.capture_pool permitted (List.mem_flatMap.mpr ⟨t, listed, member⟩)

/-- A tap that is new has kept nothing. -/
theorem newTap (sound : s.Sound) (name : String) (capacity : Nat) :
    (s.call (.newTap name capacity)).Sound := by
  -- A tap that is refused changes nothing, and one that is made comes last with an empty ring.
  simp only [call]
  cases made : Tap.make name capacity with
  | error fault => exact sound
  | ok tap =>
    obtain ⟨ring, ringMade, rfl⟩ : ∃ ring, Ring.make name capacity = .ok ring ∧ tap = { ring } := by
      rw [Tap.make] at made
      split at made
      · cases made
      · rename_i ring ringMade
        cases made
        exact ⟨ring, ringMade, rfl⟩
    have empty := Ring.holds_make ringMade
    -- An empty tap adds nothing to what is held.
    have same : ({ s with taps := s.taps ++ [{ tap := { ring } }] } : Session).whole = s.whole := by
      simp [Session.whole, tapped, empty.toList_eq]
    refine ⟨?_, sound.fits, ?_, ?_, sound.sinks⟩
    · rw [same]
      exact sound.whole
    · intro t listed
      obtain older | rfl := List.mem_append.mp listed |>.imp_right List.mem_singleton.mp
      · exact sound.rings t older
      · show ring.Holds ring.toList
        rw [empty.toList_eq]
        exact empty
    · intro t listed
      obtain older | rfl := List.mem_append.mp listed |>.imp_right List.mem_singleton.mp
      · exact sound.taps t older
      · refine ⟨?_, ?_, rfl⟩
        · simp [empty.toList_eq]
        · simp [empty.count_eq]

/-- One tap replaced, with the buffers as it leaves them, keeps the record in step when the packets
that taps hold look as before. -/
theorem replace (sound : s.Sound) {k : Nat} {t after : Tapping} {buffers : Buffers}
    {sinks : List Recording} (found : s.taps[k]? = some t)
    (whole : ∀ rest, (rest ++ t.tap.ring.toList).Perm (s.tapped ++ after.tap.ring.toList) →
      ({ s.ledger with buffers, packets := s.ledger.packets ++ rest } : Ledger).Sound)
    (touches : s.ledger.buffers.Touches buffers [])
    (ring : after.tap.ring.Holds after.tap.ring.toList) (faithful : after.Faithful buffers)
    (recorded : ∀ r ∈ sinks, r.sink.Records r.handed) :
    ({ ledger := { s.ledger with buffers }, taps := s.taps.set k after, sinks } : Session).Sound := by
  -- The record loses what the old tap held and gains what the new one does, and the other taps stay.
  refine ⟨?_, touches.fits sound.fits, ?_, ?_, recorded⟩
  · exact whole _ (flatMap_set_perm (fun t : Tapping => t.tap.ring.toList) found after)
  · intro u member
    obtain older | rfl := List.mem_or_eq_of_mem_set member
    · exact sound.rings u older
    · exact ring
  · intro u member
    obtain older | rfl := List.mem_or_eq_of_mem_set member
    · apply (sound.taps u older).carry
      intro packet held
      exact touches.capture sound.fits (sound.refcount_pos older held) List.not_mem_nil
    · exact faithful

/-- A tap keeps or skips the packet that it is called with. -/
theorem tap (sound : s.Sound) {k : Nat} {packet : Packet} (permitted : s.Permits (.tap k packet)) :
    (s.call (.tap k packet)).Sound := by
  -- By cases on the room of the ring: the record gains one reference or none.
  obtain ⟨own, small⟩ := permitted
  simp only [call]
  cases found : s.taps[k]? with
  | none => exact sound
  | some t =>
    have listed : t ∈ s.taps := List.mem_of_getElem? found
    have ring := sound.rings t listed
    have live : packet ∈ s.whole.packets := List.mem_append_left _ own
    have held := sound.whole.refcount_pos (List.mem_append_left _ live)
    by_cases room : t.tap.ring.toList.length < t.tap.ring.capacity
    · have touches := s.ledger.buffers.addRef_touches packet
      have same : ∀ other ∈ packet :: t.tap.ring.toList,
          (s.ledger.buffers.addRef packet).capture other = s.ledger.buffers.capture other := by
        intro other member
        apply touches.capture sound.fits ?_ List.not_mem_nil
        obtain rfl | older := List.mem_cons.mp member
        · exact held
        · exact sound.refcount_pos listed older
      obtain ⟨buffers, after, faithful⟩ := Tapping.call_kept ring room (sound.taps t listed) same
      rw [← buffers] at touches faithful
      refine sound.replace found ?_ touches ?_ faithful sound.sinks
      · -- The tap's reference is the one that sharing the packet adds.
        intro rest moved
        rw [after.toList_eq] at moved
        have one : rest.Perm (packet :: s.tapped) := by
          apply (List.perm_append_right_iff t.tap.ring.toList).mp
          calc rest ++ t.tap.ring.toList
              ~ s.tapped ++ (t.tap.ring.toList ++ [packet]) := moved
            _ ~ s.tapped ++ ([packet] ++ t.tap.ring.toList) :=
                List.perm_append_comm.append_left _
            _ ~ packet :: s.tapped ++ t.tap.ring.toList := List.perm_middle
        have cloned := sound.whole.call (c := .clone packet) ⟨live, small⟩
        rw [buffers]
        apply cloned.reorder
        calc s.ledger.packets ++ rest
            ~ s.ledger.packets ++ packet :: s.tapped := one.append_left _
          _ ~ packet :: (s.ledger.packets ++ s.tapped) := List.perm_middle
      · rw [after.toList_eq]
        exact after
    · obtain ⟨buffers, kept, faithful⟩ := Tapping.call_full ring (Nat.le_of_not_lt room)
        (sound.taps t listed) (Buffers.release_addRef held)
      simp only [buffers]
      refine sound.replace found ?_ (Buffers.Touches.refl _) ?_ faithful sound.sinks
      · intro rest moved
        rw [kept] at moved
        exact sound.whole.reorder (((List.perm_append_right_iff _).mp moved).append_left _)
      · rw [kept]
        exact ring

/-- A drained tap has handed over its oldest packets, and holds them no longer. -/
theorem drain (sound : s.Sound) (k j limit : Nat) : (s.call (.drain k j limit)).Sound := by
  -- The batch is on record, so releasing it is permitted and shows in no packet that is left.
  simp only [call]
  cases found : s.taps[k]? with
  | none => exact sound
  | some t =>
    cases there : s.sinks[j]? with
    | none => exact sound
    | some recording =>
      have listed : t ∈ s.taps := List.mem_of_getElem? found
      have held := sound.rings t listed
      have faithful := sound.taps t listed
      obtain ⟨ring, sink, drained, rest, records⟩ := Tapping.drain_eq (b := s.ledger.buffers) held
        (sound.sinks recording (List.mem_of_getElem? there)) limit
      have touches := s.ledger.buffers.releaseAll_touches (t.tap.ring.toList.take limit)
      simp only [drained]
      refine sound.replace found ?_ touches ?_ ?_ ?_
      · intro left moved
        have moved : (left ++ t.tap.ring.toList).Perm (s.tapped ++ t.tap.ring.toList.drop limit) := by
          rwa [rest.toList_eq] at moved
        -- What is left in the other taps, with the batch, is all that was tapped.
        have taken : (t.tap.ring.toList.take limit ++ left).Perm s.tapped := by
          apply (List.perm_append_right_iff (t.tap.ring.toList.drop limit)).mp
          calc t.tap.ring.toList.take limit ++ left ++ t.tap.ring.toList.drop limit
              ~ left ++ t.tap.ring.toList.take limit ++ t.tap.ring.toList.drop limit :=
                List.perm_append_comm.append_right _
            _ = left ++ t.tap.ring.toList := by rw [List.append_assoc, List.take_append_drop]
            _ ~ s.tapped ++ t.tap.ring.toList.drop limit := moved
        apply Ledger.Sound.releaseAll
        apply sound.whole.reorder
        calc t.tap.ring.toList.take limit ++ (s.ledger.packets ++ left)
            ~ s.ledger.packets ++ (t.tap.ring.toList.take limit ++ left) :=
              List.perm_append_comm_assoc ..
          _ ~ s.ledger.packets ++ s.tapped := taken.append_left _
      · show ring.Holds ring.toList
        rw [rest.toList_eq]
        exact rest
      · refine ⟨?_, ?_, faithful.called⟩
        · show t.handed ++ _ ++ ring.toList.map _ = t.kept
          -- Packets that stay are held by the tap, so the release does not show in them.
          have same : ∀ packet ∈ t.tap.ring.toList.drop limit,
              (s.ledger.buffers.releaseAll (t.tap.ring.toList.take limit)).capture packet =
                s.ledger.buffers.capture packet := by
            intro packet member
            exact touches.capture sound.fits
              (sound.refcount_pos listed (List.mem_of_mem_drop member)) List.not_mem_nil
          rw [rest.toList_eq, List.map_congr_left same, List.append_assoc, ← List.map_append,
            List.take_append_drop]
          exact faithful.ordered
        · show t.tap.tapped = UInt64.ofNat ((t.handed ++ _).length + ring.count)
          rw [faithful.tapped, held.count_eq, rest.count_eq, List.length_append, List.length_map,
            List.length_take, List.length_drop]
          congr 1
          omega
      · intro r member
        obtain older | rfl := List.mem_or_eq_of_mem_set member
        · exact sound.sinks r older
        · exact records

/-- A sink that is new has nothing, and was handed nothing. -/
theorem newSink (sound : s.Sound) (limit : Option Nat) : (s.call (.newSink limit)).Sound := by
  -- The new sink comes last, and nothing was handed to it.
  refine ⟨sound.whole, sound.fits, sound.rings, sound.taps, ?_⟩
  intro r listed
  obtain older | rfl := List.mem_append.mp listed |>.imp_right List.mem_singleton.mp
  · exact sound.sinks r older
  · cases limit with
    | none => rfl
    | some limit => exact List.take_nil.symm

/-- Every permitted call keeps the record in step. -/
theorem call (sound : s.Sound) {c : SessionCall} (permitted : s.Permits c) :
    (s.call c).Sound := by
  -- By cases on the call, each of which has its own lemma.
  cases c with
  | pool c => exact sound.pool permitted
  | newTap name capacity => exact sound.newTap name capacity
  | newSink limit => exact sound.newSink limit
  | tap k packet => exact sound.tap permitted
  | drain k j limit => exact sound.drain k j limit

end Sound

/-- Whatever permitted calls were made, the record agrees with pools, taps and sinks. -/
theorem Reachable.sound {s : Session} (run : s.Reachable) : s.Sound := by
  -- The record starts in step, and every call keeps it so.
  induction run with
  | start =>
    refine ⟨Ledger.sound_start, ?_, ?_, ?_, ?_⟩
    · intro k p found
      simp at found
    all_goals
      intro entry listed
      cases listed
  | call run c permitted ih => exact ih.call permitted

/-- Whatever pools, taps and sinks were made and whatever permitted calls followed: every tap hands
over what it kept, each packet once, in order and as it was at the moment of the tap, and counts what
it kept and skipped. Every sink has what it was handed, up to its limit, and no drain into one fails.
A tap that skips a packet leaves all pools as they were. And every pool keeps its buffers, each held
by exactly the references of callers and those of taps that were not drained yet. -/
theorem captures_faithful {s : Session} (run : s.Reachable) :
    (∀ t ∈ s.taps, t.Faithful s.ledger.buffers) ∧
    (∀ r ∈ s.sinks, r.sink.Records r.handed) ∧
    (∀ t ∈ s.taps, ∀ r ∈ s.sinks, ∀ limit,
      let (told, _, got, _) := t.drain s.ledger.buffers r limit
      told = .ok (min limit t.tap.ring.count) ∧
        got.handed = r.handed ++ (t.tap.ring.toList.take limit).map s.ledger.buffers.capture) ∧
    (∀ (k : Nat) packet, s.Permits (.tap k packet) → ∀ t ∈ s.taps,
      (t.tap.tap s.ledger.buffers packet).1 = false →
        (t.tap.tap s.ledger.buffers packet).2.2 = s.ledger.buffers) ∧
    ∀ (k : Nat) (p : Pool), s.ledger.buffers.pools[k]? = some p →
      p.Conserved fun i => s.ledger.references ⟨k, i⟩ + s.tapped.count ⟨k, i⟩ := by
  -- All of it is read off the record that every run keeps in step.
  have sound := run.sound
  refine ⟨sound.taps, sound.sinks, ?_, ?_, ?_⟩
  · intro t listed r there limit
    have held := sound.rings t listed
    obtain ⟨ring, sink, drained, -, -⟩ := Tapping.drain_eq (b := s.ledger.buffers) held
      (sound.sinks r there) limit
    rw [drained, held.count_eq]
    exact ⟨congrArg Except.ok List.length_take, rfl⟩
  · intro k packet permitted t listed skipped
    have held := sound.rings t listed
    by_cases room : t.tap.ring.toList.length < t.tap.ring.capacity
    · obtain ⟨ring, kept, -⟩ := Tap.tap_kept held room s.ledger.buffers packet
      rw [kept] at skipped
      cases skipped
    · rw [Tap.tap_full held (Nat.le_of_not_lt room)]
      apply Buffers.release_addRef
      exact sound.whole.refcount_pos (List.mem_append_left _ (List.mem_append_left _ permitted.1))
  · intro k p found
    have conserved := sound.whole.conserved.pools k p found
    have references : ∀ packet, s.whole.references packet =
        s.ledger.references packet + s.tapped.count packet := by
      intro packet
      simp only [Ledger.references, Ledger.live, whole, List.count_append]
      omega
    simpa only [references] using conserved

/-- Whether a call is plainly permitted: what is shared or edited is on record, and raw handles are
left alone. -/
def allows (s : Session) : SessionCall → Bool
  -- Whoever holds a packet besides taps holds it together with them.
  | .pool (.make ..) | .pool (.alloc _) | .pool (.allocBulk ..) => true
  | .pool (.edit packet _) => s.ledger.packets.contains packet
  | .pool _ => false
  | .tap _ packet =>
    s.ledger.packets.contains packet && s.whole.references packet + 1 < UInt32.size
  | .newTap .. | .newSink _ | .drain .. => true

/-- Whether each call is plainly permitted after those before it. -/
def allowsAll (s : Session) : List SessionCall → Bool
  -- A call may take away what the next one needs.
  | [] => true
  | c :: rest => s.allows c && (s.call c).allowsAll rest

/-- What is plainly permitted is permitted. -/
theorem permits_of_allows {s : Session} {c : SessionCall} (allowed : s.allows c = true) :
    s.Permits c := by
  -- A packet that is on record without taps is on record with them.
  have both : ∀ packet, s.ledger.packets.contains packet = true →
      packet ∈ s.ledger.packets ∧ packet ∈ s.whole.packets := by
    intro packet found
    have listed := List.contains_iff_mem.mp found
    exact ⟨listed, List.mem_append_left _ listed⟩
  cases c with
  | pool c =>
    cases c with
    | make name settings reserve => exact ⟨trivial, trivial⟩
    | alloc pool => exact ⟨trivial, trivial⟩
    | allocBulk pool count => exact ⟨trivial, trivial⟩
    | edit packet edit => exact both packet allowed
    | _ => cases allowed
  | tap k packet =>
    obtain ⟨found, room⟩ := Bool.and_eq_true_iff.mp allowed
    exact ⟨(both packet found).1, of_decide_eq_true room⟩
  | newTap name capacity => trivial
  | newSink limit => trivial
  | drain k j limit => trivial

/-- Calls that are plainly permitted one after another lead on. -/
theorem Reachable.calls {s : Session} (run : s.Reachable) {calls : List SessionCall}
    (allowed : s.allowsAll calls = true) : (calls.foldl Session.call s).Reachable := by
  -- Each call is permitted where the ones before it led to.
  induction calls generalizing s with
  | nil => exact run
  | cons c rest ih =>
    obtain ⟨first, later⟩ := Bool.and_eq_true_iff.mp allowed
    exact ih (run.call c (permits_of_allows first)) later

/-- Two packets with a byte in each go through a tap for two, which is drained one at a time into a sink
for one. -/
def pairCalls : List SessionCall :=
  -- The first packet is written over in vain at first, and in earnest once the tap has let it go.
  [.pool (.make "pair" { capacity := 2 } Ledger.reserveAny), .pool (.allocBulk 0 2),
    .pool (.edit ⟨0, 0⟩ (.copy [1])), .pool (.edit ⟨0, 1⟩ (.copy [2])), .newTap "tap" 2,
    .newSink (some 1), .tap 0 ⟨0, 0⟩, .tap 0 ⟨0, 1⟩, .pool (.edit ⟨0, 0⟩ (.copy [9])), .drain 0 0 1,
    .pool (.edit ⟨0, 0⟩ (.copy [9])), .tap 0 ⟨0, 0⟩, .tap 0 ⟨0, 0⟩, .drain 0 0 1]

/-- Where these calls lead. -/
def pairCaptured : Session := pairCalls.foldl call {}

/-- Of four packets that go through that tap, it keeps three as they are at that moment and skips one.
Two are drained in order, of which the sink has the first, and the third is still there. -/
theorem captures_faithful_tapped :
    pairCaptured.Reachable ∧ ∃ t r, pairCaptured.taps = [t] ∧ pairCaptured.sinks = [r] ∧
      t.kept.map Captured.data = [[1], [2], [9]] ∧ t.handed.map Captured.data = [[1], [2]] ∧
      t.handed ++ t.tap.ring.toList.map pairCaptured.ledger.buffers.capture = t.kept ∧
      t.tap.tapped = 3 ∧ t.tap.tapped + t.tap.dropped = 4 ∧
      r.handed.map Captured.data = [[1], [2]] ∧ r.sink.packets.toList = r.handed.take 1 := by
  -- What the run leaves is computed, and what must agree there is taken from the theorem.
  have run : pairCaptured.Reachable := Reachable.start.calls (by cbv : allowsAll {} pairCalls = true)
  have taps : pairCaptured.taps.map (fun t => (t.kept.map Captured.data, t.handed.map Captured.data,
      t.tap.ring.count, t.calls)) = [([[1], [2], [9]], [[1], [2]], 1, 4)] := by cbv
  have sinks : pairCaptured.sinks.map (fun r => (r.handed.map Captured.data, r.sink.limit)) =
      [([[1], [2]], some 1)] := by cbv
  obtain ⟨t, tap, told⟩ := List.map_eq_singleton_iff.mp taps
  obtain ⟨r, sink, got⟩ := List.map_eq_singleton_iff.mp sinks
  simp only [Prod.mk.injEq] at told got
  obtain ⟨kept, handed, left, calls⟩ := told
  obtain ⟨recorded, limit⟩ := got
  obtain ⟨faithful, records, -⟩ := captures_faithful run
  obtain ⟨ordered, tapped, called⟩ := faithful t (tap ▸ List.mem_cons_self)
  have gone : t.handed.length = 2 := by
    rw [← List.length_map, handed]
    rfl
  have stored := records r (sink ▸ List.mem_cons_self)
  rw [MemoryCapture.Records, limit] at stored
  rw [gone, left] at tapped
  rw [calls] at called
  exact ⟨run, t, r, tap, sink, kept, handed, ordered, tapped, called, recorded, stored⟩

end Session

end PacketPlane
