import PacketPlane.Proofs.Buffer.Rooms
import PacketPlane.Proofs.Buffer.Treatment

/-! Keeping: packets that somebody holds, some of them alone, and what can be seen of them. -/

namespace PacketPlane

/-- The packet as it would be recorded. -/
def Seen.captured (s : Seen) : Captured :=
  ⟨s.port, s.timestamp, s.data⟩

/-- A packet as whoever holds it alone finds it: what can be seen of it, and the rooms of its pool. -/
structure Look where
  seen : Option Seen
  rooms : Option (Nat × UInt16)
deriving DecidableEq, Repr

namespace Buffers

/-- A packet as it is found. -/
def look (b : Buffers) (packet : Packet) : Look :=
  ⟨b.seen? packet, b.rooms[packet.pool]?⟩

/-- Packets as they are found, one after another. -/
def looks (b : Buffers) (packets : List Packet) : List Look :=
  packets.map b.look

variable {b after : Buffers} {packet : Packet} {packets more shared own : List Packet}

/-- The looks of two lists follow each other. -/
@[simp] theorem looks_append (b : Buffers) (packets more : List Packet) :
    b.looks (packets ++ more) = b.looks packets ++ b.looks more :=
  List.map_append

/-- As many looks as packets. -/
@[simp] theorem length_looks (b : Buffers) (packets : List Packet) :
    (b.looks packets).length = packets.length :=
  List.length_map _

/-- The first packets are seen first. -/
@[simp] theorem looks_take (b : Buffers) (packets : List Packet) (count : Nat) :
    b.looks (packets.take count) = (b.looks packets).take count :=
  List.map_take

/-- The other packets are seen after them. -/
@[simp] theorem looks_drop (b : Buffers) (packets : List Packet) (count : Nat) :
    b.looks (packets.drop count) = (b.looks packets).drop count :=
  List.map_drop

/-- Packets that stay the same each look the same. -/
theorem looks_congr (same : ∀ packet ∈ packets, after.look packet = b.look packet) :
    after.looks packets = b.looks packets :=
  List.map_congr_left same

/-- The length of a packet can be seen. -/
theorem len_eq_seen (b : Buffers) (packet : Packet) : b.len packet = (b.seen? packet).elim 0 Seen.len := by
  -- Both look up the same slot, so it is there for both or for neither.
  rw [len, seen?]
  cases b.slot? packet <;> rfl

/-- Packets that look the same are equally long. -/
theorem len_look {twin : Packet} (same : after.look twin = b.look packet) :
    after.len twin = b.len packet := by
  -- The length is read off what is seen, and the same is seen of both.
  have seen : after.seen? twin = b.seen? packet := congrArg Look.seen same
  rw [len_eq_seen, len_eq_seen, seen]

/-- Whatever is recorded of a packet can be seen. -/
theorem capture_eq_seen (b : Buffers) (packet : Packet) :
    b.capture packet = (b.seen? packet).elim ⟨noPort, 0, []⟩ Seen.captured := by
  -- Both look up the same slot, so it is there for both or for neither.
  rw [capture, seen?]
  cases b.slot? packet <;> rfl

/-- Packets that look the same are as long together. -/
theorem totalLen_looks {twins : List Packet} (same : after.looks twins = b.looks packets) :
    after.totalLen twins = b.totalLen packets := by
  -- A length depends on the look alone, so the sum depends on the list of looks alone.
  have lens : ∀ (c : Buffers) (list : List Packet),
      list.map c.len = (c.looks list).map fun look => look.seen.elim 0 Seen.len := by
    intro c list
    rw [looks, List.map_map]
    exact List.map_congr_left fun packet _ => c.len_eq_seen packet
  rw [totalLen_eq, totalLen_eq, lens, lens, same]

/-- Packets that look the same are recorded the same. -/
theorem capture_looks {twins : List Packet} (same : after.looks twins = b.looks packets) :
    twins.map after.capture = packets.map b.capture := by
  -- A record depends on the look alone, so the records depend on the list of looks alone.
  have captures : ∀ (c : Buffers) (list : List Packet), list.map c.capture =
      (c.looks list).map fun look => look.seen.elim ⟨noPort, 0, []⟩ Seen.captured := by
    intro c list
    rw [looks, List.map_map]
    exact List.map_congr_left fun packet _ => c.capture_eq_seen packet
  rw [captures, captures, same]

/-- A packet that keeps its face looks the same while its pool keeps its rooms. -/
theorem look_congr (fits : b.Fits) (kept : after.Fits) (same : after.face? packet = b.face? packet)
    (rooms : after.rooms = b.rooms) : after.look packet = b.look packet := by
  -- In buffers that fit, what is seen of a packet is determined by its face.
  rw [look, look, seen?_eq kept, seen?_eq fits, same, rooms]

/-- Whatever is done to a packet, one after another, changes no rooms. -/
theorem rooms_performAll (b : Buffers) (packet : Packet) (edits : List Edit) :
    (b.performAll packet edits).rooms = b.rooms := by
  -- By induction on the edits, over all buffers, since each edit leaves other buffers behind.
  induction edits generalizing b with
  | nil => rfl
  | cons edit rest ih => exact (ih (b.perform packet edit)).trans (b.rooms_perform packet edit)

/-- Packets that somebody holds: all are live references, and those of one's own are the only ones to
their buffers. -/
def Keeps (b : Buffers) (shared own : List Packet) : Prop :=
  -- Others may hold further references to the shared ones.
  ∃ l : Ledger, l.Reachable ∧ l.buffers = b ∧ (shared ++ own).Subperm l.packets ∧
    ∀ packet ∈ own, l.references packet = 1

/-- Packets that are kept lie inside their own data rooms. -/
theorem Keeps.fits (keeps : b.Keeps shared own) : b.Fits := by
  -- The buffers are those of a record that was reached, and every such record fits.
  obtain ⟨l, run, rfl, -⟩ := keeps
  exact run.fits

/-- A packet of one's own is held once. -/
theorem Keeps.alone (keeps : b.Keeps shared own) (mine : packet ∈ own) : b.refcount packet = 1 := by
  -- The record counts what the buffers count.
  obtain ⟨l, run, rfl, -, alone⟩ := keeps
  rw [run.sound.counted]
  exact alone packet mine

/-- Fewer packets may be kept, and others may come to share one's own. -/
theorem Keeps.mono {shared' own' : List Packet} (keeps : b.Keeps shared own)
    (fewer : (shared' ++ own').Subperm (shared ++ own)) (mine : own' ⊆ own) :
    b.Keeps shared' own' := by
  -- The same record serves: it lists more than is asked for.
  obtain ⟨l, run, same, owned, alone⟩ := keeps
  exact ⟨l, run, same, fewer.trans owned, fun packet member => alone packet (mine member)⟩

/-- A packet of one's own may be edited: none of the others shows it. -/
theorem Keeps.edited (keeps : b.Keeps shared (packet :: own)) (edits : List Edit) :
    (b.performAll packet edits).Keeps shared (packet :: own) ∧
      ∀ other ∈ shared ++ own, (b.performAll packet edits).look other = b.look other := by
  -- One's own packet has a single reference, so the edit is permitted and shows nowhere else.
  obtain ⟨l, run, rfl, owned, alone⟩ := keeps
  obtain ⟨edited, faces⟩ := run.edited owned edits
  refine ⟨⟨_, edited, rfl, owned, alone⟩, ?_⟩
  intro other member
  exact look_congr run.fits edited.fits (faces other member).2 (rooms_performAll _ packet edits)

/-- References that are no more than before leave one's own packets one's own. -/
theorem references_eq_one {l later : Ledger} (listed : packet ∈ later.packets)
    (fewer : later.references packet ≤ l.references packet) (alone : l.references packet = 1) :
    later.references packet = 1 := by
  -- A packet on record has a reference, and no more than one is left for it.
  have held : 0 < later.references packet :=
    List.count_pos_iff.mpr (List.mem_append_left _ listed)
  omega

/-- A packet may be given back: none of the others shows it. -/
theorem Keeps.released (keeps : b.Keeps (packet :: shared) own) :
    (b.release packet).Keeps shared own ∧
      ∀ other ∈ shared ++ own, (b.release packet).look other = b.look other := by
  -- Whoever is left has no more references than before, and releasing shows in no packet still held.
  obtain ⟨l, run, rfl, owned, alone⟩ := keeps
  have first : ([] ++ packet :: (shared ++ own)).Subperm l.packets := owned
  obtain ⟨given, left, fewer⟩ := run.given first
  refine ⟨⟨_, given, rfl, left, fun other mine => ?_⟩, fun other member => ?_⟩
  · exact references_eq_one (left.subset (List.mem_append_right shared mine)) (fewer other)
      (alone other mine)
  · have listed := owned.subset (List.mem_cons_of_mem _ member)
    exact look_congr run.fits given.fits
      (run.face?_touches listed (l.buffers.release_touches packet)) (rooms_release _ packet)

/-- Packets may be given back together: none of the others shows it. -/
theorem Keeps.releasedAll (keeps : b.Keeps (packets ++ shared) own) :
    (b.releaseAll packets).Keeps shared own ∧
      ∀ other ∈ shared ++ own, (b.releaseAll packets).look other = b.look other := by
  -- They are given back one after another.
  induction packets generalizing b with
  | nil => exact ⟨keeps, fun _ _ => rfl⟩
  | cons packet rest ih =>
    have first : b.Keeps (packet :: (rest ++ shared)) own := keeps
    obtain ⟨given, seen⟩ := first.released
    obtain ⟨left, later⟩ := ih given
    refine ⟨left, fun other member => ?_⟩
    rw [← seen other (List.append_assoc .. ▸ List.mem_append_right rest member)]
    exact later other member

/-- A packet of one's own may be shared with somebody else: nothing shows it, and the others stay
one's own. -/
theorem Keeps.cloned (keeps : b.Keeps shared (packet :: own)) :
    (b.addRef packet).Keeps (packet :: packet :: shared) own ∧
      ∀ other ∈ packet :: shared ++ own, (b.addRef packet).look other = b.look other := by
  -- A second reference to a packet that is held once is permitted, and only that packet gains one.
  obtain ⟨l, run, rfl, owned, alone⟩ := keeps
  have once := alone packet List.mem_cons_self
  have listed : ∀ other ∈ packet :: shared ++ own, other ∈ l.packets := by
    intro other member
    exact owned.subset (List.perm_middle.mem_iff.mpr member)
  have permitted : l.Permits (.clone packet) := by
    refine ⟨listed packet List.mem_cons_self, ?_⟩
    rw [once]
    decide
  have shares := run.call (.clone packet) permitted
  refine ⟨⟨_, shares, rfl, ?_, fun other mine => ?_⟩, fun other member => ?_⟩
  · exact List.subperm_cons packet |>.mpr (List.perm_middle.symm.subperm.trans owned)
  · -- The packet that is shared is not among one's own others.
    have apart : other ≠ packet := by
      rintro rfl
      have twice := owned.count_le other
      have again := List.count_pos_iff.mpr mine
      have live : l.packets.count other ≤ l.references other := by
        rw [Ledger.references, Ledger.live, List.count_append]
        exact Nat.le_add_right _ _
      rw [List.count_append, List.count_cons_self] at twice
      omega
    have count : (l.call (.clone packet)).references other = (packet :: l.live).count other := rfl
    rw [count, List.count_cons_of_ne apart.symm]
    exact alone other (List.mem_cons_of_mem _ mine)
  · exact look_congr run.fits shares.fits
      (run.face?_touches (listed other member) (l.buffers.addRef_touches packet))
      (rooms_addRef _ packet)

end Buffers

end PacketPlane
