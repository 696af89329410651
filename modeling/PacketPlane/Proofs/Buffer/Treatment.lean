import Mathlib.Algebra.GroupWithZero.Nat
import PacketPlane.Proofs.Buffer.Isolation
import PacketPlane.Worker.Basic

/-! Treatments: what a processor may do to the packet under work, and what it leaves alone. -/

namespace PacketPlane

namespace Buffers

/-- Things done to a packet one after another. -/
def performAll (b : Buffers) (packet : Packet) (edits : List Edit) : Buffers :=
  -- Each finds the packet as the one before left it.
  edits.foldl (fun b edit => b.perform packet edit) b

variable {b after : Buffers} {packet : Packet}

/-- The length of a packet is that of the window of its face. -/
theorem len_eq (b : Buffers) (packet : Packet) :
    b.len packet = ((b.face? packet).map fun face => face.dataLen.toNat).getD 0 := by
  -- Both look up the same slot, so it is there for both or for neither.
  cases found : b.pools[packet.pool]? with
  | none => simp [len, slot?, face?, found]
  | some p =>
    cases there : p.slots[packet.index]? with
    | none => simp [len, slot?, face?, Pool.face?, found, there]
    | some s => simp [len, slot?, face?, Pool.face?, found, there, Slot.len]

/-- A packet whose face stays keeps its length. -/
theorem len_congr (same : after.face? packet = b.face? packet) : after.len packet = b.len packet := by
  -- The length is read off the face alone.
  rw [len_eq, len_eq, same]

/-- The lengths of packets add up one by one. -/
theorem totalLen_eq (b : Buffers) (packets : List Packet) :
    b.totalLen packets = (packets.map b.len).sum := by
  -- By induction on the packets, for every length that the sum may have started from.
  have from_ : ∀ start, packets.foldl (fun total packet => total + b.len packet) start =
      start + (packets.map b.len).sum := by
    induction packets with
    | nil => simp
    | cons packet rest ih =>
      intro start
      rw [List.foldl_cons, ih, List.map_cons, List.sum_cons]
      omega
  rw [totalLen, from_, Nat.zero_add]

/-- The lengths of two lists of packets add up. -/
theorem totalLen_append (b : Buffers) (packets more : List Packet) :
    b.totalLen (packets ++ more) = b.totalLen packets + b.totalLen more := by
  rw [totalLen_eq, totalLen_eq, totalLen_eq, List.map_append, List.sum_append]

/-- Packets that keep their lengths add up to the same. -/
theorem totalLen_congr {packets : List Packet}
    (same : ∀ packet ∈ packets, after.len packet = b.len packet) :
    after.totalLen packets = b.totalLen packets := by
  rw [totalLen_eq, totalLen_eq, List.map_congr_left same]

/-- Nothing at all can be done to a packet while it is shared. -/
theorem performAll_shared (shared : b.refcount packet ≠ 1) (edits : List Edit) :
    b.performAll packet edits = b := by
  -- By induction on the edits: each is refused, so the packet is as shared as before.
  induction edits with
  | nil => rfl
  | cons edit rest ih =>
    rw [performAll, List.foldl_cons, perform_shared shared]
    exact ih

/-- Whatever is done to a packet shows in that packet and nowhere else. -/
theorem performAll_touches (b : Buffers) (packet : Packet) (edits : List Edit) :
    Touches b (b.performAll packet edits) [packet] := by
  -- By induction on the edits, over all buffers, since each edit leaves other buffers behind.
  induction edits generalizing b with
  | nil => exact (Touches.refl b).mono (by simp)
  | cons edit rest ih =>
    exact ((b.perform_touches packet edit).trans (ih (b.perform packet edit))).mono (by simp)

end Buffers

namespace Ledger

variable {l : Ledger} {packet other : Packet}

/-- A ledger that permitted calls lead to from another one. -/
inductive Later (l : Ledger) : Ledger → Prop
  | same : Later l l
  | call {later : Ledger} (run : Later l later) (c : PoolCall) (permitted : later.Permits c) :
    Later l (later.call c)

/-- What is reachable stays so later on. -/
theorem Reachable.later {later : Ledger} (run : l.Reachable) (steps : l.Later later) :
    later.Reachable := by
  -- By induction on the calls that followed.
  induction steps with
  | same => exact run
  | call steps c permitted ih => exact ih.call c permitted

/-- A record stays in step later on. -/
theorem Sound.later {later : Ledger} (sound : l.Sound) (steps : l.Later later) : later.Sound := by
  -- By induction on the calls that followed.
  induction steps with
  | same => exact sound
  | call steps c permitted ih => exact ih.call permitted

/-- Permitted calls may follow others. -/
theorem Later.trans {middle later : Ledger} (first : l.Later middle) (second : middle.Later later) :
    l.Later later := by
  -- By induction on the second run, whose calls follow the first.
  induction second with
  | same => exact first
  | call steps c permitted ih => exact ih.call c permitted

/-- A holder of a packet may do things to it one after another. -/
theorem Later.performAll (listed : packet ∈ l.packets) (edits : List Edit) :
    l.Later { l with buffers := l.buffers.performAll packet edits } := by
  -- By induction on the edits, after each of which the packet is still on record.
  induction edits generalizing l with
  | nil => exact .same
  | cons edit rest ih =>
    have first : l.Later (l.call (.edit packet edit)) := .call .same _ listed
    exact first.trans (ih listed)

/-- A packet that a pool handed out is its holder's to do things to. -/
theorem Later.allocated {pool : Nat} {b : Buffers}
    (handed : l.buffers.alloc pool = .ok (packet, b)) (edits : List Edit) :
    l.Later { l with buffers := b.performAll packet edits, packets := packet :: l.packets } := by
  -- The packet is handed out first, and is on record from then on.
  have first : l.Later (l.call (.alloc pool)) := .call .same _ trivial
  simp only [Ledger.call, handed] at first
  exact first.trans (.performAll List.mem_cons_self edits)

/-- A packet that a pool handed out may be given back at once. -/
theorem Later.allocated_given {pool : Nat} {b : Buffers}
    (handed : l.buffers.alloc pool = .ok (packet, b)) (edits : List Edit) :
    l.Later { l with buffers := (b.performAll packet edits).release packet } := by
  -- The packet is the first on record, so giving it back leaves the others.
  have dropped := (Later.allocated handed edits).call (.drop packet) List.mem_cons_self
  simpa only [Ledger.call, List.erase_cons_head] using dropped

/-- What is done to a packet shows in no other packet that somebody holds, and not in itself while it
is shared. -/
theorem Reachable.face?_performAll (run : l.Reachable) (listed : other ∈ l.packets)
    (apart : other ≠ packet ∨ 2 ≤ l.references packet) (edits : List Edit) :
    (l.buffers.performAll packet edits).face? other = l.buffers.face? other := by
  -- While the packet is shared no edit is accepted, and otherwise edits touch only the packet itself.
  by_cases shared : 2 ≤ l.references packet
  · rw [Buffers.performAll_shared]
    rw [run.sound.counted]
    omega
  · have held := run.sound.refcount_pos (List.mem_append_left _ listed)
    obtain ⟨face, shown⟩ := Buffers.face?_of_refcount_pos held
    have other := apart.resolve_right shared
    rw [shown]
    exact (l.buffers.performAll_touches packet edits).faces run.fits _ (by simpa using other)
      face shown

/-- The packet under work may be edited: none of the others shows it. -/
theorem Reachable.edited (run : l.Reachable) {before after : List Packet}
    (owned : (before ++ packet :: after).Subperm l.packets) (edits : List Edit) :
    ({ l with buffers := l.buffers.performAll packet edits } : Ledger).Reachable ∧
      ∀ other ∈ before ++ after, other ∈ l.packets ∧
        (l.buffers.performAll packet edits).face? other = l.buffers.face? other := by
  -- The other packets are on record too, and so is the packet itself a second time if it is among
  -- them.
  have split : (before ++ packet :: after).Perm (packet :: (before ++ after)) := List.perm_middle
  have listed : packet ∈ l.packets := owned.subset (by simp)
  refine ⟨run.later (.performAll listed edits), ?_⟩
  intro other member
  have mine : other ∈ l.packets := owned.subset (split.symm.subset (List.mem_cons_of_mem _ member))
  refine ⟨mine, ?_⟩
  apply run.face?_performAll mine
  by_cases apart : other = packet
  · -- The same packet is listed once more, so it is shared.
    right
    subst apart
    have twice := owned.count_le other
    have again := List.count_pos_iff.mpr member
    rw [split.count_eq, List.count_cons_self] at twice
    rw [references, live, List.count_append]
    omega
  · exact Or.inl apart

/-- A packet that somebody holds shows the same after what touches none. -/
theorem Reachable.face?_touches (run : l.Reachable) (listed : other ∈ l.packets) {after : Buffers}
    (touches : l.buffers.Touches after []) : after.face? other = l.buffers.face? other := by
  -- What is held has a face, and faces of untouched packets are kept.
  have held := run.sound.refcount_pos (List.mem_append_left _ listed)
  obtain ⟨face, shown⟩ := Buffers.face?_of_refcount_pos held
  rw [shown]
  exact touches.faces run.fits other List.not_mem_nil face shown

/-- A packet that somebody holds looks the same after what touches none. -/
theorem Reachable.capture_touches (run : l.Reachable) (listed : other ∈ l.packets) {after : Buffers}
    (touches : l.buffers.Touches after []) : after.capture other = l.buffers.capture other :=
  touches.capture run.fits (run.sound.refcount_pos (List.mem_append_left _ listed))
    List.not_mem_nil

/-- A packet given back leaves a record of the others, with no more references than before. -/
theorem Reachable.given (run : l.Reachable) {before after : List Packet}
    (owned : (before ++ packet :: after).Subperm l.packets) :
    (l.call (.drop packet)).Reachable ∧
      (before ++ after).Subperm (l.call (.drop packet)).packets ∧
      ∀ other, (l.call (.drop packet)).references other ≤ l.references other := by
  -- The record loses the packet once, so no packet has more references than before.
  have listed : packet ∈ l.packets := owned.subset (by simp)
  have first : (packet :: (before ++ after)).Subperm l.packets :=
    List.perm_middle.symm.subperm.trans owned
  have rest := first.erase packet
  rw [List.erase_cons_head] at rest
  refine ⟨run.call (.drop packet) listed, rest, ?_⟩
  intro other
  have count : (l.call (.drop packet)).references other =
      (l.packets.erase packet ++ l.loose.map LooseHandle.packet).count other := rfl
  have fewer := (List.erase_sublist (l := l.packets) (a := packet)).count_le other
  rw [count, references, live, List.count_append, List.count_append]
  omega

/-- Packets given back together leave a record of the others. -/
theorem Reachable.givenAll (run : l.Reachable) {before packets after : List Packet}
    (owned : (before ++ (packets ++ after)).Subperm l.packets) :
    ∃ later : Ledger, later.Reachable ∧ later.buffers = l.buffers.releaseAll packets ∧
      (before ++ after).Subperm later.packets := by
  -- They are given back one after another.
  induction packets generalizing l with
  | nil => exact ⟨l, run, rfl, owned⟩
  | cons packet rest ih =>
    obtain ⟨given, left, -⟩ := run.given owned
    exact ih given left

end Ledger

/-- What is done with a packet, given by the packet, by what is remembered, and by the buffers: whether
it is let through, what is remembered from then on, and what is done to it. -/
abbrev Treatment (σ : Type) := Packet → σ → Buffers → Bool × σ × List Edit

/-- A processor that treats packets without looking at anything but packets, and never dies. -/
def Processor.Treats (process : Processor σ) (treat : Treatment σ) : Prop :=
  -- Where else it leaves traces does not matter.
  ∀ context packet memory (s : Surroundings),
    let decision := process context packet memory s
    let (through, after, edits) := treat packet memory s.buffers
    decision.verdict = (if through then .forward else .drop) ∧ decision.memory = after ∧
      decision.surroundings.buffers = s.buffers.performAll packet edits

end PacketPlane
