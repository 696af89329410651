import Mathlib.Data.List.Permutation
import PacketPlane.Proofs.Buffer.Generations

/-! Raw handles: as long as its own reference lives, a raw handle is as good as a packet, and from the
first release of its slot on it does nothing. -/

namespace PacketPlane

namespace Ledger

variable {l later : Ledger} {packet : Packet} {handle : LooseHandle}

/-- Every permitted call ages the buffers. -/
theorem Sound.call_ages (sound : l.Sound) {c : PoolCall} (permitted : l.Permits c) :
    l.buffers.Ages (l.call c).buffers := by
  -- By cases on the call: only giving back ages a slot, and every other call keeps the generations.
  have atRest : l.buffers.Balanced 0 [] := Buffers.balanced_nil.mpr sound.settled
  have same {after : Buffers} {gained : List Packet}
      (kept : ∀ packet, after.generation? packet = l.buffers.generation? packet)
      (traded : Buffers.Trades l.buffers after gained []) : l.buffers.Ages after :=
    Buffers.Ages.of_kept (fun packet _ marked => (kept packet).trans marked) traded.refcount_le
  cases c with
  | make name settings reserve =>
    simp only [Ledger.call]
    cases made : Pool.make name settings reserve with
    | error fault => exact Buffers.Ages.refl _
    | ok p =>
      obtain ⟨own, unused⟩ := Pool.balanced_make made
      obtain ⟨-, traded⟩ := Buffers.addPool_trades sound.settled own unused
      -- A new pool comes last, and no older packet is in it.
      exact Buffers.Ages.of_kept (fun _ _ => Buffers.generation?_addPool) traded.refcount_le
  | alloc pool =>
    simp only [Ledger.call]
    cases handed : l.buffers.alloc pool with
    | error fault => exact Buffers.Ages.refl _
    | ok outcome =>
      exact same (Buffers.generation?_alloc handed) (Buffers.alloc_trades atRest handed).2.2
  | allocBulk pool count =>
    simp only [Ledger.call]
    cases handed : l.buffers.allocBulk pool count with
    | error fault => exact Buffers.Ages.refl _
    | ok outcome =>
      exact same (Buffers.generation?_allocBulk handed)
        (Buffers.allocBulk_trades atRest handed).2.2.2
  | free pool packet =>
    exact Buffers.release_ages (sound.refcount_pos (List.mem_append_left _ permitted))
  | drop packet =>
    exact Buffers.release_ages (sound.refcount_pos (List.mem_append_left _ permitted))
  | freeBulk pool packets =>
    exact Buffers.Ages.of_dropRef (sound.owned permitted) (l.buffers.slot?_freeBulk pool packets)
  | clone packet =>
    obtain ⟨listed, small⟩ := permitted
    have held := sound.refcount_pos (List.mem_append_left _ listed)
    rw [← sound.counted] at small
    exact same (l.buffers.generation?_addRef packet) (Buffers.addRef_trades atRest held small).2
  | intoRaw packet => exact Buffers.Ages.refl _
  | ofRaw handle =>
    simp only [Ledger.call]
    cases l.buffers.ofRaw handle.pool handle.raw with
    | error fault => exact Buffers.Ages.refl _
    | ok packet => exact Buffers.Ages.refl _
  | freeRaw handle =>
    simp only [Ledger.call]
    cases freed : l.buffers.freeRaw handle.pool handle.raw with
    | error fault => exact Buffers.Ages.refl _
    | ok after =>
      obtain rfl := freeRaw_eq freed
      -- A handle that was accepted is not one that is refused, so the call was permitted for its
      -- packet.
      have listed := permitted.resolve_right (not_refuses_of_freeRaw freed)
      exact Buffers.release_ages
        (sound.refcount_pos (List.mem_append_right _ (List.mem_map_of_mem listed)))
  | edit packet edit =>
    have alike : l.buffers.Alike (l.buffers.perform packet edit) :=
      Buffers.perform_alike packet edit
    exact same alike.generation? (alike.trades atRest).2

/-- A call that puts a packet's slot on the free ring of its pool. -/
def Releases (l : Ledger) (c : PoolCall) (packet : Packet) : Prop :=
  ¬ l.buffers.Free packet ∧ (l.call c).buffers.Free packet

/-- A later ledger, with how many of the permitted calls in between released a packet's slot. -/
inductive Since (packet : Packet) (l : Ledger) : Ledger → Nat → Prop
  | start : Since packet l l 0
  | kept {later : Ledger} {count : Nat} (before : Since packet l later count) (c : PoolCall)
    (permitted : later.Permits c) (kept : ¬ later.Releases c packet) :
    Since packet l (later.call c) count
  | released {later : Ledger} {count : Nat} (before : Since packet l later count) (c : PoolCall)
    (permitted : later.Permits c) (released : later.Releases c packet) :
    Since packet l (later.call c) (count + 1)

/-- A slot's generation counts its releases, one by one. -/
theorem Since.generation? (since : l.Since packet later count) (run : l.Reachable)
    {generation : UInt32} (marked : l.buffers.generation? packet = some generation) :
    later.Reachable ∧
      later.buffers.generation? packet = some (generation + UInt32.ofNat count) := by
  -- Each call marks the slot exactly when it releases it.
  have step : ∀ {middle : Ledger} {c : PoolCall} {before : UInt32}, middle.Reachable →
      middle.Permits c → middle.buffers.generation? packet = some before →
      ((middle.Releases c packet → (middle.call c).buffers.generation? packet = some (before + 1)) ∧
        (¬ middle.Releases c packet →
          (middle.call c).buffers.generation? packet = some before)) := by
    intro middle c before reached permitted here
    have aged := reached.sound.call_ages permitted packet before here
    have first := reached.sound.settled.free_iff here
    have second := (reached.sound.call permitted).settled.free_iff aged
    rw [Releases, first, second, ← ne_eq, ← Nat.pos_iff_ne_zero]
    constructor
    · intro released
      rwa [if_pos released] at aged
    · intro kept
      rwa [if_neg kept] at aged
  induction since with
  | start => exact ⟨run, by simpa using marked⟩
  | kept before c permitted kept ih =>
    obtain ⟨reached, here⟩ := ih
    exact ⟨reached.call c permitted, (step reached permitted here).2 kept⟩
  | released before c permitted released ih =>
    obtain ⟨reached, here⟩ := ih
    refine ⟨reached.call c permitted, ?_⟩
    rw [(step reached permitted here).1 released, UInt32.ofNat_add, ← UInt32.add_assoc]
    rfl

/-- A raw handle that is as good as the packet it was made of: it is redeemed with nothing else
changed, and freed just as the packet redeemed would be dropped. -/
structure Redeems (l : Ledger) (handle : LooseHandle) : Prop where
  redeemed : l.buffers.ofRaw handle.pool handle.raw = .ok handle.packet
  freed : l.buffers.freeRaw handle.pool handle.raw = .ok (l.buffers.release handle.packet)
  moved : l.call (.ofRaw handle) =
    { l with packets := handle.packet :: l.packets, loose := l.loose.erase handle }
  dropped : l.call (.freeRaw handle) = (l.call (.ofRaw handle)).call (.drop handle.packet)

/-- A raw handle that is refused as not acceptable, with nothing changed by either attempt. -/
structure Rejects (l : Ledger) (handle : LooseHandle) (reason : HandleFault) : Prop where
  redeemed : l.buffers.ofRaw handle.pool handle.raw = .error (.invalidHandle handle.raw.index reason)
  freed : l.buffers.freeRaw handle.pool handle.raw =
    .error (.invalidHandle handle.raw.index reason)
  kept : l.call (.ofRaw handle) = l
  same : l.call (.freeRaw handle) = l

/-- A raw handle that its pool accepts is as good as a packet. -/
theorem redeems_of_accepted {p : Pool} (found : l.buffers.pools[handle.pool]? = some p)
    (accepted : p.checkRaw handle.raw = .ok ()) : l.Redeems handle := by
  -- Redeeming and freeing make the same check, which is passed.
  have redeemed : l.buffers.ofRaw handle.pool handle.raw = .ok handle.packet := by
    simp only [Buffers.ofRaw, found, accepted]
    rfl
  obtain ⟨after, freed⟩ : ∃ after, l.buffers.freeRaw handle.pool handle.raw = .ok after := by
    simp [Buffers.freeRaw, Buffers.tryPool, found, Pool.freeRaw, accepted, Except.map]
  obtain rfl := freeRaw_eq freed
  exact ⟨redeemed, freed, by simp only [call, redeemed], by simp [call, redeemed, freed]⟩

/-- A raw handle that its pool does not accept is refused without effect. -/
theorem rejects_of_refused {p : Pool} {reason : HandleFault}
    (found : l.buffers.pools[handle.pool]? = some p)
    (refused : p.checkRaw handle.raw = .error (.invalidHandle handle.raw.index reason)) :
    l.Rejects handle reason := by
  -- Redeeming and freeing make the same check, whose answer is the one of the call.
  have redeemed : l.buffers.ofRaw handle.pool handle.raw =
      .error (.invalidHandle handle.raw.index reason) := by
    simp only [Buffers.ofRaw, found, refused]
  have freed : l.buffers.freeRaw handle.pool handle.raw =
      .error (.invalidHandle handle.raw.index reason) := by
    simp [Buffers.freeRaw, Buffers.tryPool, found, Pool.freeRaw, refused, Except.map]
  exact ⟨redeemed, freed, by simp only [call, redeemed], by simp only [call, freed]⟩

/-- A packet that is turned into a raw handle and anything permitted later on: as long as the reference
that the handle carries has not been given back, the handle is as good as the packet. Once the slot
has been released, and fewer than 2^32 times, the handle is stale and does nothing. And a handle of
any pool whose index is out of range or names a free slot is refused and does nothing. -/
theorem raw_handle_good_until_released (run : l.Reachable) (listed : packet ∈ l.packets)
    (since : (l.call (.intoRaw packet)).Since packet later count) :
    let handle : LooseHandle := ⟨packet.pool, l.buffers.toRaw packet⟩
    handle.packet = packet ∧ (handle ∈ later.loose → later.Redeems handle) ∧
      (0 < count → count < UInt32.size → later.Rejects handle .stale) ∧
      ∀ (k : Nat) (p : Pool) (raw : RawHandle), later.buffers.pools[k]? = some p →
        p.capacity ≤ raw.index ∨ raw.index ∈ p.free.toList →
        ∃ reason, later.Rejects ⟨k, raw⟩ reason := by
  intro handle
  -- A listed packet is held, so it has a slot, whose generation marks the handle.
  have held := run.sound.refcount_pos (List.mem_append_left _ listed)
  obtain ⟨s, found⟩ : ∃ s, l.buffers.slot? packet = some s := by
    cases found : l.buffers.slot? packet with
    | none => simp [Buffers.refcount, found] at held
    | some s => exact ⟨s, rfl⟩
  have made : handle = ⟨packet.pool, packet.index, s.generation⟩ := by
    simp only [handle, Buffers.toRaw, found]
  have marked : (l.call (.intoRaw packet)).buffers.generation? packet = some s.generation := by
    show l.buffers.generation? packet = some s.generation
    rw [Buffers.generation?, found, Option.map_some]
  obtain ⟨reached, now⟩ := since.generation? (run.call (.intoRaw packet) listed) marked
  refine ⟨by rw [made]; rfl, ?_, ?_, ?_⟩
  · intro carried
    -- Whatever handle is still carried, the pool accepts it.
    obtain ⟨p, there, accepted⟩ := reached.sound.checkRaw_ok carried
    exact redeems_of_accepted there accepted
  · intro once few
    have few : count < 2 ^ 32 := few
    rw [Buffers.generation?_eq, Option.bind_eq_some_iff] at now
    obtain ⟨p, there, now⟩ := now
    rw [made]
    refine rejects_of_refused there (Pool.checkRaw_stale now ?_)
    -- Fewer than 2^32 releases do not bring a generation back.
    intro back
    have moved : s.generation.toNat + count = s.generation.toNat ∨
        s.generation.toNat + count = s.generation.toNat + 2 ^ 32 := by
      have same := congrArg UInt32.toNat back
      have small := s.generation.toNat_lt
      rw [UInt32.toNat_add, UInt32.toNat_ofNat_of_lt' few] at same
      simp only at same
      omega
    omega
  · intro k p raw there bad
    -- An index past the end has no count, and the free list holds the others without one.
    have unheld : p.refcount raw.index = 0 := by
      rcases bad with outside | free
      · rw [Pool.refcount, Array.getElem?_eq_none outside]
        rfl
      · obtain ⟨listed, own⟩ := reached.sound.settled k p there
        rw [own.listed.toList_eq, ← List.append_nil listed] at free
        exact ((own.unheld raw.index).mp free).2
    obtain ⟨reason, refused⟩ := p.checkRaw_unheld raw unheld
    have rejected : later.Rejects (⟨k, raw⟩ : LooseHandle) reason := rejects_of_refused there refused
    exact ⟨reason, rejected⟩

/-- The only buffer of a pool. -/
def sole : Packet := ⟨0, 0⟩

/-- A pool of one buffer, which has been handed out. -/
def soleHanded : Ledger :=
  -- Memory without end is granted.
  (({} : Ledger).call (.make "sole" { capacity := 1 } fun size node => .ok { size, node })).call
    (.alloc 0)

/-- The raw handle that its packet turns into. -/
def soleHandle : LooseHandle := ⟨0, soleHanded.buffers.toRaw sole⟩

/-- The pool once the packet has been turned into its raw handle. -/
def soleLoose : Ledger := soleHanded.call (.intoRaw sole)

/-- The pool once the raw handle has been freed. -/
def soleFreed : Ledger := soleLoose.call (.freeRaw soleHandle)

/-- The raw handle of a pool's only buffer is as good as the packet, until it is freed: then it is
stale, although the buffer has been handed out again. -/
theorem raw_handle_good_until_reused :
    soleHanded.Reachable ∧ sole ∈ soleHanded.packets ∧ soleLoose.Redeems soleHandle ∧
      soleLoose.Since sole (soleFreed.call (.alloc 0)) 1 ∧
      (soleFreed.call (.alloc 0)).references sole = 1 ∧
      (soleFreed.call (.alloc 0)).Rejects soleHandle .stale := by
  -- Freeing the handle releases the buffer once, and handing it out again releases nothing.
  have run : soleHanded.Reachable := (Reachable.start.call (.make ..) trivial).call (.alloc 0) trivial
  have packets : soleHanded.packets = [sole] := by cbv
  have listed : sole ∈ soleHanded.packets := by
    rw [packets]
    exact List.mem_cons_self
  obtain ⟨-, good, -⟩ := raw_handle_good_until_released run listed .start
  have reached : soleLoose.Reachable := run.call (.intoRaw sole) listed
  have permitted : soleLoose.Permits (.freeRaw soleHandle) := .inl List.mem_cons_self
  have before : soleLoose.buffers.Free sole ↔ soleLoose.buffers.refcount sole = 0 :=
    reached.sound.settled.free_iff (by cbv : soleLoose.buffers.generation? sole = some 0)
  have after : soleFreed.buffers.Free sole ↔ soleFreed.buffers.refcount sole = 0 :=
    (reached.call _ permitted).sound.settled.free_iff
      (by cbv : soleFreed.buffers.generation? sole = some 1)
  have one : soleLoose.buffers.refcount sole = 1 := by cbv
  have none : soleFreed.buffers.refcount sole = 0 := by cbv
  have released : soleLoose.Releases (.freeRaw soleHandle) sole := by
    refine ⟨?_, after.mpr none⟩
    rw [before, one]
    exact Nat.one_ne_zero
  have since : soleLoose.Since sole (soleFreed.call (.alloc 0)) 1 :=
    .kept (.released .start _ permitted released) (.alloc 0) trivial fun again =>
      again.1 (after.mpr none)
  obtain ⟨-, -, stale, -⟩ := raw_handle_good_until_released run listed since
  exact ⟨run, listed, good List.mem_cons_self, since, by cbv, stale Nat.one_pos (by decide)⟩

end Ledger

end PacketPlane
