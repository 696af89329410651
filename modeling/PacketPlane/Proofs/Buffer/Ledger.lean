import PacketPlane.Proofs.Buffer.Edit

/-! Ledgers: every live reference to a buffer on record, and kept in step with the pools by every
call. -/

namespace PacketPlane

/-- A reference outside any packet handle: a raw handle, with the pool it was made on. -/
structure LooseHandle where
  pool : Nat
  raw : RawHandle
deriving DecidableEq, Repr

/-- The packet that a raw handle carries a reference of. -/
def LooseHandle.packet (h : LooseHandle) : Packet :=
  ⟨h.pool, h.raw.index⟩

/-- The buffers of a data plane, with the packets and the unredeemed raw handles that somebody
holds. A packet is listed once for each reference. -/
structure Ledger where
  buffers : Buffers := {}
  packets : List Packet := []
  loose : List LooseHandle := []

/-- One call on pools or packets. -/
inductive PoolCall where
  | make (name : String) (settings : PoolSettings)
      (reserve : Nat → Option UInt32 → Except Fault Region)
  | alloc (pool : Nat)
  | allocBulk (pool count : Nat)
  | free (pool : Nat) (packet : Packet)
  | freeBulk (pool : Nat) (packets : List Packet)
  | clone (packet : Packet)
  | drop (packet : Packet)
  | intoRaw (packet : Packet)
  | ofRaw (handle : LooseHandle)
  | freeRaw (handle : LooseHandle)
  | edit (packet : Packet) (edit : Edit)

/-- A raw handle that its pool refuses to redeem. -/
def Buffers.Refuses (b : Buffers) (handle : LooseHandle) : Prop :=
  -- A pool that does not exist redeems nothing.
  ∀ p, b.pools[handle.pool]? = some p → p.checkRaw handle.raw ≠ .ok ()

open scoped List

/-- A list with one entry replaced flattens to the same but for what that entry gives. -/
theorem flatMap_set_perm {α β : Type} (f : α → List β) {l : List α} {k : Nat} {old : α}
    (found : l[k]? = some old) (new : α) :
    ((l.set k new).flatMap f ++ f old).Perm (l.flatMap f ++ f new) := by
  -- By induction on the list: the entry is the first, where both sides give it up, or is further
  -- back.
  induction l generalizing k with
  | nil => simp at found
  | cons first rest ih =>
    cases k with
    | zero =>
      simp only [List.getElem?_cons_zero, Option.some.injEq] at found
      subst found
      simp only [List.set_cons_zero, List.flatMap_cons]
      calc f new ++ rest.flatMap f ++ f first
          ~ f first ++ (f new ++ rest.flatMap f) := List.perm_append_comm
        _ ~ f first ++ (rest.flatMap f ++ f new) := List.perm_append_comm.append_left _
        _ = f first ++ rest.flatMap f ++ f new := (List.append_assoc ..).symm
    | succ k =>
      simp only [List.set_cons_succ, List.flatMap_cons, List.append_assoc]
      exact (ih (by simpa using found)).append_left _

namespace Ledger

/-- Every live reference, as the packet it refers to. -/
def live (l : Ledger) : List Packet :=
  -- Packet handles come before raw ones.
  l.packets ++ l.loose.map LooseHandle.packet

/-- How many live references a slot has. -/
def references (l : Ledger) (packet : Packet) : Nat :=
  l.live.count packet

/-- What a caller may do: it gives away only what it holds, shares a slot fewer than 2^32 times, and
redeems only raw handles that are on record or refused. -/
def Permits (l : Ledger) : PoolCall → Prop
  | .make .. | .alloc _ | .allocBulk .. => True
  | .free _ packet | .drop packet | .intoRaw packet | .edit packet _ => packet ∈ l.packets
  | .freeBulk _ packets => packets.Subperm l.packets
  | .clone packet => packet ∈ l.packets ∧ l.references packet + 1 < UInt32.size
  | .ofRaw handle | .freeRaw handle => handle ∈ l.loose ∨ l.buffers.Refuses handle

/-- The ledger after a call. -/
def call (l : Ledger) : PoolCall → Ledger
  -- A call that fails leaves the record as it was, except that a foreign packet is given back.
  | .make name settings reserve =>
    match Pool.make name settings reserve with
    | .error _ => l
    | .ok pool => { l with buffers := (l.buffers.addPool pool).2 }
  | .alloc pool =>
    match l.buffers.alloc pool with
    | .error _ => l
    | .ok (packet, buffers) => { l with buffers, packets := packet :: l.packets }
  | .allocBulk pool count =>
    match l.buffers.allocBulk pool count with
    | .error _ => l
    | .ok (packets, buffers) => { l with buffers, packets := packets ++ l.packets }
  | .free pool packet =>
    { l with buffers := (l.buffers.free pool packet).2, packets := l.packets.erase packet }
  | .freeBulk pool packets =>
    { l with buffers := (l.buffers.freeBulk pool packets).2, packets := l.packets.diff packets }
  | .clone packet => { l with buffers := l.buffers.addRef packet, packets := packet :: l.packets }
  | .drop packet =>
    { l with buffers := l.buffers.release packet, packets := l.packets.erase packet }
  | .intoRaw packet =>
    { l with packets := l.packets.erase packet,
             loose := ⟨packet.pool, l.buffers.toRaw packet⟩ :: l.loose }
  | .ofRaw handle =>
    match l.buffers.ofRaw handle.pool handle.raw with
    | .error _ => l
    | .ok packet => { l with packets := packet :: l.packets, loose := l.loose.erase handle }
  | .freeRaw handle =>
    match l.buffers.freeRaw handle.pool handle.raw with
    | .error _ => l
    | .ok buffers => { l with buffers, loose := l.loose.erase handle }
  | .edit packet edit => { l with buffers := l.buffers.perform packet edit }

/-- A ledger that permitted calls lead to, starting without any pool. -/
inductive Reachable : Ledger → Prop
  | start : Reachable {}
  | call {l : Ledger} (run : Reachable l) (c : PoolCall) (permitted : l.Permits c) :
    Reachable (l.call c)

/-- A ledger that agrees with its pools: all are at rest, every slot counts its references, and no
slot was released since a raw handle on record was made. -/
structure Sound (l : Ledger) : Prop where
  settled : l.buffers.Settled
  counted : ∀ packet, l.buffers.refcount packet = l.references packet
  valid : ∀ handle ∈ l.loose, l.buffers.generation? handle.packet = some handle.raw.generation

/-- A record from before the first pool agrees with the pools. -/
theorem sound_start : Sound {} := by
  -- Without pools nothing is held, and nothing is listed either.
  refine ⟨?_, ?_, ?_⟩
  · intro k p found
    simp at found
  · intro packet
    rw [Buffers.refcount_eq]
    simp [references, live]
  · intro handle listed
    cases listed

namespace Sound

variable {l : Ledger}

/-- A record stays in step when it lists what the pools gained and drops what they lost. -/
theorem step (sound : l.Sound) {after : Ledger} {gained lost : List Packet}
    (settled : after.buffers.Settled) (traded : Buffers.Trades l.buffers after.buffers gained lost)
    (live : (after.live ++ lost).Perm (l.live ++ gained))
    (loose : ∀ handle ∈ after.loose, handle ∈ l.loose ∨
      after.buffers.generation? handle.packet = some handle.raw.generation) : after.Sound := by
  -- References and listed packets change by the same gains and losses, so they still agree.
  have counted : ∀ packet, after.buffers.refcount packet = after.references packet := by
    intro packet
    have trade := traded.counted packet
    have record := live.count_eq packet
    rw [List.count_append, List.count_append] at record
    have before := sound.counted packet
    simp only [references] at before ⊢
    omega
  refine ⟨settled, counted, ?_⟩
  intro handle listed
  rcases loose handle listed with older | valid
  · -- The handle itself keeps its slot from being released.
    have held : 0 < after.buffers.refcount handle.packet := by
      rw [counted, references, List.count_pos_iff]
      exact List.mem_append_right _ (List.mem_map_of_mem listed)
    rw [traded.kept _ held]
    exact sound.valid handle older
  · exact valid

/-- A record stays in step when references only change the handles that carry them. -/
theorem carry (sound : l.Sound) {after : Ledger} (same : after.buffers = l.buffers)
    (live : after.live.Perm l.live)
    (loose : ∀ handle ∈ after.loose, handle ∈ l.loose ∨
      l.buffers.generation? handle.packet = some handle.raw.generation) : after.Sound := by
  -- Nothing is gained or lost, which is a step from the buffers to themselves.
  have traded : Buffers.Trades l.buffers after.buffers [] [] := same ▸ Buffers.Trades.refl _
  apply sound.step (same ▸ sound.settled) traded
  · simpa using live
  · rw [same]
    exact loose

/-- A packet on record is held. -/
theorem refcount_pos (sound : l.Sound) {packet : Packet} (listed : packet ∈ l.live) :
    0 < l.buffers.refcount packet := by
  -- The buffers count as many references as the record lists.
  rw [sound.counted, references, List.count_pos_iff]
  exact listed

/-- Packets on record are held at least as often as they are listed. -/
theorem owned (sound : l.Sound) {packets : List Packet} (owns : packets.Subperm l.packets)
    (packet : Packet) : packets.count packet ≤ l.buffers.refcount packet := by
  -- The record also lists what raw handles carry, so the packets are at most what is counted.
  rw [sound.counted, references, live, List.count_append]
  exact Nat.le_add_right_of_le (owns.count_le packet)

/-- A raw handle on record is accepted. -/
theorem checkRaw_ok (sound : l.Sound) {handle : LooseHandle} (listed : handle ∈ l.loose) :
    ∃ p, l.buffers.pools[handle.pool]? = some p ∧ p.checkRaw handle.raw = .ok () := by
  -- Its slot is held, and was not released since the handle was made.
  have held := sound.refcount_pos
    (List.mem_append_right l.packets (List.mem_map_of_mem (f := LooseHandle.packet) listed))
  obtain ⟨p, found, count⟩ := Buffers.pool_of_refcount_pos held
  rw [← count] at held
  obtain ⟨s, here, same⟩ := Pool.exists_of_refcount_pos held
  have valid := sound.valid handle listed
  rw [Buffers.generation?_eq, found, Option.bind_some, Pool.generation?, here, Option.map_some,
    Option.some.injEq] at valid
  refine ⟨p, found, ?_⟩
  have nonzero : s.refcount ≠ 0 := by
    intro zero
    rw [zero] at same
    simp only [UInt32.toNat_zero] at same
    omega
  have here : p.slots[handle.raw.index]? = some s := here
  rw [Pool.checkRaw]
  simp [here, valid, nonzero]

end Sound

/-- A packet taken off a list that has it is one entry fewer. -/
theorem erase_append_perm {packets : List Packet} {packet : Packet} (listed : packet ∈ packets)
    (rest : List Packet) : (packets.erase packet ++ rest ++ [packet]).Perm (packets ++ rest) := by
  -- The packet that is taken off comes back at the end of the list.
  have split : packets.Perm (packet :: packets.erase packet) := List.perm_cons_erase listed
  calc packets.erase packet ++ rest ++ [packet]
      ~ [packet] ++ (packets.erase packet ++ rest) := List.perm_append_comm
    _ = packet :: packets.erase packet ++ rest := rfl
    _ ~ packets ++ rest := split.symm.append_right rest

/-- A raw handle taken off a list that has it is one reference fewer. -/
theorem erase_loose_perm {loose : List LooseHandle} {handle : LooseHandle}
    (listed : handle ∈ loose) :
    ((loose.erase handle).map LooseHandle.packet ++ [handle.packet]).Perm
      (loose.map LooseHandle.packet) := by
  -- The handle that is taken off comes back as its packet at the end of the list.
  have split : loose.Perm (handle :: loose.erase handle) := List.perm_cons_erase listed
  calc (loose.erase handle).map LooseHandle.packet ++ [handle.packet]
      ~ [handle.packet] ++ (loose.erase handle).map LooseHandle.packet := List.perm_append_comm
    _ = (handle :: loose.erase handle).map LooseHandle.packet := rfl
    _ ~ loose.map LooseHandle.packet := split.symm.map _

/-- Releasing a raw handle that is accepted is giving its packet back. -/
theorem freeRaw_eq {b after : Buffers} {handle : LooseHandle}
    (freed : b.freeRaw handle.pool handle.raw = .ok after) : after = b.release handle.packet := by
  -- By cases on what can refuse the handle: a pool that is missing, or the check of the handle.
  cases found : b.pools[handle.pool]? with
  | none => simp [Buffers.freeRaw, Buffers.tryPool, found] at freed
  | some p =>
    cases checked : p.checkRaw handle.raw with
    | error fault =>
      simp [Buffers.freeRaw, Buffers.tryPool, found, Pool.freeRaw, checked, Except.map] at freed
    | ok =>
      simp only [Buffers.freeRaw, Buffers.tryPool, found, Pool.freeRaw, checked, Except.map,
        Except.ok.injEq] at freed
      have here : b.pools[handle.packet.pool]? = some p := found
      rw [← freed, Buffers.release, Buffers.modifyPool_eq here]
      rfl

/-- Redeeming a raw handle that is accepted gives its packet. -/
theorem ofRaw_eq {b : Buffers} {handle : LooseHandle} {packet : Packet}
    (redeemed : b.ofRaw handle.pool handle.raw = .ok packet) :
    packet = handle.packet ∧ ¬ b.Refuses handle := by
  -- Both ways to fail are excluded, and then the handle passed the check of its pool.
  rw [Buffers.ofRaw] at redeemed
  split at redeemed
  · cases redeemed
  · rename_i p found
    split at redeemed
    · cases redeemed
    · rename_i checked
      cases redeemed
      exact ⟨rfl, fun refuses => refuses p found checked⟩

/-- Releasing succeeds only for a raw handle that its pool does not refuse. -/
theorem not_refuses_of_freeRaw {b after : Buffers} {handle : LooseHandle}
    (freed : b.freeRaw handle.pool handle.raw = .ok after) : ¬ b.Refuses handle := by
  -- By cases on what can refuse the handle: a pool that is missing, or the check of the handle.
  intro refuses
  cases found : b.pools[handle.pool]? with
  | none => simp [Buffers.freeRaw, Buffers.tryPool, found] at freed
  | some p =>
    cases checked : p.checkRaw handle.raw with
    | error fault =>
      simp [Buffers.freeRaw, Buffers.tryPool, found, Pool.freeRaw, checked, Except.map] at freed
    | ok => exact refuses p found checked

namespace Sound

variable {l : Ledger}

/-- Giving one packet back keeps the record in step. -/
theorem drop (sound : l.Sound) {packet : Packet} (listed : packet ∈ l.packets) :
    (l.call (.drop packet)).Sound := by
  -- The buffers lose the one reference that the record gives up.
  have held := sound.refcount_pos (List.mem_append_left _ listed)
  have atRest : l.buffers.Balanced 0 [] := Buffers.balanced_nil.mpr sound.settled
  obtain ⟨balanced, traded⟩ := Buffers.release_trades atRest held
  apply sound.step (Buffers.balanced_nil.mp balanced) traded
  · rw [List.append_nil]
    exact erase_append_perm listed _
  · intro handle older
    exact .inl older

/-- Packets given back all at once leave the record. -/
theorem freeBulk (sound : l.Sound) {pool : Nat} {packets : List Packet}
    (permitted : l.Permits (.freeBulk pool packets)) :
    (l.call (.freeBulk pool packets)).Sound := by
  -- The buffers lose exactly the packets given back, which the record listed.
  obtain ⟨settled, traded⟩ := Buffers.freeBulk_trades pool sound.settled (sound.owned permitted)
  apply sound.step settled traded
  · have split : (packets ++ l.packets.diff packets).Perm l.packets :=
      List.subperm_append_diff_self_of_count_le fun packet _ => permitted.count_le packet
    rw [List.append_nil]
    calc l.packets.diff packets ++ l.loose.map LooseHandle.packet ++ packets
        ~ packets ++ (l.packets.diff packets ++ l.loose.map LooseHandle.packet) :=
          List.perm_append_comm
      _ = packets ++ l.packets.diff packets ++ l.loose.map LooseHandle.packet :=
          (List.append_assoc ..).symm
      _ ~ l.packets ++ l.loose.map LooseHandle.packet := split.append_right _
  · intro handle older
    exact .inl older

/-- A packet that is turned into a raw handle only changes the handle that carries it. -/
theorem intoRaw (sound : l.Sound) {packet : Packet} (permitted : packet ∈ l.packets) :
    (l.call (.intoRaw packet)).Sound := by
  -- The packet moves from one list to the other, and its handle carries the generation it has now.
  have held := sound.refcount_pos (List.mem_append_left _ permitted)
  refine sound.carry ?_ ?_ ?_
  · rfl
  · have carried : (⟨packet.pool, l.buffers.toRaw packet⟩ : LooseHandle).packet = packet := by
      rw [LooseHandle.packet, Buffers.toRaw]
      cases l.buffers.slot? packet <;> rfl
    simp only [live, Ledger.call, List.map_cons, carried]
    calc l.packets.erase packet ++ packet :: l.loose.map LooseHandle.packet
        ~ packet :: (l.packets.erase packet ++ l.loose.map LooseHandle.packet) :=
          List.perm_middle
      _ ~ l.packets.erase packet ++ l.loose.map LooseHandle.packet ++ [packet] :=
          (List.perm_append_singleton packet _).symm
      _ ~ l.packets ++ l.loose.map LooseHandle.packet := erase_append_perm permitted _
  · intro handle listed
    rcases List.mem_cons.mp listed with rfl | older
    · right
      rw [LooseHandle.packet, Buffers.generation?, Buffers.toRaw]
      cases found : l.buffers.slot? packet with
      | none => simp [Buffers.refcount, found] at held
      | some s => simp [found]
    · exact .inl older

/-- A raw handle that is redeemed gives its packet back to the record. -/
theorem ofRaw (sound : l.Sound) {handle : LooseHandle} (permitted : l.Permits (.ofRaw handle)) :
    (l.call (.ofRaw handle)).Sound := by
  -- A handle that is redeemed is listed, since a call with a refused one gives no packet.
  simp only [Ledger.call]
  cases redeemed : l.buffers.ofRaw handle.pool handle.raw with
  | error fault => exact sound
  | ok packet =>
    obtain ⟨rfl, accepted⟩ := ofRaw_eq redeemed
    have listed := permitted.resolve_right accepted
    refine sound.carry ?_ ?_ ?_
    · rfl
    · have moved := (erase_loose_perm listed).append_left l.packets
      refine List.Perm.trans ?_ moved
      rw [← List.append_assoc]
      exact (List.perm_append_singleton handle.packet _).symm
    · intro other older
      exact .inl (List.mem_of_mem_erase older)

/-- A raw handle that is freed gives its reference back. -/
theorem freeRaw (sound : l.Sound) {handle : LooseHandle} (permitted : l.Permits (.freeRaw handle)) :
    (l.call (.freeRaw handle)).Sound := by
  -- A handle that is accepted stands for its packet, which is then released like any other.
  have balanced : l.buffers.Balanced 0 [] := Buffers.balanced_nil.mpr sound.settled
  simp only [Ledger.call]
  cases freed : l.buffers.freeRaw handle.pool handle.raw with
  | error fault => exact sound
  | ok after =>
    obtain rfl := freeRaw_eq freed
    have listed := permitted.resolve_right (not_refuses_of_freeRaw freed)
    have held := sound.refcount_pos
      (List.mem_append_right l.packets (List.mem_map_of_mem (f := LooseHandle.packet) listed))
    obtain ⟨after, traded⟩ := Buffers.release_trades balanced held
    apply sound.step (Buffers.balanced_nil.mp after) traded
    · rw [List.append_nil, live, List.append_assoc]
      exact (erase_loose_perm listed).append_left l.packets
    · intro other older
      exact .inl (List.mem_of_mem_erase older)

/-- Every permitted call keeps the record in step. -/
theorem call (sound : l.Sound) {c : PoolCall} (permitted : l.Permits c) : (l.call c).Sound := by
  -- By cases on the call: each either fails and changes nothing, or trades what it records.
  have balanced : l.buffers.Balanced 0 [] := Buffers.balanced_nil.mpr sound.settled
  cases c with
  | make name settings reserve =>
    simp only [Ledger.call]
    cases made : Pool.make name settings reserve with
    | error fault => exact sound
    | ok p =>
      obtain ⟨own, unused⟩ := Pool.balanced_make made
      obtain ⟨settled, traded⟩ := Buffers.addPool_trades sound.settled own unused
      exact sound.step settled traded (List.Perm.refl _) fun handle older => .inl older
  | alloc pool =>
    simp only [Ledger.call]
    cases handed : l.buffers.alloc pool with
    | error fault => exact sound
    | ok outcome =>
      obtain ⟨-, after, traded⟩ := Buffers.alloc_trades balanced handed
      -- The packet handed out joins those on record.
      apply sound.step (Buffers.balanced_nil.mp after) traded
      · rw [List.append_nil]
        exact (List.perm_append_singleton outcome.1 _).symm
      · intro handle older
        exact .inl older
  | allocBulk pool count =>
    simp only [Ledger.call]
    cases handed : l.buffers.allocBulk pool count with
    | error fault => exact sound
    | ok outcome =>
      obtain ⟨-, -, after, traded⟩ := Buffers.allocBulk_trades balanced handed
      apply sound.step (Buffers.balanced_nil.mp after) traded
      · rw [List.append_nil, live, List.append_assoc]
        exact List.perm_append_comm
      · intro handle older
        exact .inl older
  | free pool packet => exact sound.drop permitted
  | drop packet => exact sound.drop permitted
  | freeBulk pool packets => exact sound.freeBulk permitted
  | clone packet =>
    -- A packet on record is held, and its count has room for one more.
    obtain ⟨listed, small⟩ := permitted
    have held := sound.refcount_pos (List.mem_append_left _ listed)
    rw [← sound.counted] at small
    obtain ⟨after, traded⟩ := Buffers.addRef_trades balanced held small
    apply sound.step (Buffers.balanced_nil.mp after) traded
    · rw [List.append_nil]
      exact (List.perm_append_singleton packet _).symm
    · intro handle older
      exact .inl older
  | intoRaw packet => exact sound.intoRaw permitted
  | ofRaw handle => exact sound.ofRaw permitted
  | freeRaw handle => exact sound.freeRaw permitted
  | edit packet edit =>
    obtain ⟨after, traded⟩ := (Buffers.perform_alike packet edit).trades balanced
    exact sound.step (Buffers.balanced_nil.mp after) traded (List.Perm.refl _)
      fun handle older => .inl older

end Sound

namespace Sound

variable {l : Ledger}

/-- The order in which a record lists packets does not matter. -/
theorem reorder (sound : l.Sound) {packets : List Packet} (same : packets.Perm l.packets) :
    ({ l with packets } : Ledger).Sound :=
  -- The buffers stay, and counting does not look at the order.
  sound.carry rfl (same.append_right _) fun _ older => .inl older

/-- Packets given back one after another leave the record. -/
theorem releaseAll {b : Buffers} {packets rest : List Packet} {loose : List LooseHandle}
    (sound : ({ buffers := b, packets := packets ++ rest, loose } : Ledger).Sound) :
    ({ buffers := b.releaseAll packets, packets := rest, loose } : Ledger).Sound := by
  -- By induction on the packets, each of which is listed first when its turn comes.
  induction packets generalizing b with
  | nil => exact sound
  | cons packet others ih =>
    have listed : packet ∈ packet :: others ++ rest := List.mem_cons_self
    have first := sound.drop listed
    simp only [Ledger.call, List.cons_append, List.erase_cons_head] at first
    exact ih first

end Sound

/-- Packets that are listed are taken off a longer list where they are listed first. -/
theorem diff_append {packets taken : List Packet} (owns : taken.Subperm packets)
    (others : List Packet) : (packets ++ others).diff taken = packets.diff taken ++ others := by
  -- By induction on what is taken, since each packet is found before the others are reached.
  induction taken generalizing packets with
  | nil => rfl
  | cons packet rest ih =>
    have listed : packet ∈ packets := owns.subset List.mem_cons_self
    have fewer : rest.Subperm (packets.erase packet) := by
      have erased := owns.erase packet
      rwa [List.erase_cons_head] at erased
    rw [List.diff_cons, List.diff_cons, List.erase_append_left _ listed, ih fewer]

/-- A call does the same when others hold packets too, and leaves them theirs. -/
theorem call_beside {l : Ledger} {c : PoolCall} (permitted : l.Permits c) (others : List Packet) :
    ({ l with packets := l.packets ++ others } : Ledger).call c =
      { l.call c with packets := (l.call c).packets ++ others } := by
  -- By cases on the call: what it does to the buffers does not depend on the packets listed.
  cases c with
  | make name settings reserve =>
    simp only [call]
    cases Pool.make name settings reserve <;> rfl
  | alloc pool =>
    simp only [call]
    cases l.buffers.alloc pool <;> rfl
  | allocBulk pool count =>
    simp only [call]
    cases l.buffers.allocBulk pool count with
    | error fault => rfl
    | ok outcome => simp
  | free pool packet => simp only [call, List.erase_append_left _ permitted]
  | freeBulk pool packets => simp only [call, diff_append permitted]
  | clone packet => rfl
  | drop packet => simp only [call, List.erase_append_left _ permitted]
  | intoRaw packet => simp only [call, List.erase_append_left _ permitted]
  | ofRaw handle =>
    simp only [call]
    cases l.buffers.ofRaw handle.pool handle.raw <;> rfl
  | freeRaw handle =>
    simp only [call]
    cases l.buffers.freeRaw handle.pool handle.raw <;> rfl
  | edit packet edit => rfl

/-- Whatever permitted calls were made, the record agrees with the pools. -/
theorem Reachable.sound {l : Ledger} (run : l.Reachable) : l.Sound := by
  -- The record starts in step, and every call keeps it so.
  induction run with
  | start => exact sound_start
  | call run c permitted ih => exact ih.call permitted

end Ledger

end PacketPlane
