import PacketPlane.Proofs.Device.Traffic

/-! Accounting of traffic: whatever calls were made, the counters and the errors of every network port
balance its books. -/

namespace PacketPlane

open scoped List

/-- A device that was made has nothing on any ring, and has nothing to account for. -/
theorem Device.idle_make {pool : Nat} {settings : DeviceSettings} {d : Device}
    (made : Device.make pool settings = .ok d) :
    ∀ nic ∈ d.nics, nic.AtRest ∧ nic.waiting = [] ∧ nic.Accounts {} := by
  -- Every queue of a new device is closed, so nothing waits on it and nothing has been counted.
  rw [Device.make] at made
  split at made
  · cases made
  · cases made
    intro nic member
    obtain ⟨-, rfl⟩ := Array.mem_replicate.mp member
    generalize max settings.rxQueues.toNat settings.txQueues.toNat = pairs
    obtain ⟨atRest, received, sending, waiting⟩ :=
      Nic.of_closed (n := { queues := Array.replicate pairs {} }) fun queue member => by
        rw [(Array.mem_replicate.mp member).2]
    refine ⟨atRest, waiting, ?_⟩
    rw [Nic.Accounts, received, sending]
    exact ⟨rfl, rfl, rfl, rfl⟩

namespace Traffic

/-- Traffic that agrees with itself: the record with the pools, the rings with what they list, the open
ports with the open queues, one each, and the network ports with their books. -/
structure Sound (t : Traffic) : Prop where
  whole : t.whole.Sound
  atRest : ∀ device nic, t.device.nic device = .ok nic → nic.AtRest
  owned : ∀ port ∈ t.ports, (t.device.rings? port).isSome
  distinct : (t.ports.map Port.id).Nodup
  accounts : ∀ device nic, t.device.nic device = .ok nic → nic.Accounts (t.books device)

variable {t : Traffic} {device : UInt16} {id : PortId} {port : Port} {nic nic' : Nic}
variable {queue queue' : Queue} {rings : QueueRings} {ledger : Ledger} {ports : List Port}
variable {change : Books → Books}

/-- Books in which nothing is noted stay as they are. -/
@[simp] theorem note_id (t : Traffic) (device : UInt16) : t.note device (fun b => b) = t.books := by
  funext other
  simp [note]

namespace Sound

/-- Traffic stays sound when what happens at one network port is noted in its books. -/
theorem turn (sound : t.Sound) (found : t.device.nic device = .ok nic)
    (whole : ({ ledger with
      packets := ledger.packets ++ (t.device.setNic device nic').waiting } : Ledger).Sound)
    (atRest : nic'.AtRest)
    (owned : ∀ port ∈ ports, ((t.device.setNic device nic').rings? port).isSome)
    (distinct : (ports.map Port.id).Nodup) (accounts : nic'.Accounts (change (t.books device))) :
    ({ ledger, device := t.device.setNic device nic', ports,
       books := t.note device change } : Traffic).Sound := by
  -- Every other network port and its books stay as they are.
  refine ⟨whole, ?_, owned, distinct, ?_⟩
  · intro other n there
    rw [Device.nic_setNic found] at there
    split at there
    · cases there
      exact atRest
    · exact sound.atRest other n there
  · intro other n there
    rw [Device.nic_setNic found] at there
    show n.Accounts (t.note device change other)
    rw [note]
    split at there
    · rename_i same
      cases there
      rw [if_pos same, same]
      exact accounts
    · rename_i apart
      rw [if_neg apart]
      exact sound.accounts other n there

/-- Traffic stays sound when a network port counts or reports something. -/
theorem recount (sound : t.Sound) (found : t.device.nic device = .ok nic)
    (kept : nic'.queues = nic.queues)
    (whole : ({ ledger with packets := ledger.packets ++ t.device.waiting } : Ledger).Sound)
    (balances : nic'.Balances nic.received.length nic.sending.length
      (change (t.books device))) :
    ({ ledger, device := t.device.setNic device nic', ports := t.ports,
       books := t.note device change } : Traffic).Sound := by
  -- The queues stay, so the same packets wait and the same ports are open.
  refine sound.turn found ?_ ?_ ?_ sound.distinct ?_
  · have moved := Device.waiting_setNic found nic'
    rw [(Nic.waiting_congr kept).2.2] at moved
    exact whole.reorder (((List.perm_append_right_iff _).mp moved).append_left _)
  · intro queue member
    rw [kept] at member
    exact sound.atRest device nic found queue member
  · intro port listed
    rw [Device.rings?_setNic (Device.nic_eq_ok found) kept]
    exact sound.owned port listed
  · obtain ⟨received, sending, -⟩ := Nic.waiting_congr kept
    rwa [Nic.Accounts, received, sending]

/-- Traffic stays sound when packets come to one queue or leave it. -/
theorem requeue (sound : t.Sound) (found : t.device.queue id = .ok (nic, queue))
    (kept : nic'.queues = nic.queues)
    (whole : ∀ held, (held ++ queue.waiting).Perm (t.device.waiting ++ queue'.waiting) →
      ({ ledger with packets := ledger.packets ++ held } : Ledger).Sound)
    (still : queue'.AtRest)
    (owned : ∀ port ∈ ports, ((t.device.setQueue id nic' queue').rings? port).isSome)
    (distinct : (ports.map Port.id).Nodup)
    (balances : ∀ received sending,
      received + queue.received.length = nic.received.length + queue'.received.length →
      sending + queue.sending.length = nic.sending.length + queue'.sending.length →
      nic'.Balances received sending (change (t.books id.device))) :
    ({ ledger, device := t.device.setQueue id nic' queue', ports,
       books := t.note id.device change } : Traffic).Sound := by
  -- One queue is replaced, so the balance of its network port changes by what that queue gains and
  -- loses.
  obtain ⟨there, inner⟩ := Device.queue_eq_ok_iff.mp found
  have inner' : nic'.queues[id.queue.toNat]? = some queue := kept ▸ inner
  refine sound.turn there (whole _ (Device.waiting_setQueue found kept queue')) ?_ owned distinct ?_
  · have atRest : nic'.AtRest := by
      intro other member
      rw [kept] at member
      exact sound.atRest id.device nic there other member
    exact atRest.withQueue still
  · obtain ⟨sameReceived, sameSending, -⟩ := Nic.waiting_congr kept
    have received := Nic.received_withQueue inner' queue'
    have sending := Nic.sending_withQueue inner' queue'
    rw [sameReceived] at received
    rw [sameSending] at sending
    obtain ⟨injected, sent, errors, latest⟩ := balances _ _ received sending
    exact ⟨injected, sent, errors, latest⟩

/-- Traffic stays sound when packets come to the rings of an open queue or leave them. -/
theorem refill (sound : t.Sound) (found : t.device.queue id = .ok (nic, queue))
    (kept : nic'.queues = nic.queues) (opened : queue.rings = some rings) {rx tx : Ring Packet}
    (now : queue'.rings = some { rings with rx, tx }) {received sending : List Packet}
    (rxHolds : rx.Holds received) (txHolds : tx.Holds sending) {come gone : List Packet}
    (traded : (received ++ sending ++ gone).Perm (queue.received ++ queue.sending ++ come))
    (whole : ∀ held, (held ++ gone).Perm (t.device.waiting ++ come) →
      ({ ledger with packets := ledger.packets ++ held } : Ledger).Sound)
    (balances : ∀ r s, r + queue.received.length = nic.received.length + received.length →
      s + queue.sending.length = nic.sending.length + sending.length →
      nic'.Balances r s (change (t.books id.device))) :
    ({ ledger, device := t.device.setQueue id nic' queue', ports := t.ports,
       books := t.note id.device change } : Traffic).Sound := by
  -- What comes and goes is told by the rings of the queue, which is all that changes there.
  obtain ⟨still, rfl, rfl⟩ := Queue.of_rings now rxHolds txHolds
  refine sound.requeue found kept ?_ still ?_ sound.distinct balances
  · -- What the queue keeps is on both sides, so it cancels.
    intro held moved
    apply whole held
    rw [List.perm_iff_count] at moved traded ⊢
    intro packet
    have first := moved packet
    have second := traded packet
    simp only [Queue.waiting, List.count_append] at first second ⊢
    omega
  · intro port listed
    exact Device.isSome_rings?_setQueue found opened kept now rfl (sound.owned port listed)

/-- What waits on an open queue is on its rings. -/
theorem holds (sound : t.Sound) (found : t.device.queue id = .ok (nic, queue))
    (opened : queue.rings = some rings) :
    rings.rx.Holds queue.received ∧ rings.tx.Holds queue.sending := by
  -- An open queue of a device at rest has rings that hold what waits there.
  obtain ⟨there, inner⟩ := Device.queue_eq_ok_iff.mp found
  have member : queue ∈ nic.queues := Array.mem_of_getElem? inner
  exact (sound.atRest id.device nic there queue member).holds opened

/-- Packets that left the device are their caller's. -/
theorem pulled (sound : t.Sound) {held gone : List Packet}
    (moved : (held ++ gone).Perm (t.device.waiting ++ [])) :
    ({ t.ledger with packets := gone ++ t.ledger.packets ++ held } : Ledger).Sound := by
  -- The packets move from the device to their caller, and the record as a whole stays.
  apply sound.whole.reorder
  rw [List.append_nil] at moved
  calc gone ++ t.ledger.packets ++ held
      ~ t.ledger.packets ++ gone ++ held := List.perm_append_comm.append_right _
    _ = t.ledger.packets ++ (gone ++ held) := List.append_assoc ..
    _ ~ t.ledger.packets ++ t.device.waiting :=
        (List.perm_append_comm.trans moved).append_left _

/-- An open port is one of an open queue. -/
theorem there (sound : t.Sound) (listed : port ∈ t.ports) :
    ∃ nic queue rings, t.device.owned? port = some (nic, queue, rings) ∧
      t.device.queue port.id = .ok (nic, queue) ∧ queue.rings = some rings := by
  -- An open port has rings, and so a queue and a network port that they belong to.
  obtain ⟨rings, owned⟩ := Option.isSome_iff_exists.mp (sound.owned port listed)
  rw [Device.rings?, Option.map_eq_some_iff] at owned
  obtain ⟨⟨nic, queue, rings⟩, owned, -⟩ := owned
  exact ⟨nic, queue, rings, owned, Device.queue_of_owned? owned⟩

/-- No open port is one of a queue that is closed. -/
theorem apart_of_closed (sound : t.Sound) (found : t.device.queue id = .ok (nic, queue))
    (closed : queue.rings = none) (listed : port ∈ t.ports) : port.id ≠ id := by
  -- A port of that queue would have rings.
  rintro rfl
  have there := sound.owned port listed
  simp [Device.rings?, Device.owned?, found, closed] at there

/-- Open ports are ones of different queues. -/
theorem apart_of_ne (sound : t.Sound) {other : Port} (here : other ∈ t.ports)
    (listed : port ∈ t.ports) (differs : other ≠ port) : other.id ≠ port.id :=
  fun same => differs (List.inj_on_of_nodup_map sound.distinct here listed same)

/-- A call on the pools leaves the device alone. -/
theorem pool (sound : t.Sound) {c : PoolCall} (permitted : t.Permits (.pool c)) :
    (t.call (.pool c)).Sound := by
  -- What waits on the device is listed beside what callers hold, and the call leaves it there.
  obtain ⟨own, all⟩ := permitted
  rw [call_pool]
  refine ⟨?_, sound.atRest, sound.owned, sound.distinct, sound.accounts⟩
  have called := sound.whole.call all
  have beside := Ledger.call_beside own t.device.waiting
  show ({ t.ledger.call c with packets := (t.ledger.call c).packets ++ t.device.waiting } :
    Ledger).Sound
  rw [← beside]
  exact called

/-- A queue pair that is opened was closed, so no open port is one of it. -/
theorem openPort (sound : t.Sound) (id : PortId) (rxDescriptors txDescriptors : Nat) :
    (t.call (.openPort id rxDescriptors txDescriptors)).Sound := by
  -- The queue was closed and opens empty, so no packet moves and no other port is one of it.
  simp only [call]
  cases opened : t.device.openPort 0 id rxDescriptors txDescriptors with
  | error fault => exact sound
  | ok outcome =>
    obtain ⟨port, d⟩ := outcome
    obtain ⟨nic, queue, rings, found, closed, rx, tx, rfl, rfl⟩ := Device.openPort_cases opened
    obtain ⟨-, noneReceived, noneSending⟩ := Queue.of_closed closed
    obtain ⟨still, received, sending⟩ :=
      Queue.of_rings (q := { queue with rings := some rings, openings := rings.opening }) rfl rx tx
    have books : t.books = t.note id.device fun b => b := (t.note_id id.device).symm
    simp only [books]
    refine sound.requeue found rfl ?_ still ?_ ?_ ?_
    · -- Both rings are new, so nothing came and nothing is gone.
      intro held moved
      rw [Queue.waiting, Queue.waiting, noneReceived, noneSending, received, sending] at moved
      simp only [List.append_nil] at moved
      exact sound.whole.reorder (moved.append_left _)
    · intro other listed
      obtain rfl | older := List.mem_cons.mp listed
      · rw [(Device.rings?_setQueue_cases found (by rfl)).1]
        rfl
      · rw [Device.rings?_setQueue_of_ne found rfl (sound.apart_of_closed found closed older)]
        exact sound.owned other older
    · rw [List.map_cons, List.nodup_cons]
      refine ⟨?_, sound.distinct⟩
      rintro listed
      obtain ⟨other, older, same⟩ := List.mem_map.mp listed
      exact sound.apart_of_closed found closed older same
    · intro r s moreReceived moreSending
      rw [noneReceived, received] at moreReceived
      rw [noneSending, sending] at moreSending
      obtain rfl : r = nic.received.length := by simpa using moreReceived
      obtain rfl : s = nic.sending.length := by simpa using moreSending
      exact sound.accounts _ _ (Device.queue_eq_ok_iff.mp found).1

/-- A queue pair that is closed gives back what waits on it, which is noted. -/
theorem close (sound : t.Sound) (listed : port ∈ t.ports) : (t.call (.close port)).Sound := by
  -- What waited on the queue is released and noted in the books, and its port is taken off the list.
  obtain ⟨nic, queue, rings, owned, found, opened⟩ := sound.there listed
  obtain ⟨rx, tx⟩ := sound.holds found opened
  obtain ⟨still, received, sending⟩ := Queue.of_closed (q := { queue with rings := none }) rfl
  have left : t.device.rings? port = some rings := by rw [Device.rings?, owned, Option.map_some]
  simp only [call, Device.closePort, owned, left, Option.elim_some, rx.toList_eq, tx.toList_eq]
  refine sound.requeue found rfl ?_ still ?_ ?_ ?_
  · intro held moved
    rw [Queue.waiting, Queue.waiting, received, sending, List.append_nil, List.append_nil] at moved
    apply Ledger.Sound.releaseAll
    apply sound.whole.reorder
    calc queue.received ++ queue.sending ++ (t.ledger.packets ++ held)
        ~ t.ledger.packets ++ (queue.received ++ queue.sending ++ held) :=
          List.perm_append_comm_assoc ..
      _ ~ t.ledger.packets ++ t.device.waiting :=
          (List.perm_append_comm.trans moved).append_left _
  · -- The ports that stay open are ones of other queues.
    intro other older
    obtain ⟨differs, member⟩ := (List.Nodup.mem_erase_iff sound.distinct.of_map).mp older
    rw [Device.rings?_setQueue_of_ne found rfl (sound.apart_of_ne member listed differs)]
    exact sound.owned other (List.mem_of_mem_erase older)
  · exact sound.distinct.sublist (List.erase_sublist.map _)
  · intro r s fewerReceived fewerSending
    obtain ⟨injected, sent, errors, latest⟩ :=
      sound.accounts _ _ (Device.queue_eq_ok_iff.mp found).1
    rw [received, List.length_nil, Nat.add_zero] at fewerReceived
    rw [sending, List.length_nil, Nat.add_zero] at fewerSending
    refine ⟨?_, ?_, errors, latest⟩
    · rw [injected, ← fewerReceived]
      simp only [UInt64.ofNat_add]
      grind
    · rw [sent, ← fewerSending]
      simp only [UInt64.ofNat_add]
      grind

/-- A frame that the wire delivers is received, or lost and counted. -/
theorem inject (sound : t.Sound) (id : PortId) (frame : List UInt8) :
    (t.call (.inject id frame)).Sound := by
  simp only [call]
  cases delivered : t.device.inject t.ledger.buffers id frame with
  | error fault => exact sound
  | ok outcome =>
    obtain ⟨received, d, b⟩ := outcome
    obtain ⟨nic, queue, found, ends⟩ := Device.inject_cases delivered
    obtain ⟨there, -⟩ := Device.queue_eq_ok_iff.mp found
    obtain ⟨injected, sent, errors, latest⟩ := sound.accounts _ _ there
    cases ends with
    -- The receive ring was full: one frame more is missed.
    | missed fed =>
      simp only [fed, Bool.false_eq_true, if_false]
      refine sound.recount there (by rfl) sound.whole ⟨?_, sent, errors, latest⟩
      simp only [Nic.miss, Nic.count, UInt64.ofNat_add, injected]
      grind
    -- The pool was empty: one frame more is missed, and one error more is reported.
    | starved hungry =>
      simp only [hungry, if_true]
      refine sound.recount there (by rfl) sound.whole ⟨?_, sent, ?_, rfl⟩
      · simp only [Nic.report, Nic.count, UInt64.ofNat_add, injected]
        grind
      · simp only [Nic.report, Nic.count, errors]
        grind
    -- The packet that was allocated is given back, so the ledger is as before.
    | dropped edits fed handed =>
      simp only [fed, Bool.false_eq_true, if_false]
      refine sound.recount there (by rfl) ?_ ⟨?_, sent, errors, latest⟩
      · exact sound.whole.later (.allocated_given (l := t.whole) handed edits)
      · simp only [Nic.miss, Nic.count, UInt64.ofNat_add, injected]
        grind
    | @received packet after written rings rx fed linked handed copied opened put =>
      -- The new packet waits on the receive ring instead of being a caller's.
      obtain ⟨rxHolds, txHolds⟩ := sound.holds found opened
      have traded : (queue.received ++ [packet] ++ queue.sending ++ []).Perm
          (queue.received ++ queue.sending ++ [packet]) := by
        rw [List.append_nil, List.append_assoc, List.append_assoc]
        exact List.perm_append_comm.append_left _
      simp only [fed, Bool.false_eq_true, if_false]
      refine sound.refill found ?_ opened ?_ (rxHolds.enqueue_holds put) txHolds traded ?_ ?_
      · rfl
      · rfl
      · intro held moved
        rw [List.append_nil] at moved
        rw [← Buffers.performAll_copied copied]
        have later := sound.whole.later
          (.allocated (l := t.whole) handed [.copy frame, .setPort id.device])
        apply later.reorder
        calc t.ledger.packets ++ held
            ~ t.ledger.packets ++ (t.device.waiting ++ [packet]) := moved.append_left _
          _ = t.ledger.packets ++ t.device.waiting ++ [packet] := (List.append_assoc ..).symm
          _ ~ packet :: (t.ledger.packets ++ t.device.waiting) :=
              List.perm_append_singleton packet _
      · intro r s more same
        obtain rfl : s = nic.sending.length := Nat.add_right_cancel same
        refine ⟨?_, sent, errors, latest⟩
        have whole : r = nic.received.length + 1 := by
          rw [List.length_append, List.length_singleton] at more
          omega
        simp only [whole, UInt64.ofNat_add, injected]
        grind

/-- Packets that are received leave the receive ring for their caller, and are counted. -/
theorem rxBurst (sound : t.Sound) (port : Port) (limit : Nat) :
    (t.call (.rxBurst port limit)).Sound := by
  -- The packets leave the front of the receive ring, and are counted as they go to their caller.
  simp only [call, Device.rxBurst]
  split
  · exact sound
  · rename_i nic queue rings owned
    split
    · exact sound
    · obtain ⟨found, opened⟩ := Device.queue_of_owned? owned
      obtain ⟨rx, tx⟩ := sound.holds found opened
      obtain ⟨taken, -, after⟩ := rx.dequeueBulk_holds limit
      have books : t.books = t.note port.id.device fun b => b := (t.note_id _).symm
      have traded : (queue.received.drop limit ++ queue.sending ++ queue.received.take limit).Perm
          (queue.received ++ queue.sending ++ []) := by
        rw [List.append_nil]
        calc queue.received.drop limit ++ queue.sending ++ queue.received.take limit
            ~ queue.received.take limit ++ (queue.received.drop limit ++ queue.sending) :=
              List.perm_append_comm
          _ = queue.received ++ queue.sending := by
              rw [← List.append_assoc, List.take_append_drop]
      simp only [books, taken]
      refine sound.refill found ?_ opened ?_ after tx traded ?_ ?_
      · rfl
      · rfl
      · intro held moved
        exact sound.pulled moved
      · intro r s fewer same
        obtain ⟨injected, sent, errors, latest⟩ :=
          sound.accounts _ _ (Device.queue_eq_ok_iff.mp found).1
        -- What was taken and what stays make up what was received.
        have split := congrArg List.length (List.take_append_drop limit queue.received)
        rw [List.length_append] at split
        obtain rfl : s = nic.sending.length := Nat.add_right_cancel same
        refine ⟨?_, sent, errors, latest⟩
        have whole : nic.received.length = r + (queue.received.take limit).length := by omega
        rw [injected, whole]
        simp only [Nic.count, UInt64.ofNat_add]
        grind

/-- Packets that are sent go to the transmit ring, and are counted; without a link that is an error. -/
theorem txBurst (sound : t.Sound) {packets : List Packet}
    (listed : port ∈ t.ports) (owns : packets.Subperm t.ledger.packets) :
    (t.call (.txBurst port packets)).Sound := by
  -- By cases on the link: without it only an error is counted, and with it packets move to the ring.
  obtain ⟨nic, queue, rings, owned, found, opened⟩ := sound.there listed
  obtain ⟨there, -⟩ := Device.queue_eq_ok_iff.mp found
  have linkless := Device.linkless_eq there
  have mine : (packets ++ t.ledger.packets.diff packets).Perm t.ledger.packets :=
    List.subperm_append_diff_self_of_count_le fun packet _ => owns.count_le packet
  obtain ⟨injected, sent, errors, latest⟩ := sound.accounts _ _ there
  simp only [call, Device.txBurst, owned, linkless]
  split
  · -- Sending nothing is no error, even without link.
    rename_i empty
    have none : packets = [] := List.isEmpty_iff.mp empty
    subst none
    show ({ t with books := t.note port.id.device fun b => b } : Traffic).Sound
    rw [note_id]
    exact sound
  · rename_i filled
    rw [Bool.not_eq_true] at filled
    split
    · rename_i down
      have whole := sound.whole.reorder (mine.append_right t.device.waiting)
      simp only [filled, down, Bool.not_false, Bool.and_self, if_true]
      refine sound.recount there (by rfl) whole ⟨injected, sent, ?_, rfl⟩
      simp only [Nic.report, errors, UInt64.ofNat_add]
      grind
    · rename_i up
      have linked : nic.linkUp = true := by simpa using up
      obtain ⟨rx, tx⟩ := sound.holds found opened
      have after := Device.sendWithin_taken tx queue.budget.toNat packets
      obtain ⟨rest, most⟩ := Device.sendWithin_rest rings.tx queue.budget.toNat packets
      generalize Device.sendWithin rings.tx queue.budget.toNat packets = outcome at after rest most ⊢
      have traded : (queue.received ++ (queue.sending ++ packets.take outcome.accepted) ++ []).Perm
          (queue.received ++ queue.sending ++ packets.take outcome.accepted) := by
        rw [List.append_nil, List.append_assoc]
      simp only [linked, Bool.not_true, Bool.and_false, Bool.false_eq_true, if_false]
      refine sound.refill found ?_ opened ?_ rx after traded ?_ ?_
      · rfl
      · rfl
      · -- The caller gave all packets and got back those that were not accepted.
        intro held moved
        rw [List.append_nil] at moved
        apply sound.whole.reorder
        rw [rest]
        calc packets.drop outcome.accepted ++ t.ledger.packets.diff packets ++ held
            ~ packets.drop outcome.accepted ++ t.ledger.packets.diff packets ++
                (t.device.waiting ++ packets.take outcome.accepted) := moved.append_left _
          _ ~ t.device.waiting ++ packets.take outcome.accepted ++
                (packets.drop outcome.accepted ++ t.ledger.packets.diff packets) :=
              List.perm_append_comm
          _ = t.device.waiting ++ (packets ++ t.ledger.packets.diff packets) := by
              rw [List.append_assoc, ← List.append_assoc (packets.take _), List.take_append_drop]
          _ ~ t.device.waiting ++ t.ledger.packets := mine.append_left _
          _ ~ t.ledger.packets ++ t.device.waiting := List.perm_append_comm
      · intro r s same more
        obtain rfl : r = nic.received.length := Nat.add_right_cancel same
        refine ⟨injected, ?_, errors, latest⟩
        have whole : s = nic.sending.length + outcome.accepted := by
          rw [List.length_append, List.length_take, Nat.min_eq_left most] at more
          omega
        simp only [whole, Nic.count, sent, UInt64.ofNat_add]
        grind

/-- Packets that are taken off the wire leave the transmit ring for their caller. -/
theorem drainTx (sound : t.Sound) (id : PortId) (limit : Nat) :
    (t.call (.drainTx id limit)).Sound := by
  simp only [call]
  cases found : t.device.queue id with
  | error fault =>
    simp only [Device.drainTx, found]
    exact sound
  | ok pair =>
    obtain ⟨nic, queue⟩ := pair
    cases opened : queue.rings with
    | none =>
      -- A closed queue gives nothing, and nothing is noted.
      simp only [Device.drainTx, found, opened]
      show ({ t with books := t.note id.device fun b => b } : Traffic).Sound
      rw [note_id]
      exact sound
    | some rings =>
      obtain ⟨rx, tx⟩ := sound.holds found opened
      obtain ⟨taken, -, after⟩ := tx.dequeueBulk_holds limit
      have traded : (queue.received ++ queue.sending.drop limit ++ queue.sending.take limit).Perm
          (queue.received ++ queue.sending ++ []) := by
        rw [List.append_nil, List.append_assoc]
        calc queue.received ++ (queue.sending.drop limit ++ queue.sending.take limit)
            ~ queue.received ++ (queue.sending.take limit ++ queue.sending.drop limit) :=
              List.perm_append_comm.append_left _
          _ = queue.received ++ queue.sending := by rw [List.take_append_drop]
      simp only [Device.drainTx, found, opened, taken]
      refine sound.refill found ?_ opened ?_ rx after traded ?_ ?_
      · rfl
      · rfl
      · intro held moved
        exact sound.pulled moved
      · intro r s same fewer
        obtain ⟨injected, sent, errors, latest⟩ :=
          sound.accounts _ _ (Device.queue_eq_ok_iff.mp found).1
        -- What was taken and what stays make up what was to be sent.
        have split := congrArg List.length (List.take_append_drop limit queue.sending)
        rw [List.length_append] at split
        obtain rfl : r = nic.received.length := Nat.add_right_cancel same
        refine ⟨injected, ?_, errors, latest⟩
        have whole : nic.sending.length = s + (queue.sending.take limit).length := by omega
        rw [sent, whole]
        simp only [UInt64.ofNat_add]
        grind

/-- A budget changes nothing that is counted. -/
theorem setBudget (sound : t.Sound) (id : PortId) (budget : Option UInt64) :
    (t.call (.setBudget id budget)).Sound := by
  -- The queue keeps its rings, and nothing is noted.
  simp only [call, Device.setBudget]
  cases found : t.device.queue id with
  | error fault => exact sound
  | ok pair =>
    obtain ⟨nic, queue⟩ := pair
    obtain ⟨there, inner⟩ := Device.queue_eq_ok_iff.mp found
    have still := sound.atRest id.device nic there queue (Array.mem_of_getElem? inner)
    have books : t.books = t.note id.device fun b => b := (t.note_id _).symm
    simp only [books]
    refine sound.requeue found ?_ ?_ still ?_ sound.distinct ?_
    · rfl
    · intro held moved
      have same : held.Perm t.device.waiting := (List.perm_append_right_iff queue.waiting).mp moved
      exact sound.whole.reorder (same.append_left _)
    · intro port listed
      rw [Device.rings?_setQueue_same found (by rfl)]
      exact sound.owned port listed
    · intro r s sameReceived sameSending
      obtain rfl : r = nic.received.length := Nat.add_right_cancel sameReceived
      obtain rfl : s = nic.sending.length := Nat.add_right_cancel sameSending
      exact sound.accounts _ _ there

/-- A link that goes down is an error of its network port. -/
theorem setLink (sound : t.Sound) (device : UInt16) (up : Bool) :
    (t.call (.setLink device up)).Sound := by
  -- Only taking a link down reports an error, and no queue changes.
  simp only [call, Device.setLink]
  cases found : t.device.nic device with
  | error fault => exact sound
  | ok nic =>
    obtain ⟨injected, sent, errors, latest⟩ := sound.accounts device nic found
    cases up with
    | true => exact sound.recount found (by rfl) sound.whole ⟨injected, sent, errors, latest⟩
    | false =>
      refine sound.recount found (by rfl) sound.whole ⟨injected, sent, ?_, rfl⟩
      simp only [Bool.false_eq_true, if_false, Nic.report, errors, UInt64.ofNat_add]
      grind

/-- An error that is raised is an error of its network port. -/
theorem raise (sound : t.Sound) (device : UInt16) (code : DeviceCode) :
    (t.call (.raise device code)).Sound := by
  -- The error is reported and noted together.
  simp only [call, Device.raise]
  cases found : t.device.nic device with
  | error fault => exact sound
  | ok nic =>
    obtain ⟨injected, sent, errors, latest⟩ := sound.accounts device nic found
    refine sound.recount found (by rfl) sound.whole ⟨injected, sent, ?_, rfl⟩
    simp only [Nic.report, errors, UInt64.ofNat_add]
    grind

/-- Every permitted call keeps traffic sound. -/
theorem call (sound : t.Sound) {c : TrafficCall} (permitted : t.Permits c) :
    (t.call c).Sound := by
  -- By cases on the call, each of which has its own lemma.
  cases c with
  | pool c => exact sound.pool permitted
  | openPort id rxDescriptors txDescriptors => exact sound.openPort id rxDescriptors txDescriptors
  | close port => exact sound.close permitted
  | inject id frame => exact sound.inject id frame
  | rxBurst port limit => exact sound.rxBurst port limit
  | txBurst port packets => exact sound.txBurst permitted.1 permitted.2
  | drainTx id limit => exact sound.drainTx id limit
  | setBudget id budget => exact sound.setBudget id budget
  | setLink device up => exact sound.setLink device up
  | raise device code => exact sound.raise device code

end Sound

/-- Traffic starts sound on a device that was made. -/
theorem sound_start {l : Ledger} {pool : Nat} {settings : DeviceSettings} {d : Device}
    (sound : l.Sound) (made : Device.make pool settings = .ok d) :
    Sound { ledger := l, device := d } := by
  -- A device that was just made is closed everywhere, so nothing waits and no port is open.
  have idle := Device.idle_make made
  have listed : ∀ device nic, d.nic device = .ok nic → nic ∈ d.nics :=
    fun _ _ found => Array.mem_of_getElem? (Device.nic_eq_ok found)
  refine ⟨?_, ?_, ?_, List.nodup_nil, ?_⟩
  · have empty : d.waiting = [] :=
      List.flatMap_eq_nil_iff.mpr fun nic member => (idle nic (Array.mem_toList_iff.mp member)).2.1
    simpa only [whole, empty, List.append_nil] using sound
  · exact fun device nic found => (idle nic (listed device nic found)).1
  · intro port none
    cases none
  · exact fun device nic found => (idle nic (listed device nic found)).2.2

/-- Whatever permitted calls were made, traffic is sound. -/
theorem Reachable.sound (run : t.Reachable) : t.Sound := by
  -- It starts so, and every call keeps it so.
  induction run with
  | start run made => exact sound_start run.sound made
  | call run c permitted ih => exact ih.call permitted

end Traffic

end PacketPlane
