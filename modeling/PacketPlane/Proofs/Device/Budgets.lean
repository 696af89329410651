import PacketPlane.Proofs.Device.Failures

/-! Budgets: which packets of a burst a queue pair takes, and how many it takes in all before its budget
is used up. -/

namespace PacketPlane

/-- A ring with room for no more than the front of a list takes as much of the front alone. -/
theorem Ring.Holds.enqueueBulk_take {α : Type} {r : Ring α} {items : List α} (held : r.Holds items)
    (more : List α) {count : Nat} (few : min more.length (r.capacity - items.length) ≤ count) :
    let front := r.enqueueBulk (more.take count)
    { front with rest := front.rest ++ more.drop count } = r.enqueueBulk more := by
  intro front
  simp only [front, enqueueBulk]
  rw [held.reserveProd_eq, held.reserveProd_eq]
  -- The same number of places is granted for both lists.
  have asked : Demand.upTo.grant (more.take count).length (r.capacity - items.length) =
      Demand.upTo.grant more.length (r.capacity - items.length) := by
    show min (more.take count).length _ = min more.length _
    rw [List.length_take]
    omega
  rw [asked]
  have granted : Demand.upTo.grant more.length (r.capacity - items.length) ≤ count := few
  generalize Demand.upTo.grant more.length (r.capacity - items.length) = places at granted ⊢
  by_cases nothing : places = 0
  · simp only [if_pos nothing, List.take_append_drop]
  · have rest : (more.take count).drop places ++ more.drop count = more.drop places := by
      rw [List.drop_take]
      conv_rhs => rw [← List.take_append_drop (count - places) (more.drop places)]
      rw [List.drop_drop, Nat.add_sub_cancel' granted]
    simp only [if_neg nothing, rest, List.take_take, Nat.min_eq_left granted]

namespace Device

/-- Packets sent within a budget are the front that it allows, sent by itself. -/
theorem sendWithin_eq_split (tx : Ring Packet) (budget : Nat) (packets : List Packet) :
    let front := tx.enqueueBulk (packets.take budget)
    sendWithin tx budget packets = { front with rest := front.rest ++ packets.drop budget } := by
  -- A budget that allows everything leaves nothing behind the front.
  intro front
  rw [sendWithin]
  split
  · rename_i enough
    simp only [front, List.take_of_length_le enough, List.drop_of_length_le enough, List.append_nil]
  · rfl

section Holds

variable {tx : Ring Packet} {items : List Packet} {budget : Nat} {packets : List Packet}

/-- A budget that allows all that fits makes no difference. -/
theorem sendWithin_eq_plain (held : tx.Holds items)
    (few : min packets.length tx.freeCount ≤ budget) :
    sendWithin tx budget packets = tx.enqueueBulk packets := by
  -- What the budget cuts off would not have fitted anyway.
  rw [Ring.freeCount, held.count_eq] at few
  rw [sendWithin_eq_split]
  exact held.enqueueBulk_take packets few

/-- Within a budget, a transmit ring takes as many packets as there are, as it allows and as fit. -/
theorem accepted_sendWithin (held : tx.Holds items) (budget : Nat) (packets : List Packet) :
    (sendWithin tx budget packets).accepted =
      min packets.length (min budget tx.freeCount) := by
  -- The ring takes what fits of the front that the budget allows.
  rw [sendWithin_eq_split]
  show (tx.enqueueBulk (packets.take budget)).accepted = _
  rw [(held.enqueueBulk_holds _).1, List.length_take, Ring.freeCount, held.count_eq]
  omega

end Holds

/-- How many packets a queue pair may still send. -/
def budget? (d : Device) (id : PortId) : Option UInt64 :=
  (d.queue id).toOption.map (·.2.budget)

/-- The packets that a call puts on the transmit ring of a queue pair. -/
def accepted (d : Device) (id : PortId) : TrafficCall → List Packet
  | .txBurst port packets => if port.id = id then packets.take (d.txBurst port packets).1 else []
  | _ => []

variable {d : Device} {id : PortId} {nic nic' : Nic} {queue queue' : Queue}

/-- A queue that is replaced by itself leaves the device as it is. -/
theorem setQueue_self (found : d.queue id = .ok (nic, queue)) : d.setQueue id nic queue = d := by
  -- Both arrays have the same entry put back in its place.
  obtain ⟨device, inner⟩ := queue_eq_ok found
  obtain ⟨inside, here⟩ := Array.getElem?_eq_some_iff.mp device
  obtain ⟨within, there⟩ := Array.getElem?_eq_some_iff.mp inner
  have same : { nic with queues := nic.queues.setIfInBounds id.queue.toNat queue } = nic := by
    rw [← there]
    simp [Array.setIfInBounds, within]
  rw [setQueue, setNic, same, ← here]
  simp [Array.setIfInBounds, inside]

/-- A network port that keeps its queues leaves all budgets. -/
theorem budget?_setNic {device : UInt16} (found : d.nic device = .ok nic)
    (kept : nic'.queues = nic.queues) (other : PortId) :
    (d.setNic device nic').budget? other = d.budget? other := by
  -- Budgets are looked up through queues, which stay.
  rw [budget?, budget?, Device.queue, Device.queue, nic_setNic found]
  by_cases same : other.device = device
  · rw [if_pos same, same, found]
    simp only [kept]
    split <;> rfl
  · rw [if_neg same]

/-- A queue that is replaced has its own budget, and the others keep theirs. -/
theorem budget?_setQueue (found : d.queue id = .ok (nic, queue)) (kept : nic'.queues = nic.queues)
    (other : PortId) :
    (d.setQueue id nic' queue').budget? other =
      if other = id then some queue'.budget else d.budget? other := by
  -- A queue is looked up by network port and number, so another queue differs in one of them.
  obtain ⟨there, inner⟩ := queue_eq_ok_iff.mp found
  have within := (Array.getElem?_eq_some_iff.mp inner).1
  rw [budget?, budget?, Device.queue, Device.queue, setQueue, nic_setNic there]
  by_cases device : other.device = id.device
  · rw [if_pos device, device, there]
    by_cases number : other.queue = id.queue
    · obtain rfl : other = id := by
        cases other
        cases id
        simp_all
      simp [kept, within, Except.toOption]
    · have apart : ¬ id.queue.toNat = other.queue.toNat :=
        fun same => number (UInt16.toNat_inj.mp same.symm)
      have differs : other ≠ id := fun same => number (congrArg PortId.queue same)
      rw [if_neg differs]
      simp only [kept, Array.getElem?_setIfInBounds, if_neg apart]
      cases nic.queues[other.queue.toNat]? <;> rfl
  · have differs : other ≠ id := fun same => device (congrArg PortId.device same)
    rw [if_neg device, if_neg differs]

/-- A queue that is found has its budget. -/
theorem budget?_eq (found : d.queue id = .ok (nic, queue)) : d.budget? id = some queue.budget := by
  rw [budget?, found]
  rfl

/-- A queue that is replaced by one with the same budget leaves all budgets. -/
theorem budget?_setQueue_same (found : d.queue id = .ok (nic, queue))
    (kept : nic'.queues = nic.queues) (same : queue'.budget = queue.budget) (other : PortId) :
    (d.setQueue id nic' queue').budget? other = d.budget? other := by
  -- For the queue in question its new budget is the old one.
  rw [budget?_setQueue found kept]
  split
  · rename_i here
    rw [here, budget?_eq found, same]
  · rfl

end Device

/-- A queue pair after it took the front of a burst: the front waits behind what waited before, and is
counted and taken from the budget, unless that is unlimited. -/
structure Queue.Sends (nic : Nic) (queue : Queue) (front : List Packet) (nic' : Nic)
    (queue' : Queue) : Prop where
  sending : queue'.sending = queue.sending ++ front
  received : queue'.received = queue.received
  openings : queue'.openings = queue.openings
  unlimited : queue.budget = unlimited → queue'.budget = PacketPlane.unlimited
  limited : queue.budget ≠ PacketPlane.unlimited →
    queue'.budget.toNat + front.length = queue.budget.toNat
  nic : nic' = nic.count fun c => { c with txPackets := c.txPackets + UInt64.ofNat front.length }

namespace Traffic

variable {t later : Traffic} {port : Port} {id : PortId} {c : TrafficCall} {nic : Nic}
  {queue : Queue} {rings : QueueRings} {sent : List Packet}

/-- With a link, an open port takes as many packets from the front of a burst as there are, as the
budget allows and as fit, and hands the others back. -/
theorem Sound.txBurst_up (sound : t.Sound)
    (owned : t.device.owned? port = some (nic, queue, rings)) (up : nic.linkUp = true)
    (packets : List Packet) :
    let s := min packets.length (min queue.budget.toNat rings.tx.freeCount)
    ∃ nic' queue', nic'.queues = nic.queues ∧ queue.Sends nic (packets.take s) nic' queue' ∧
      t.device.txBurst port packets =
        (s, packets.drop s, t.device.setQueue port.id nic' queue') := by
  -- An empty burst is looked at by itself, since then the code does not even look at the port.
  intro s
  obtain ⟨found, opened⟩ := Device.queue_of_owned? owned
  obtain ⟨rx, tx⟩ := sound.holds found opened
  have few : (packets.take s).length = s := by
    rw [List.length_take]
    omega
  by_cases empty : packets = []
  · -- Nothing is looked at, which is what taking nothing comes to.
    have none : s = 0 := by simp [s, empty]
    refine ⟨nic, queue, rfl, ⟨?_, rfl, rfl, id, fun _ => ?_, ?_⟩, ?_⟩
    · rw [empty, List.take_nil, List.append_nil]
    · rw [few, none, Nat.add_zero]
    · rw [few, none]
      simp [Nic.count]
    · rw [Device.setQueue_self found, none, empty]
      rfl
  · have accepted := Device.accepted_sendWithin tx queue.budget.toNat packets
    have rest := (Device.sendWithin_rest rings.tx queue.budget.toNat packets).1
    have taken := Device.sendWithin_taken tx queue.budget.toNat packets
    rw [accepted] at rest taken
    have notEmpty : packets.isEmpty = false := by simpa using empty
    let sent := Device.sendWithin rings.tx queue.budget.toNat packets
    let queue' : Queue :=
      { queue with
        rings := some { rings with tx := sent.ring }
        budget := if queue.budget = unlimited then unlimited else queue.budget - UInt64.ofNat s }
    obtain ⟨-, received, sending⟩ := Queue.of_rings (q := queue') rfl rx taken
    refine ⟨nic.count fun c => { c with txPackets := c.txPackets + UInt64.ofNat s }, queue', rfl,
      ⟨sending, received, rfl, fun same => if_pos same, fun limited => ?_, ?_⟩, ?_⟩
    · -- No more is taken than the budget allows.
      have allowed : s ≤ queue.budget.toNat := by omega
      have small : (UInt64.ofNat s).toNat = s :=
        UInt64.toNat_ofNat_of_lt' (allowed.trans_lt queue.budget.toNat_lt)
      have within : UInt64.ofNat s ≤ queue.budget := by rwa [UInt64.le_iff_toNat_le, small]
      have left : queue'.budget = queue.budget - UInt64.ofNat s := if_neg limited
      rw [left, UInt64.toNat_sub_of_le _ _ within, small, few]
      exact Nat.sub_add_cancel allowed
    · rw [few]
    · simp only [Device.txBurst, notEmpty, owned, up, Bool.not_true, Bool.false_eq_true, if_false,
        accepted, rest, queue', sent, s]

/-- Without link, an open port takes nothing, and reports that if there was something to take. -/
theorem txBurst_down (owned : t.device.owned? port = some (nic, queue, rings))
    (down : nic.linkUp = false) (packets : List Packet) :
    t.device.txBurst port packets =
      (0, packets, if packets = [] then t.device
        else t.device.setNic port.id.device (nic.report .linkDown)) := by
  -- An empty burst is looked at by itself, since then nothing is reported.
  by_cases empty : packets = []
  · rw [empty]
    rfl
  · have notEmpty : packets.isEmpty = false := by simpa using empty
    simp only [Device.txBurst, notEmpty, owned, down, Bool.not_false, if_true, if_neg empty,
      Bool.false_eq_true, if_false]

/-- What an open port takes of a burst is what is missing from its budget afterwards. -/
theorem Sound.budget?_txBurst (sound : t.Sound) (listed : port ∈ t.ports) (packets : List Packet) :
    ∃ before after : UInt64, t.device.budget? port.id = some before ∧
      (t.call (.txBurst port packets)).device.budget? port.id = some after ∧
      (before ≠ unlimited → after.toNat +
        (t.device.accepted port.id (.txBurst port packets)).length = before.toNat) := by
  -- By cases on the link, since without one the burst does not reach the queue.
  obtain ⟨nic, queue, rings, owned, found, -⟩ := sound.there listed
  have there := (Device.queue_eq_ok_iff.mp found).1
  have same := Device.budget?_eq found
  simp only [Traffic.call, Device.accepted, if_true]
  cases link : nic.linkUp with
  | true =>
    obtain ⟨nic', queue', kept, sends, burst⟩ := sound.txBurst_up owned link packets
    rw [burst]
    refine ⟨queue.budget, queue'.budget, same, ?_, sends.limited⟩
    rw [Device.budget?_setQueue found kept, if_pos rfl]
  | false =>
    rw [txBurst_down owned link packets]
    refine ⟨queue.budget, queue.budget, same, ?_, fun _ => rfl⟩
    by_cases empty : packets = []
    · simpa only [if_pos empty] using same
    · simp only [if_neg empty]
      rw [Device.budget?_setNic there (by rfl)]
      exact same

/-- A call that neither sends on a queue pair nor sets its budget leaves its budget. -/
theorem budget?_call (idle : ∀ port packets, c = .txBurst port packets → port.id ≠ id)
    (kept : ∀ budget, c ≠ .setBudget id budget) :
    (t.call c).device.budget? id = t.device.budget? id := by
  -- By what the call alters: either another queue is replaced, or by one with the same budget.
  have altered := t.alters_call c
  generalize (t.call c).device = after at altered ⊢
  cases altered with
  | kept => rfl
  | nic found queues => exact Device.budget?_setNic found queues id
  | @queue other nic nic' queue queue' found queues opening budget =>
    rw [Device.budget?_setQueue found queues]
    split
    · rename_i same
      rw [same, Device.budget?_eq found, budget (same ▸ idle) (same ▸ kept)]
    · rfl

/-- Traffic since the budget of a queue pair was set, with the packets that the queue pair has taken
meanwhile: anything may be called but to set that budget again. -/
inductive Spends (t : Traffic) (id : PortId) : Traffic → List Packet → Prop
  | start : Spends t id t []
  | call {later : Traffic} {sent : List Packet} (run : Spends t id later sent) (c : TrafficCall)
    (permitted : later.Permits c) (kept : ∀ budget, c ≠ .setBudget id budget) :
    Spends t id (later.call c) (sent ++ later.device.accepted id c)

/-- Nothing is put on the transmit ring of a queue pair by other calls. -/
theorem accepted_eq_nil {d : Device}
    (idle : ∀ port packets, c = .txBurst port packets → port.id ≠ id) : d.accepted id c = [] := by
  -- By cases on the call, of which only a burst puts anything on a ring.
  cases c with
  | txBurst port packets => exact if_neg (idle port packets rfl)
  | _ => rfl

/-- What a queue pair has taken since its budget was set is what is missing from the budget. -/
theorem Spends.spent (run : t.Spends id later sent) (sound : t.Sound) {budget : UInt64}
    (limited : budget ≠ unlimited) (given : ∀ b, t.device.budget? id = some b → b = budget) :
    later.Sound ∧ sent.length ≤ budget.toNat ∧ ∀ left, later.device.budget? id = some left →
      left.toNat + sent.length = budget.toNat := by
  induction run with
  | start =>
    refine ⟨sound, Nat.zero_le _, fun left same => ?_⟩
    rw [given left same]
    rfl
  | @call later sent run c permitted kept ih =>
    obtain ⟨soundLater, within, exactly⟩ := ih
    refine ⟨soundLater.call permitted, ?_⟩
    -- Only a burst of this port spends, and every other call keeps the budget.
    by_cases sends : ∃ port packets, c = .txBurst port packets ∧ port.id = id
    · obtain ⟨port, packets, rfl, rfl⟩ := sends
      obtain ⟨before, after, had, has, missing⟩ :=
        soundLater.budget?_txBurst permitted.1 packets
      have earlier := exactly before had
      -- What is left of a limited budget is less than the mark of an unlimited one.
      have still : before ≠ unlimited := by
        rintro rfl
        have most := budget.toNat_lt
        have differs : budget.toNat ≠ unlimited.toNat := fun same =>
          limited (UInt64.toNat_inj.mp same)
        have mark : unlimited.toNat = 2 ^ 64 - 1 := rfl
        omega
      have later := missing still
      rw [List.length_append]
      refine ⟨by omega, fun left same => ?_⟩
      rw [has, Option.some.injEq] at same
      rw [← same]
      omega
    · have idle : ∀ port packets, c = .txBurst port packets → port.id ≠ id :=
        fun port packets same here => sends ⟨port, packets, same, here⟩
      rw [accepted_eq_nil idle, List.append_nil, budget?_call idle kept]
      exact ⟨within, exactly⟩

/-- A budget that was set is the one the queue pair has, if there is one. -/
theorem budget?_setBudget (t : Traffic) (id : PortId) (budget : UInt64) {b : UInt64}
    (has : (t.call (.setBudget id (some budget))).device.budget? id = some b) : b = budget := by
  -- A queue that does not exist has no budget to be found there.
  simp only [call, Device.setBudget] at has
  cases found : t.device.queue id with
  | error fault =>
    rw [found] at has
    simp [Device.budget?, found, Except.toOption] at has
  | ok pair =>
    rw [found] at has
    simp only at has
    rw [Device.budget?_setQueue found (by rfl), if_pos rfl, Option.some.injEq] at has
    exact has.symm

/-- Whatever permitted calls were made: with a link, an open port takes exactly the front of a burst
that exists, is within the budget and fits, hands back the rest in order, and changes no packet; whether
the budget is looked at makes no difference where it does not matter; without link it takes nothing and
reports that. And whatever follows the setting of a limited budget, the queue pair never takes more
packets than that, nor fewer than are missing from it. -/
theorem bursts_affordable (run : t.Reachable) :
    (∀ port ∈ t.ports, ∃ nic queue rings, t.device.owned? port = some (nic, queue, rings) ∧
      ∀ packets,
        let budget := queue.budget.toNat
        let s := min packets.length (min budget rings.tx.freeCount)
        let front := rings.tx.enqueueBulk (packets.take budget)
        (nic.linkUp = true → ∃ nic' queue', nic'.queues = nic.queues ∧
          queue.Sends nic (packets.take s) nic' queue' ∧
          t.device.txBurst port packets =
            (s, packets.drop s, t.device.setQueue port.id nic' queue')) ∧
        (nic.linkUp = false → t.device.txBurst port packets =
          (0, packets, if packets = [] then t.device
            else t.device.setNic port.id.device (nic.report .linkDown))) ∧
        Device.sendWithin rings.tx budget packets =
          { front with rest := front.rest ++ packets.drop budget } ∧
        (min packets.length rings.tx.freeCount ≤ budget →
          Device.sendWithin rings.tx budget packets = rings.tx.enqueueBulk packets) ∧
        (t.call (.txBurst port packets)).ledger.buffers = t.ledger.buffers) ∧
    ∀ id budget, budget ≠ unlimited → ∀ later sent,
      (t.call (.setBudget id (some budget))).Spends id later sent →
      sent.length ≤ budget.toNat ∧ ∀ left, later.device.budget? id = some left →
        left.toNat + sent.length = budget.toNat := by
  -- The first half is about one burst, and the second follows a run of them by what the budget loses.
  refine ⟨fun port listed => ?_, fun id budget limited later sent spends => ?_⟩
  · obtain ⟨nic, queue, rings, owned, found, opened⟩ := run.sound.there listed
    obtain ⟨-, tx⟩ := run.sound.holds found opened
    exact ⟨nic, queue, rings, owned, fun packets =>
      ⟨fun up => run.sound.txBurst_up owned up packets, fun down => txBurst_down owned down packets,
        Device.sendWithin_eq_split .., Device.sendWithin_eq_plain tx, rfl⟩⟩
  · exact (spends.spent (run.sound.setBudget id (some budget)) limited
      fun _ => t.budget?_setBudget id budget).2

/-- The device once both of its packets were received. -/
def pairTaken : Traffic :=
  pairFed.call (.rxBurst onlyPort 2)

/-- The device once one packet may be sent. -/
def pairGranted : Traffic :=
  pairTaken.call (.setBudget onlyId (some 1))

/-- The device once both packets were to be sent, and its port was closed and opened again. -/
def pairReopened : Traffic :=
  ((pairGranted.call (.txBurst onlyPort [⟨0, 0⟩, ⟨0, 1⟩])).call (.close onlyPort)).call
    (.openPort onlyId 4 4)

/-- The port that the second opening of the queue pair gives. -/
def secondPort : Port := ⟨0, onlyId, 2⟩

/-- Without a budget both packets are sent. Of a budget for one packet, the first port of the queue pair
sends one, and the port that it is opened again with sends nothing. -/
theorem bursts_affordable_reopened :
    pairTaken.Reachable ∧ onlyPort ∈ pairTaken.ports ∧
    (pairTaken.device.txBurst onlyPort [⟨0, 0⟩, ⟨0, 1⟩]).1 = 2 ∧
    let spent := pairReopened.call (.txBurst secondPort [⟨0, 1⟩])
    pairGranted.Spends onlyId spent [⟨0, 0⟩] ∧ spent.device.budget? onlyId = some 0 ∧
      (0 : UInt64).toNat + 1 = (1 : UInt64).toNat := by
  have pools : Ledger.Reachable pairMade.ledger := Ledger.Reachable.start.call (.make ..) trivial
  have start : pairMade.Reachable :=
    .start pools (by cbv : Device.make 0 { ports := 1 } = .ok pairMade.device)
  have fed : pairFed.Reachable :=
    (((start.call (.openPort ..) trivial).call (.inject ..) trivial).call (.inject ..) trivial).call
      (.inject ..) trivial
  have listed : onlyPort ∈ pairFed.ports := by
    rw [show pairFed.ports = [onlyPort] by cbv]
    exact List.mem_cons_self
  have run : pairTaken.Reachable := fed.call (.rxBurst onlyPort 2) listed
  obtain ⟨bursts, budgets⟩ := bursts_affordable run
  have free : (pairTaken.device.txBurst onlyPort [⟨0, 0⟩, ⟨0, 1⟩]).1 = 2 := by
    obtain ⟨nic, queue, rings, owned, burst⟩ := bursts onlyPort listed
    have there : (pairTaken.device.owned? onlyPort).map
        (fun found => (found.1.linkUp, found.2.1.budget, found.2.2.tx.freeCount)) =
        some (true, unlimited, 4) := by cbv
    rw [owned, Option.map_some, Option.some.injEq, Prod.mk.injEq, Prod.mk.injEq] at there
    obtain ⟨up, budget, room⟩ := there
    obtain ⟨_, _, -, -, sent⟩ := (burst [⟨0, 0⟩, ⟨0, 1⟩]).1 up
    rw [sent, budget, room]
    rfl
  -- Of two packets one is taken, and the other is not even once the port was opened again.
  have granted : pairGranted.Spends onlyId pairGranted [] := .start
  have first := granted.call (.txBurst onlyPort [⟨0, 0⟩, ⟨0, 1⟩])
    ⟨mem_ports_call listed TrafficCall.noConfusion, by
      rw [show pairGranted.ledger.packets = [⟨0, 0⟩, ⟨0, 1⟩] by cbv]⟩
    fun _ => TrafficCall.noConfusion
  have closed := first.call (.close onlyPort)
    (mem_ports_call (mem_ports_call listed TrafficCall.noConfusion) TrafficCall.noConfusion)
    fun _ => TrafficCall.noConfusion
  have reopened := closed.call (.openPort onlyId 4 4) trivial fun _ => TrafficCall.noConfusion
  have second := reopened.call (.txBurst secondPort [⟨0, 1⟩])
    ⟨by
      show secondPort ∈ pairReopened.ports
      rw [show pairReopened.ports = [secondPort] by cbv]
      exact List.mem_cons_self, by
      show [⟨0, 1⟩].Subperm pairReopened.ledger.packets
      rw [show pairReopened.ledger.packets = [⟨0, 1⟩] by cbv]⟩
    fun _ => TrafficCall.noConfusion
  have spends : pairGranted.Spends onlyId (pairReopened.call (.txBurst secondPort [⟨0, 1⟩]))
      [⟨0, 0⟩] := by
    convert second using 1
    · rfl
    · symm
      cbv
  have left : (pairReopened.call (.txBurst secondPort [⟨0, 1⟩])).device.budget? onlyId = some 0 := by
    cbv
  exact ⟨run, listed, free, spends, left, (budgets onlyId 1 (by decide) _ _ spends).2 0 left⟩

end Traffic

end PacketPlane
