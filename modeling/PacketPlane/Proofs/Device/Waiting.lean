import PacketPlane.Proofs.Plane.Wire

/-! What waits on a device: the packets on the rings of its open queues, and how replacing a queue or
opening one changes them. -/

namespace PacketPlane

/-- An array with one entry replaced flattens to the same but for what that entry gives. -/
theorem flatMap_setIfInBounds_perm {α β : Type} (f : α → List β) {entries : Array α} {k : Nat}
    {old : α} (found : entries[k]? = some old) (new : α) :
    ((entries.setIfInBounds k new).toList.flatMap f ++ f old).Perm
      (entries.toList.flatMap f ++ f new) := by
  rw [Array.toList_setIfInBounds]
  exact flatMap_set_perm f (by simpa using found) new

namespace Queue

/-- Received packets that its owner has not taken yet. -/
def received (q : Queue) : List Packet :=
  -- A closed queue has none.
  (q.rings.map (·.rx.toList)).getD []

/-- Sent packets that the wire has not taken yet. -/
def sending (q : Queue) : List Packet :=
  -- A closed queue has none.
  (q.rings.map (·.tx.toList)).getD []

/-- All packets on the rings of a queue. -/
def waiting (q : Queue) : List Packet :=
  q.received ++ q.sending

/-- A queue whose rings hold what they list. -/
def AtRest (q : Queue) : Prop :=
  ∀ rings, q.rings = some rings →
    rings.rx.Holds rings.rx.toList ∧ rings.tx.Holds rings.tx.toList

variable {q : Queue} {rings : QueueRings}

/-- A queue with rings that hold these packets is at rest, and they wait there. -/
theorem of_rings (opened : q.rings = some rings) {received sending : List Packet}
    (rx : rings.rx.Holds received) (tx : rings.tx.Holds sending) :
    q.AtRest ∧ q.received = received ∧ q.sending = sending := by
  -- The rings of an open queue tell in which order what they hold waits.
  refine ⟨?_, ?_, ?_⟩
  · intro other same
    rw [opened, Option.some.injEq] at same
    rw [← same, rx.toList_eq, tx.toList_eq]
    exact ⟨rx, tx⟩
  · simp [Queue.received, opened, rx.toList_eq]
  · simp [Queue.sending, opened, tx.toList_eq]

/-- Nothing waits on a closed queue. -/
theorem of_closed (closed : q.rings = none) : q.AtRest ∧ q.received = [] ∧ q.sending = [] := by
  -- Without rings nothing can wait.
  refine ⟨?_, by simp [received, closed], by simp [sending, closed]⟩
  intro rings opened
  rw [closed] at opened
  cases opened

/-- Both rings of an open queue at rest hold what waits there. -/
theorem AtRest.holds (atRest : q.AtRest) (opened : q.rings = some rings) :
    rings.rx.Holds q.received ∧ rings.tx.Holds q.sending := by
  -- What waits is read off the very rings that are found.
  have same := atRest rings opened
  rw [received, sending, opened]
  exact same

end Queue

namespace Nic

/-- Received packets that wait on any queue of a network port. -/
def received (n : Nic) : List Packet :=
  n.queues.toList.flatMap Queue.received

/-- Sent packets that wait on any queue of a network port. -/
def sending (n : Nic) : List Packet :=
  n.queues.toList.flatMap Queue.sending

/-- All packets on the rings of a network port. -/
def waiting (n : Nic) : List Packet :=
  n.queues.toList.flatMap Queue.waiting

/-- A network port whose queues are at rest. -/
def AtRest (n : Nic) : Prop :=
  ∀ queue ∈ n.queues, queue.AtRest

/-- What waits on a network port depends on its queues alone. -/
theorem waiting_congr {n n' : Nic} (kept : n'.queues = n.queues) :
    n'.received = n.received ∧ n'.sending = n.sending ∧ n'.waiting = n.waiting := by
  simp only [received, sending, waiting, kept, and_self]

/-- Nothing waits on a network port whose queues are all closed. -/
theorem of_closed {n : Nic} (closed : ∀ queue ∈ n.queues, queue.rings = none) :
    n.AtRest ∧ n.received = [] ∧ n.sending = [] ∧ n.waiting = [] := by
  -- Queue by queue, none of which has anything waiting.
  have empty : ∀ queue ∈ n.queues.toList, queue.received = [] ∧ queue.sending = [] := by
    intro queue member
    exact (Queue.of_closed (closed queue (Array.mem_toList_iff.mp member))).2
  refine ⟨fun queue member => (Queue.of_closed (closed queue member)).1, ?_, ?_, ?_⟩
  · exact List.flatMap_eq_nil_iff.mpr fun queue member => (empty queue member).1
  · exact List.flatMap_eq_nil_iff.mpr fun queue member => (empty queue member).2
  · apply List.flatMap_eq_nil_iff.mpr
    intro queue member
    rw [Queue.waiting, (empty queue member).1, (empty queue member).2, List.append_nil]

/-- One queue of a network port replaced. -/
def withQueue (n : Nic) (number : UInt16) (queue : Queue) : Nic :=
  { n with queues := n.queues.setIfInBounds number.toNat queue }

variable {n : Nic} {number : UInt16} {queue : Queue}

/-- As many received packets wait as before, but for those of the queue that was replaced. -/
theorem received_withQueue (inner : n.queues[number.toNat]? = some queue) (queue' : Queue) :
    (n.withQueue number queue').received.length + queue.received.length =
      n.received.length + queue'.received.length := by
  -- All but the one queue give the same, so only lengths of that queue differ.
  have moved := (flatMap_setIfInBounds_perm Queue.received inner queue').length_eq
  rwa [List.length_append, List.length_append] at moved

/-- As many sent packets wait as before, but for those of the queue that was replaced. -/
theorem sending_withQueue (inner : n.queues[number.toNat]? = some queue) (queue' : Queue) :
    (n.withQueue number queue').sending.length + queue.sending.length =
      n.sending.length + queue'.sending.length := by
  -- All but the one queue give the same, so only lengths of that queue differ.
  have moved := (flatMap_setIfInBounds_perm Queue.sending inner queue').length_eq
  rwa [List.length_append, List.length_append] at moved

/-- The same packets wait as before, but for those of the queue that was replaced. -/
theorem waiting_withQueue (inner : n.queues[number.toNat]? = some queue) (queue' : Queue) :
    ((n.withQueue number queue').waiting ++ queue.waiting).Perm (n.waiting ++ queue'.waiting) :=
  flatMap_setIfInBounds_perm Queue.waiting inner queue'

/-- A network port stays at rest when the queue that is new there is at rest. -/
theorem AtRest.withQueue (atRest : n.AtRest) (still : queue.AtRest) :
    (n.withQueue number queue).AtRest := by
  -- A queue of the new network port is an older one or the new one.
  intro other member
  obtain older | rfl := Array.mem_or_eq_of_mem_setIfInBounds member
  · exact atRest other older
  · exact still

end Nic

namespace Device

/-- All packets on the rings of a device. -/
def waiting (d : Device) : List Packet :=
  d.nics.toList.flatMap Nic.waiting

variable {d : Device} {device : UInt16} {id : PortId} {nic nic' : Nic} {queue : Queue}
  {rings : QueueRings}

/-- A network port that is found is the one under its number, and no other. -/
theorem nic_eq_ok_iff : d.nic device = .ok nic ↔ d.nics[device.toNat]? = some nic := by
  refine ⟨nic_eq_ok, fun there => ?_⟩
  rw [Device.nic, there]

/-- A network port that was replaced is found in its place, and the others as before. -/
theorem nic_setNic (found : d.nic device = .ok nic) (other : UInt16) :
    (d.setNic device nic').nic other = if other = device then .ok nic' else d.nic other := by
  -- Numbers that differ as words differ as naturals.
  have inside := (Array.getElem?_eq_some_iff.mp (nic_eq_ok found)).1
  rw [Device.nic, Device.nic, setNic, Array.getElem?_setIfInBounds]
  by_cases same : other = device
  · subst same
    simp [inside]
  · have apart : device.toNat ≠ other.toNat := fun equal => same (UInt16.toNat_inj.mp equal.symm)
    rw [if_neg apart, if_neg same]

/-- The same packets wait as before, but for those of the network port that was replaced. -/
theorem waiting_setNic (found : d.nic device = .ok nic) (nic' : Nic) :
    ((d.setNic device nic').waiting ++ nic.waiting).Perm (d.waiting ++ nic'.waiting) :=
  flatMap_setIfInBounds_perm Nic.waiting (nic_eq_ok found) nic'

/-- A queue that is found is one of its network port's. -/
theorem queue_eq_ok_iff : d.queue id = .ok (nic, queue) ↔
    d.nic id.device = .ok nic ∧ nic.queues[id.queue.toNat]? = some queue := by
  -- A queue is found just if its network port is, and it is there.
  constructor
  · intro found
    obtain ⟨device, inner⟩ := queue_eq_ok found
    exact ⟨nic_eq_ok_iff.mpr device, inner⟩
  · rintro ⟨device, inner⟩
    rw [Device.queue, device]
    simp only [inner]

/-- What a port owns is an open queue. -/
theorem queue_of_owned? {port : Port} (owned : d.owned? port = some (nic, queue, rings)) :
    d.queue port.id = .ok (nic, queue) ∧ queue.rings = some rings := by
  obtain ⟨there, inner, opened, -⟩ := owned?_eq_some owned
  exact ⟨queue_eq_ok_iff.mpr ⟨nic_eq_ok_iff.mpr there, inner⟩, opened⟩

/-- The same packets wait as before, but for those of the queue that was replaced. -/
theorem waiting_setQueue (found : d.queue id = .ok (nic, queue)) (kept : nic'.queues = nic.queues)
    (queue' : Queue) :
    ((d.setQueue id nic' queue').waiting ++ queue.waiting).Perm (d.waiting ++ queue'.waiting) := by
  obtain ⟨device, inner⟩ := queue_eq_ok_iff.mp found
  have outside := waiting_setNic device (nic'.withQueue id.queue queue')
  have inside : ((nic'.withQueue id.queue queue').waiting ++ queue.waiting).Perm
      (nic.waiting ++ queue'.waiting) := by
    rw [← (Nic.waiting_congr kept).2.2]
    exact Nic.waiting_withQueue (kept ▸ inner) queue'
  -- What the network port has in both steps cancels.
  rw [List.perm_iff_count]
  intro packet
  have first := outside.count_eq packet
  have second := inside.count_eq packet
  simp only [List.count_append] at first second ⊢
  show (d.setNic id.device (nic'.withQueue id.queue queue')).waiting.count packet + _ = _
  omega

/-- New rings of the same opening leave every port open that was. -/
theorem isSome_rings?_setQueue (found : d.queue id = .ok (nic, queue))
    (opened : queue.rings = some rings) (kept : nic'.queues = nic.queues) {queue' : Queue}
    {rings' : QueueRings} (now : queue'.rings = some rings')
    (opening : rings'.opening = rings.opening) {port : Port} (there : (d.rings? port).isSome) :
    ((d.setQueue id nic' queue').rings? port).isSome := by
  -- A port looks for rings of its own opening, and that stays.
  rw [rings?_setQueue (owned?_of_queue found opened 0) kept now opening]
  split
  · rfl
  · exact there

/-- A queue that is replaced leaves the rings of every port of other queues. -/
theorem rings?_setQueue_of_ne (found : d.queue id = .ok (nic, queue))
    (kept : nic'.queues = nic.queues) {queue' : Queue} {other : Port} (apart : other.id ≠ id) :
    (d.setQueue id nic' queue').rings? other = d.rings? other := by
  -- Another queue differs by its network port or by its number on the same one.
  obtain ⟨device, inner⟩ := queue_eq_ok found
  have first := (Array.getElem?_eq_some_iff.mp device).1
  rw [rings?_eq, rings?_eq, setQueue, setNic, Array.getElem?_setIfInBounds]
  by_cases sameDevice : id.device.toNat = other.id.device.toNat
  · have elsewhere : id.queue.toNat ≠ other.id.queue.toNat := fun sameQueue =>
      apart (PortId.eq_of_toNat sameDevice sameQueue).symm
    rw [if_pos sameDevice, if_pos first, ← sameDevice, device, Option.bind_some, Option.bind_some,
      Array.getElem?_setIfInBounds, if_neg elsewhere, kept]
  · rw [if_neg sameDevice]

end Device

end PacketPlane
