import PacketPlane.Proofs.Device.Waiting

/-! Traffic: a device and its callers, with books on what happened at each network port. -/

namespace PacketPlane

open scoped List

/-- What happened at one network port, counted from outside of the device. -/
structure Books where
  -- Frames that the wire delivered, and packets that it took.
  injected : Nat := 0
  drained : Nat := 0
  -- Packets that closings released from receive rings and from transmit rings.
  leftReceived : Nat := 0
  leftSending : Nat := 0
  -- Links brought down, errors raised, and attempts to send something without link.
  linkDowns : Nat := 0
  raised : Nat := 0
  barred : Nat := 0
  -- The latest of these errors and of frames that found no buffer.
  latest : Option DeviceCode := none

/-- A device in use: the buffers with what callers hold of them, the ports that are open, and the books
of all network ports. -/
structure Traffic where
  ledger : Ledger
  device : Device
  ports : List Port := []
  books : UInt16 → Books := fun _ => {}

/-- One call on a device, or on the pools behind it. -/
inductive TrafficCall where
  | pool (call : PoolCall)
  | openPort (id : PortId) (rxDescriptors txDescriptors : Nat)
  | close (port : Port)
  | inject (id : PortId) (frame : List UInt8)
  | rxBurst (port : Port) (limit : Nat)
  | txBurst (port : Port) (packets : List Packet)
  | drainTx (id : PortId) (limit : Nat)
  | setBudget (id : PortId) (budget : Option UInt64)
  | setLink (device : UInt16) (up : Bool)
  | raise (device : UInt16) (code : DeviceCode)

/-- Whether the network port under a number has no link. -/
def Device.linkless (d : Device) (device : UInt16) : Bool :=
  match d.nic device with
  | .error _ => false
  | .ok nic => !nic.linkUp

/-- A network port is without link when its link is down. -/
theorem Device.linkless_eq {d : Device} {device : UInt16} {nic : Nic}
    (found : d.nic device = .ok nic) : d.linkless device = !nic.linkUp := by
  simp only [linkless, found]

/-- What a call may do to a device: it leaves the device, changes a network port but none of its queues,
or replaces one queue. Only opening and closing change who has the queue, and only sending on it and
setting its budget change its budget. -/
inductive Device.Alters (d : Device) (c : TrafficCall) : Device → Prop
  | kept : Alters d c d
  | nic {device : UInt16} {nic nic' : Nic} (found : d.nic device = .ok nic)
    (queues : nic'.queues = nic.queues) : Alters d c (d.setNic device nic')
  | queue {id : PortId} {nic nic' : Nic} {queue queue' : Queue}
    (found : d.queue id = .ok (nic, queue)) (queues : nic'.queues = nic.queues)
    (opening : (∀ id rxDescriptors txDescriptors, c ≠ .openPort id rxDescriptors txDescriptors) →
      (∀ port, c ≠ .close port) →
      queue'.rings.map QueueRings.opening = queue.rings.map QueueRings.opening)
    (budget : (∀ port packets, c = .txBurst port packets → port.id ≠ id) →
      (∀ budget, c ≠ .setBudget id budget) → queue'.budget = queue.budget) :
    Alters d c (d.setQueue id nic' queue')

namespace Traffic

/-- The books after something happened at one network port. -/
def note (t : Traffic) (device : UInt16) (change : Books → Books) : UInt16 → Books := fun other =>
  if other = device then change (t.books other) else t.books other

/-- Everything that is held: what callers hold, and what waits on the device. -/
def whole (t : Traffic) : Ledger :=
  { t.ledger with packets := t.ledger.packets ++ t.device.waiting }

/-- What a caller may do: what a pool lets it do with its own packets, and on the device, whatever it
wants through the ports that are open. -/
def Permits (t : Traffic) : TrafficCall → Prop
  | .pool c => t.ledger.Permits c ∧ t.whole.Permits c
  | .close port | .rxBurst port _ => port ∈ t.ports
  | .txBurst port packets => port ∈ t.ports ∧ packets.Subperm t.ledger.packets
  | _ => True

/-- The traffic after a call. -/
def call (t : Traffic) : TrafficCall → Traffic
  -- A call that is refused changes nothing.
  | .pool c => { t with ledger := t.ledger.call c }
  | .openPort id rxDescriptors txDescriptors =>
    match t.device.openPort 0 id rxDescriptors txDescriptors with
    | .error _ => t
    | .ok (port, device) => { t with device, ports := port :: t.ports }
  | .close port =>
    let (left, device) := t.device.closePort port
    { ledger := { t.ledger with buffers := t.ledger.buffers.releaseAll left }
      device
      ports := t.ports.erase port
      books := t.note port.id.device fun b => { b with
        leftReceived := b.leftReceived + (t.device.rings? port).elim 0 (·.rx.toList.length)
        leftSending := b.leftSending + (t.device.rings? port).elim 0 (·.tx.toList.length) } }
  | .inject id frame =>
    match t.device.inject t.ledger.buffers id frame with
    | .error _ => t
    | .ok (_, device, buffers) =>
      { t with
        ledger := { t.ledger with buffers }
        device
        books := t.note id.device fun b => { b with
          injected := b.injected + 1
          latest := if t.device.starved t.ledger.buffers id then some .noBuffer else b.latest } }
  | .rxBurst port limit =>
    let (packets, device) := t.device.rxBurst port limit
    { t with ledger := { t.ledger with packets := packets ++ t.ledger.packets }, device }
  | .txBurst port packets =>
    let (_, rest, device) := t.device.txBurst port packets
    let barred := !packets.isEmpty && t.device.linkless port.id.device
    { t with
      ledger := { t.ledger with packets := rest ++ t.ledger.packets.diff packets }
      device
      books := t.note port.id.device fun b =>
        if barred then { b with barred := b.barred + 1, latest := some .linkDown } else b }
  | .drainTx id limit =>
    match t.device.drainTx id limit with
    | .error _ => t
    | .ok (packets, device) =>
      { t with
        ledger := { t.ledger with packets := packets ++ t.ledger.packets }
        device
        books := t.note id.device fun b => { b with drained := b.drained + packets.length } }
  | .setBudget id budget =>
    match t.device.setBudget id budget with
    | .error _ => t
    | .ok device => { t with device }
  | .setLink device up =>
    match t.device.setLink device up with
    | .error _ => t
    | .ok after =>
      { t with
        device := after
        books := t.note device fun b =>
          if up then b else { b with linkDowns := b.linkDowns + 1, latest := some .linkDown } }
  | .raise device code =>
    match t.device.raise device code with
    | .error _ => t
    | .ok after =>
      { t with
        device := after
        books := t.note device fun b => { b with raised := b.raised + 1, latest := some code } }

/-- A call on the pools changes what callers hold, and nothing on the device. -/
theorem call_pool (t : Traffic) (c : PoolCall) :
    t.call (.pool c) = { t with ledger := t.ledger.call c } := by
  simp only [call]

/-- Whatever is called, the device stays, a network port counts or reports something, or a queue pair is
replaced. -/
theorem alters_call (t : Traffic) (c : TrafficCall) : t.device.Alters c (t.call c).device := by
  -- By following each call to what it puts back; what answers with a fault puts nothing back.
  cases c with
  | pool c => exact .kept
  | openPort id rxDescriptors txDescriptors =>
    simp only [call]
    split
    · exact .kept
    · rename_i opened
      obtain ⟨nic, queue, rings, found, -, -, -, -, rfl⟩ := Device.openPort_cases opened
      exact .queue found rfl (fun opens _ => absurd rfl (opens _ _ _)) fun _ _ => rfl
  | close port =>
    simp only [call, Device.closePort]
    split
    · exact .kept
    · rename_i owned
      have found := (Device.queue_of_owned? owned).1
      exact .queue found rfl (fun _ closes => absurd rfl (closes _)) fun _ _ => rfl
  | inject id frame =>
    simp only [call]
    split
    · exact .kept
    · rename_i delivered
      obtain ⟨nic, queue, found, ends⟩ := Device.inject_cases delivered
      have there := (Device.queue_eq_ok_iff.mp found).1
      -- A frame that is lost changes counters alone.
      cases ends with
      | missed => exact .nic there rfl
      | starved => exact .nic there rfl
      | dropped => exact .nic there rfl
      | received fed linked handed copied opened put =>
        exact .queue found rfl (fun _ _ => by simp [opened]) fun _ _ => rfl
  | rxBurst port limit =>
    simp only [call, Device.rxBurst]
    split
    · exact .kept
    · rename_i owned
      obtain ⟨found, opened⟩ := Device.queue_of_owned? owned
      split
      · exact .kept
      · exact .queue found rfl (fun _ _ => by simp [opened]) fun _ _ => rfl
  | txBurst port packets =>
    simp only [call, Device.txBurst]
    split
    · exact .kept
    · split
      · exact .kept
      · rename_i owned
        obtain ⟨found, opened⟩ := Device.queue_of_owned? owned
        split
        · exact .nic (Device.queue_eq_ok_iff.mp found).1 rfl
        · -- A burst spends the budget of its own port.
          exact .queue found rfl (fun _ _ => by simp [opened])
            fun idle _ => absurd rfl (idle port packets rfl)
  | drainTx id limit =>
    simp only [call, Device.drainTx]
    cases found : t.device.queue id with
    | error fault => exact .kept
    | ok pair =>
      obtain ⟨nic, queue⟩ := pair
      cases opened : queue.rings with
      | none =>
        simp only [opened]
        exact .kept
      | some rings =>
        simp only [opened]
        exact .queue found rfl (fun _ _ => by simp [opened]) fun _ _ => rfl
  | setBudget id budget =>
    simp only [call, Device.setBudget]
    cases found : t.device.queue id with
    | error fault => exact .kept
    | ok pair => exact .queue found rfl (fun _ _ => rfl) fun _ kept => absurd rfl (kept budget)
  | setLink device up =>
    simp only [call, Device.setLink]
    cases found : t.device.nic device with
    | error fault => exact .kept
    | ok nic => exact .nic found (by cases up <;> rfl)
  | raise device code =>
    simp only [call, Device.raise]
    cases found : t.device.nic device with
    | error fault => exact .kept
    | ok nic => exact .nic found rfl

/-- Traffic that permitted calls lead to, on a device that was made over pools in any state. -/
inductive Reachable : Traffic → Prop
  | start {l : Ledger} {pool : Nat} {settings : DeviceSettings} {d : Device} (run : l.Reachable)
    (made : Device.make pool settings = .ok d) : Reachable { ledger := l, device := d }
  | call {t : Traffic} (run : Reachable t) (c : TrafficCall) (permitted : t.Permits c) :
    Reachable (t.call c)

end Traffic

/-- A network port whose counters and errors balance its books, with so many packets received and sent
that still wait: each frame that was injected was missed, found no buffer, was taken, waits, or was
left at a closing; each packet that was sent was drained, waits, or was left at a closing; and each
error is one of four kinds. -/
structure Nic.Balances (n : Nic) (received sending : Nat) (b : Books) : Prop where
  injected : UInt64.ofNat b.injected = n.counters.rxMissed + n.counters.rxNoBuffer +
    n.counters.rxPackets + UInt64.ofNat (received + b.leftReceived)
  sent : n.counters.txPackets = UInt64.ofNat (b.drained + sending + b.leftSending)
  errors : n.errors = n.counters.rxNoBuffer + UInt64.ofNat (b.linkDowns + b.raised + b.barred)
  latest : n.lastError = b.latest

/-- A network port that balances its books with what waits on its open queues. -/
def Nic.Accounts (n : Nic) (b : Books) : Prop :=
  n.Balances n.received.length n.sending.length b

end PacketPlane
