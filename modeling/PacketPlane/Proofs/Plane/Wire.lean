import PacketPlane.Proofs.Buffer.Frames
import PacketPlane.Proofs.Plane.Moves

/-! The wire: what delivering frames, taking packets off, and changing links and budgets do to the
places of a plane and to its buffers. -/

namespace PacketPlane

/-- A packet that bytes were copied to can have its port set as well. -/
theorem Buffers.performAll_copied {b written : Buffers} {packet : Packet} {frame : List UInt8}
    (copied : b.copy packet frame = (true, written)) (port : UInt16) :
    b.performAll packet [.copy frame, .setPort port] = (written.setPort packet port).2 := by
  -- The port is set in the buffers that copying has left.
  simp only [performAll, List.foldl_cons, List.foldl_nil, perform, copied]

namespace Ledger

variable {l : Ledger} {pool : Nat} {packet : Packet} {b : Buffers}

/-- A packet that was allocated is new to everybody, and whatever its holder does to it shows in no
other. -/
theorem Reachable.allocated (run : l.Reachable) (handed : l.buffers.alloc pool = .ok (packet, b))
    (edits : List Edit) :
    let later : Ledger :=
      { l with buffers := b.performAll packet edits, packets := packet :: l.packets }
    later.Reachable ∧
      ∀ other ∈ l.packets, later.buffers.capture other = l.buffers.capture other := by
  -- Nothing referred to the packet before, so no packet that somebody holds is the same.
  intro later
  refine ⟨run.later (.allocated handed edits), ?_⟩
  intro other listed
  have held := run.sound.refcount_pos (List.mem_append_left _ listed)
  have touches := (Buffers.alloc_touches handed).trans (b.performAll_touches packet edits)
  apply touches.capture run.fits held
  have settled : l.buffers.Balanced 0 [] := Buffers.balanced_nil.mpr run.sound.settled
  have idle := (Buffers.alloc_trades settled handed).1
  have apart : other ≠ packet := by
    rintro rfl
    omega
  simpa using apart

/-- A packet that was allocated may be given back at once. -/
theorem Reachable.allocated_given (run : l.Reachable)
    (handed : l.buffers.alloc pool = .ok (packet, b)) (edits : List Edit) :
    let later : Ledger := { l with buffers := (b.performAll packet edits).release packet }
    later.Reachable ∧
      ∀ other ∈ l.packets, later.buffers.capture other = l.buffers.capture other := by
  -- Giving it back touches no packet, so the others look as after the edits.
  intro later
  obtain ⟨reached, captures⟩ := run.allocated handed edits
  refine ⟨run.later (.allocated_given handed edits), ?_⟩
  intro other listed
  rw [← captures other listed]
  exact reached.capture_touches (List.mem_cons_of_mem _ listed) (Buffers.release_touches _ packet)

end Ledger

namespace Device

variable {d d' : Device} {id : PortId} {nic : Nic} {queue queue' : Queue} {rings : QueueRings}

/-- A network port that is found is the one under its number. -/
theorem nic_eq_ok {device : UInt16} (found : d.nic device = .ok nic) :
    d.nics[device.toNat]? = some nic := by
  -- Only a number without network port is refused.
  rw [Device.nic] at found
  split at found
  · cases found
  · rename_i there
    rw [there, Except.ok.inj found]

/-- A queue that is found is the one under its numbers. -/
theorem queue_eq_ok (found : d.queue id = .ok (nic, queue)) :
    d.nics[id.device.toNat]? = some nic ∧ nic.queues[id.queue.toNat]? = some queue := by
  -- Only numbers without network port or without queue are refused.
  rw [Device.queue] at found
  split at found
  · cases found
  · rename_i there
    split at found
    · cases found
    · rename_i inner
      cases found
      exact ⟨nic_eq_ok there, inner⟩

/-- An open queue is owned by the port of its opening. -/
theorem owned?_of_queue (found : d.queue id = .ok (nic, queue)) (opened : queue.rings = some rings)
    (number : Nat) : d.owned? ⟨number, id, rings.opening⟩ = some (nic, queue, rings) := by
  -- The rings found are of the opening that the port names.
  simp only [owned?, found, opened, if_true]

/-- A queue that keeps its rings keeps the rings of every port. -/
theorem rings?_setQueue_same (found : d.queue id = .ok (nic, queue))
    (kept : queue'.rings = queue.rings) (other : Port) :
    (d.setQueue id nic queue').rings? other = d.rings? other := by
  -- A port of that queue finds the same rings, and every other port another queue.
  obtain ⟨device, inner⟩ := queue_eq_ok found
  have first := (Array.getElem?_eq_some_iff.mp device).1
  have second := (Array.getElem?_eq_some_iff.mp inner).1
  rw [rings?_eq, rings?_eq, setQueue, setNic, Array.getElem?_setIfInBounds]
  by_cases sameDevice : id.device.toNat = other.id.device.toNat
  · rw [← sameDevice, device]
    simp only [first, if_true, Option.bind_some, Array.getElem?_setIfInBounds]
    by_cases sameQueue : id.queue.toNat = other.id.queue.toNat
    · rw [← sameQueue, inner]
      simp [second, kept]
    · simp [sameQueue]
  · simp [sameDevice]

/-- A queue whose rings were replaced has these, and all others keep theirs. -/
theorem rings?_setQueue_cases (found : d.queue id = .ok (nic, queue))
    (now : queue'.rings = some rings) :
    (∀ number, (d.setQueue id nic queue').rings? ⟨number, id, rings.opening⟩ = some rings) ∧
      ∀ (other : Port) (r : QueueRings), (d.setQueue id nic queue').rings? other = some r →
        r = rings ∨ d.rings? other = some r := by
  -- A port of that queue finds the new rings or none, and every other port another queue.
  obtain ⟨device, inner⟩ := queue_eq_ok found
  have first := (Array.getElem?_eq_some_iff.mp device).1
  have second := (Array.getElem?_eq_some_iff.mp inner).1
  constructor
  · intro number
    simp [rings?_eq, setQueue, setNic, first, second, now]
  · intro other r there
    rw [rings?_eq, setQueue, setNic, Array.getElem?_setIfInBounds] at there
    rw [rings?_eq]
    by_cases sameDevice : id.device.toNat = other.id.device.toNat
    · rw [← sameDevice] at there ⊢
      simp only [first, if_true, Option.bind_some, Array.getElem?_setIfInBounds] at there
      by_cases sameQueue : id.queue.toNat = other.id.queue.toNat
      · left
        rw [← sameQueue] at there
        simp only [second, if_true, Option.bind_some, now] at there
        split at there
        · exact (Option.some.inj there).symm
        · cases there
      · right
        rw [if_neg sameQueue] at there
        rw [device]
        exact there
    · right
      rwa [if_neg sameDevice] at there

/-- A port that was just opened owns rings that are empty, on a queue that was closed. -/
theorem openPort_cases {number rxDescriptors txDescriptors : Nat} {port : Port}
    (opened : d.openPort number id rxDescriptors txDescriptors = .ok (port, d')) :
    ∃ nic queue rings, d.queue id = .ok (nic, queue) ∧ queue.rings = none ∧
      rings.rx.Holds [] ∧ rings.tx.Holds [] ∧ port = ⟨number, id, rings.opening⟩ ∧
      d' = d.setQueue id nic { queue with rings := some rings, openings := rings.opening } := by
  -- Every check that refuses an opening is passed, and both rings were made.
  rw [openPort] at opened
  split at opened
  · cases opened
  · rename_i nic queue found
    split at opened
    · cases opened
    · rename_i idle
      split at opened
      · cases opened
      · rename_i rx madeRx
        split at opened
        · cases opened
        · rename_i tx madeTx
          cases opened
          refine ⟨nic, queue, ⟨queue.openings + 1, rx, tx⟩, found, by simpa using idle,
            Ring.holds_make madeRx, Ring.holds_make madeTx, rfl, rfl⟩

/-- A link brought up or down leaves the rings of every port. -/
theorem rings?_setLink {device : UInt16} {up : Bool} (done : d.setLink device up = .ok d')
    (other : Port) : d'.rings? other = d.rings? other := by
  -- Queues stay, whether the link goes up or down.
  rw [setLink] at done
  split at done
  · cases done
  · rename_i found
    cases done
    apply rings?_setNic (nic_eq_ok found)
    split <;> rfl

/-- A budget leaves the rings of every port. -/
theorem rings?_setBudget {budget : Option UInt64} (done : d.setBudget id budget = .ok d')
    (other : Port) : d'.rings? other = d.rings? other := by
  -- The queue keeps its rings.
  rw [setBudget] at done
  split at done
  · cases done
  · rename_i found
    cases done
    exact rings?_setQueue_same found (by rfl) other

/-- Whether a frame finds an open queue and a link, but no buffer. -/
def starved (d : Device) (b : Buffers) (id : PortId) : Bool :=
  match d.queue id with
  | .error _ => false
  | .ok (nic, queue) => queue.rings.isSome && nic.linkUp && (b.alloc d.pool).toOption.isNone

/-- What becomes of a frame that the wire delivers to a queue: it is missed without or with a buffer,
it finds no buffer, or it is received. -/
inductive Injects (d : Device) (b : Buffers) (id : PortId) (frame : List UInt8) (nic : Nic)
    (queue : Queue) : Bool → Device → Buffers → Prop
  | missed (fed : d.starved b id = false) :
    Injects d b id frame nic queue false (d.setNic id.device nic.miss) b
  | starved (hungry : d.starved b id = true) :
    Injects d b id frame nic queue false (d.setNic id.device
      ((nic.count fun c => { c with rxNoBuffer := c.rxNoBuffer + 1 }).report .noBuffer)) b
  | dropped {packet : Packet} {after : Buffers} (edits : List Edit) (fed : d.starved b id = false)
    (handed : b.alloc d.pool = .ok (packet, after)) :
    Injects d b id frame nic queue false (d.setNic id.device nic.miss)
      ((after.performAll packet edits).release packet)
  | received {packet : Packet} {after written : Buffers} {rings : QueueRings} {rx : Ring Packet}
    (fed : d.starved b id = false) (linked : nic.linkUp = true)
    (handed : b.alloc d.pool = .ok (packet, after))
    (copied : after.copy packet frame = (true, written)) (opened : queue.rings = some rings)
    (put : rings.rx.enqueue packet = .ok rx) :
    Injects d b id frame nic queue true
      (d.setQueue id nic { queue with rings := some { rings with rx } })
      (written.setPort packet id.device).2

/-- Every frame that is delivered to a queue meets one of these ends. -/
theorem inject_cases {b b' : Buffers} {received : Bool} {frame : List UInt8}
    (delivered : d.inject b id frame = .ok (received, d', b')) :
    ∃ nic queue, d.queue id = .ok (nic, queue) ∧
      d.Injects b id frame nic queue received d' b' := by
  -- By following the frame: to the network port, into a packet, and onto the ring.
  rw [inject] at delivered
  cases found : d.queue id with
  | error fault => simp [found] at delivered
  | ok pair =>
    obtain ⟨nic, queue⟩ := pair
    refine ⟨nic, queue, rfl, ?_⟩
    simp only [found] at delivered
    split at delivered
    · rename_i closed
      cases delivered
      exact .missed (by simp [starved, found, closed])
    · rename_i rings opened
      split at delivered
      · rename_i down
        cases delivered
        exact .missed (by simp_all [starved])
      · rename_i up
        have linked : nic.linkUp = true := by simpa using up
        split at delivered
        · rename_i none
          cases delivered
          exact .starved (by simp [starved, found, opened, linked, none, Except.toOption])
        · -- The pool gave a packet, so the frame does not count as starved from here on.
          rename_i packet after handed
          have fed : d.starved b id = false := by
            simp [starved, found, handed, Except.toOption]
          split at delivered
          · -- A frame that does not fit its packet, or a packet that does not fit the ring, is
            -- dropped.
            rename_i written copied
            cases delivered
            have same : after.performAll packet [.copy frame] = written := by
              simp [Buffers.performAll, Buffers.perform, copied]
            rw [← same]
            exact .dropped _ fed handed
          · rename_i written copied
            split at delivered
            · rename_i refused
              obtain ⟨⟩ := Ring.enqueue_error refused
              cases delivered
              rw [← Buffers.performAll_copied copied]
              exact .dropped _ fed handed
            · rename_i rx put
              cases delivered
              exact .received fed linked handed copied opened put

/-- A frame that is lost leaves the rings of every port, and no packet behind. -/
theorem inject_false {l : Ledger} (run : l.Reachable) {b : Buffers} {frame : List UInt8}
    (lost : d.inject l.buffers id frame = .ok (false, d', b)) :
    (∀ port, d'.rings? port = d.rings? port) ∧ ({ l with buffers := b } : Ledger).Reachable ∧
      ∀ other ∈ l.packets, b.capture other = l.buffers.capture other := by
  -- By cases on how the frame was lost: a packet that was taken for it is given back.
  obtain ⟨nic, queue, found, ends⟩ := inject_cases lost
  have kept : ∀ nic' : Nic, nic'.queues = nic.queues → ∀ port,
      (d.setNic id.device nic').rings? port = d.rings? port :=
    fun nic' same => rings?_setNic (queue_eq_ok found).1 same
  cases ends with
  | missed => exact ⟨kept _ rfl, run, fun _ _ => rfl⟩
  | starved => exact ⟨kept _ rfl, run, fun _ _ => rfl⟩
  | dropped edits fed handed => exact ⟨kept _ rfl, run.allocated_given handed edits⟩

/-- A frame that is received waits behind the others on the queue's receive ring, in a packet of its
own that looks like it and names the port. -/
theorem inject_true {l : Ledger} (run : l.Reachable) {b : Buffers} {frame : List UInt8}
    (received : d.inject l.buffers id frame = .ok (true, d', b)) :
    ∃ nic queue rings rx packet, d.queue id = .ok (nic, queue) ∧ queue.rings = some rings ∧
      rings.rx.enqueue packet = .ok rx ∧
      d' = d.setQueue id nic { queue with rings := some { rings with rx } } ∧
      ({ l with buffers := b, packets := packet :: l.packets } : Ledger).Reachable ∧
      (∀ other ∈ l.packets, b.capture other = l.buffers.capture other) ∧
      b.capture packet = ⟨id.device, 0, frame⟩ := by
  -- Only a frame that reached the ring is received, and its packet is held by nobody else.
  obtain ⟨nic, queue, found, ends⟩ := inject_cases received
  cases ends with
  | received fed linked handed copied opened put =>
    obtain ⟨reached, captures⟩ := run.allocated handed [.copy frame, .setPort id.device]
    have before := (run.allocated handed []).1
    simp only [Buffers.performAll_copied copied] at reached captures
    obtain ⟨looks, one⟩ := Buffers.capture_copy before.fits copied
    refine ⟨nic, queue, _, _, _, found, opened, put, rfl, reached, captures, ?_⟩
    rw [Buffers.capture_setPort one, looks]

end Device

namespace Plane

variable {p q : Plane} {number : Nat}

/-- A frame that is lost on the wire leaves every place, and no packet behind. -/
theorem inject_false {l : Ledger} (run : l.Reachable) (same : l.buffers = p.buffers) {id : PortId}
    {frame : List UInt8} (lost : p.inject number id frame = .ok (false, q)) :
    p.SameRings q ∧ ({ l with buffers := q.buffers } : Ledger).Reachable ∧
      (∀ other ∈ l.packets, q.buffers.capture other = p.buffers.capture other) ∧
      q.lives = p.lives := by
  -- The device is found, and what changed there concerns no ring.
  rw [inject] at lost
  cases found : p.device? number with
  | none => simp [found] at lost
  | some d =>
    cases injected : d.inject p.buffers id frame with
    | error fault => simp [found, injected] at lost
    | ok outcome =>
      obtain ⟨received, d', b⟩ := outcome
      simp only [found, injected, Except.ok.injEq, Prod.mk.injEq] at lost
      obtain ⟨rfl, rfl⟩ := lost
      rw [← same] at injected
      obtain ⟨kept, reached, captures⟩ := Device.inject_false run injected
      rw [same] at captures
      refine ⟨?_, reached, captures, rfl⟩
      have buffered : Plane.SameRings p { p with buffers := b } := Plane.SameRings.congr rfl rfl rfl
      have replaced := setDevice_same (p := { p with buffers := b }) found kept
      exact ⟨fun place => (replaced.places place).trans (buffered.places place), fun _ => rfl⟩

/-- A frame that is received on the wire waits on the receive ring of the port that is open there, in
a packet of its own that looks like it and names the port. -/
theorem inject_true {l : Ledger} (run : l.Reachable) (same : l.buffers = p.buffers) {id : PortId}
    {frame : List UInt8} (received : p.inject number id frame = .ok (true, q)) :
    ∃ packet opening,
      ({ p with buffers := q.buffers } : Plane).Puts q (.received ⟨number, id, opening⟩) [packet] ∧
      ({ l with buffers := q.buffers, packets := packet :: l.packets } : Ledger).Reachable ∧
      (∀ other ∈ l.packets, q.buffers.capture other = p.buffers.capture other) ∧
      q.buffers.capture packet = ⟨id.device, 0, frame⟩ := by
  -- The device is found, and its queue has one ring replaced.
  rw [inject] at received
  cases found : p.device? number with
  | none => simp [found] at received
  | some d =>
    cases injected : d.inject p.buffers id frame with
    | error fault => simp [found, injected] at received
    | ok outcome =>
      obtain ⟨received', d', b⟩ := outcome
      simp only [found, injected, Except.ok.injEq, Prod.mk.injEq] at received
      obtain ⟨rfl, rfl⟩ := received
      rw [← same] at injected
      obtain ⟨nic, queue, rings, rx, packet, looked, opened, put, rfl, reached, captures, looks⟩ :=
        Device.inject_true run injected
      rw [same] at captures
      refine ⟨packet, rings.opening, ?_, reached, captures, looks⟩
      let port : Port := ⟨number, id, rings.opening⟩
      let r : Plane := { p with buffers := b }
      have owned : d.owned? port = some (nic, queue, rings) :=
        Device.owned?_of_queue looked opened number
      have there : r.device? port.device = some d := found
      have here : r.ringAt? (.received port) = some rings.rx := by
        simp [ringAt?, there, Device.rings?, owned]
      refine Puts.of_replaces (setQueue_replaces_received there owned (by rfl) rx (by rfl)) rfl here ?_
      exact fun items held => held.enqueue_holds put

/-- Something done to a device that leaves the rings of every port leaves every place. -/
theorem onDevice_same {action : Device → Except Fault (α × Device)} {result : α}
    (kept : ∀ d d' result, action d = .ok (result, d') → ∀ port, d'.rings? port = d.rings? port)
    (done : p.onDevice number action = .ok (result, q)) :
    q.toSurroundings = p.toSurroundings ∧ p.SameRings q := by
  -- Neither the device nor what is done to it was refused.
  rw [onDevice] at done
  split at done
  · cases done
  · rename_i d found
    split at done
    · cases done
    · rename_i d' acted
      cases done
      exact ⟨rfl, setDevice_same found (kept d d' _ acted)⟩

/-- Packets taken off an open port are pulled off its transmit ring. -/
theorem drainTx_pulls {port : Port} (opened : (p.ringAt? (.sending port)).isSome) {limit : Nat}
    {packets : List Packet}
    (drained : p.onDevice port.device (·.drainTx port.id limit) = .ok (packets, q)) :
    p.Pulls q (.sending port) packets := by
  -- The port is open, so the device and the queue are there, and the queue is its own.
  rw [onDevice] at drained
  cases found : p.device? port.device with
  | none => simp [found] at drained
  | some d =>
    cases owned : d.owned? port with
    | none => simp [ringAt?, found, Device.rings?, owned] at opened
    | some held =>
      obtain ⟨nic, queue, rings⟩ := held
      have here : p.ringAt? (.sending port) = some rings.tx := by
        simp [ringAt?, found, Device.rings?, owned]
      obtain ⟨device, inner, running, -⟩ := Device.owned?_eq_some owned
      have looked : d.queue port.id = .ok (nic, queue) := by
        simp only [Device.queue, Device.nic, device, inner]
      simp only [found, Device.drainTx, looked, running] at drained
      cases drained
      exact Pulls.of_replaces (setQueue_replaces_sending found owned (by rfl) _ (by rfl)) rfl here
        (removed_dequeueBulk rings.tx limit)

end Plane

end PacketPlane
