import PacketPlane.Plane.Basic
import PacketPlane.Ring.Lemmas

/-! Places: where packets wait on a plane, and what pulling and putting does to each of them. -/

namespace PacketPlane

/-- Somewhere that packets wait on a ring. -/
inductive Place where
  | ring (number : Nat)
  | received (port : Port)
  | sending (port : Port)
  | tap (number : Nat)
deriving DecidableEq, Repr

/-- Queue pairs with the same numbers are the same. -/
theorem PortId.eq_of_toNat {id other : PortId} (device : id.device.toNat = other.device.toNat)
    (queue : id.queue.toNat = other.queue.toNat) : id = other := by
  -- Words are the same just if their numbers are.
  cases id
  cases other
  rw [PortId.mk.injEq]
  exact ⟨UInt16.toNat_inj.mp device, UInt16.toNat_inj.mp queue⟩

namespace Device

variable {d : Device} {port : Port} {nic : Nic} {queue : Queue} {rings : QueueRings}

/-- The rings that a port has the right to use. -/
def rings? (d : Device) (port : Port) : Option QueueRings :=
  -- The port and queue around them do not matter.
  (d.owned? port).map fun owned => owned.2.2

/-- What a port owns is an open queue of its own opening. -/
theorem owned?_eq_some (owned : d.owned? port = some (nic, queue, rings)) :
    d.nics[port.id.device.toNat]? = some nic ∧ nic.queues[port.id.queue.toNat]? = some queue ∧
      queue.rings = some rings ∧ rings.opening = port.opening := by
  -- The queue, its rings and their opening are looked at in turn, and all have to be right.
  rw [owned?] at owned
  cases found : d.queue port.id with
  | error fault => simp [found] at owned
  | ok pair =>
    simp only [found] at owned
    cases opened : pair.2.rings with
    | none => simp [opened] at owned
    | some held =>
      simp only [opened] at owned
      split at owned
      · rename_i own
        cases owned
        rw [Device.queue, Device.nic] at found
        cases device : d.nics[port.id.device.toNat]? with
        | none => simp [device] at found
        | some n =>
          simp only [device] at found
          cases inner : n.queues[port.id.queue.toNat]? with
          | none => simp [inner] at found
          | some q =>
            simp only [inner, Except.ok.injEq] at found
            obtain ⟨rfl, rfl⟩ := found
            exact ⟨rfl, inner, opened, own⟩
      · cases owned

/-- The rings of a port, looked up step by step. -/
theorem rings?_eq (d : Device) (port : Port) :
    d.rings? port = (d.nics[port.id.device.toNat]?).bind fun nic =>
      (nic.queues[port.id.queue.toNat]?).bind fun queue =>
        queue.rings.bind fun rings =>
          if rings.opening = port.opening then some rings else none := by
  -- By cases on the network port, the queue and its rings, each of which may be missing.
  rw [rings?, owned?, Device.queue, Device.nic]
  cases d.nics[port.id.device.toNat]? with
  | none => rfl
  | some nic =>
    simp only [Option.bind_some]
    cases nic.queues[port.id.queue.toNat]? with
    | none => rfl
    | some queue =>
      simp only [Option.bind_some]
      cases queue.rings with
      | none => rfl
      | some rings =>
        simp only [Option.bind_some]
        split <;> rfl

/-- A network port that keeps its queues keeps the rings of every port. -/
theorem rings?_setNic {device : UInt16} (found : d.nics[device.toNat]? = some nic) {nic' : Nic}
    (kept : nic'.queues = nic.queues) (other : Port) :
    (d.setNic device nic').rings? other = d.rings? other := by
  -- The network port is the one that was replaced, which has the same queues, or another.
  have inside := (Array.getElem?_eq_some_iff.mp found).1
  rw [rings?_eq, rings?_eq, setNic, Array.getElem?_setIfInBounds]
  by_cases same : device.toNat = other.id.device.toNat
  · rw [← same, found]
    simp [inside, kept]
  · simp [same]

/-- New rings in the place of those that a port owns are its own, and no other port notices. -/
theorem rings?_setQueue (owned : d.owned? port = some (nic, queue, rings)) {nic' : Nic}
    (kept : nic'.queues = nic.queues) {queue' : Queue} {rings' : QueueRings}
    (now : queue'.rings = some rings') (opening : rings'.opening = rings.opening)
    (other : Port) :
    (d.setQueue port.id nic' queue').rings? other =
      if other.id = port.id ∧ other.opening = port.opening then some rings'
      else d.rings? other := by
  -- A port differs from this one by its network port, its queue or its opening.
  obtain ⟨device, inner, opened, own⟩ := owned?_eq_some owned
  have first := (Array.getElem?_eq_some_iff.mp device).1
  have second := (Array.getElem?_eq_some_iff.mp inner).1
  rw [rings?_eq, rings?_eq, setQueue, setNic, Array.getElem?_setIfInBounds]
  by_cases sameDevice : port.id.device.toNat = other.id.device.toNat
  · rw [← sameDevice, device]
    simp only [first, if_true, Option.bind_some, Array.getElem?_setIfInBounds, kept]
    by_cases sameQueue : port.id.queue.toNat = other.id.queue.toNat
    · -- The same queue belongs to one opening only.
      have sameId : other.id = port.id := (PortId.eq_of_toNat sameDevice sameQueue).symm
      rw [← sameQueue, inner]
      simp only [second, if_true, Option.bind_some, now, opened, opening, own, sameId, true_and]
      by_cases current : port.opening = other.opening
      · simp [current]
      · simp [current, Ne.symm current]
    · have apart : other.id ≠ port.id := by
        rintro same
        exact sameQueue (by rw [same])
      simp [sameQueue, apart]
  · have apart : other.id ≠ port.id := by
      rintro same
      exact sameDevice (by rw [same])
    simp [sameDevice, apart]

end Device

namespace Plane

/-- The ring at a place. -/
def ringAt? (p : Plane) : Place → Option (Ring Packet)
  -- A port has rings only while it is open.
  | .ring number => p.ring? number
  | .received port => ((p.device? port.device).bind (·.rings? port)).map QueueRings.rx
  | .sending port => ((p.device? port.device).bind (·.rings? port)).map QueueRings.tx
  | .tap number => (p.tap? number).map Tap.ring

/-- The packets that wait at a place, oldest first. -/
def contents (p : Plane) (place : Place) : List Packet :=
  -- Nothing waits where there is no ring.
  ((p.ringAt? place).map Ring.toList).getD []

/-- A plane on which no caller is at work on a ring. -/
def AtRest (p : Plane) : Prop :=
  ∀ place r, p.ringAt? place = some r → ∃ items, r.Holds items

/-- How many holders a ring has left. -/
def holders? (p : Plane) (number : Nat) : Option Nat :=
  -- A ring that does not exist has none to count.
  p.rings[number]?.map Held.holders

/-- Planes that have the same ring at every place, and the same holders of every ring. -/
structure SameRings (before after : Plane) : Prop where
  places : ∀ place, after.ringAt? place = before.ringAt? place
  holders : ∀ number, after.holders? number = before.holders? number

/-- A plane on which the ring at one place has been replaced. -/
structure Replaces (before after : Plane) (place : Place) (r : Ring Packet) : Prop where
  here : after.ringAt? place = some r
  elsewhere : ∀ other, other ≠ place → after.ringAt? other = before.ringAt? other
  holders : ∀ number, after.holders? number = before.holders? number

variable {before after : Plane} {place : Place} {r : Ring Packet} {items : List Packet}

/-- A plane has the same rings as itself. -/
theorem SameRings.refl (p : Plane) : SameRings p p :=
  ⟨fun _ => rfl, fun _ => rfl⟩

/-- Planes with the same rings, devices and taps have the same ring at every place. -/
theorem SameRings.congr {p q : Plane} (rings : q.rings = p.rings) (devices : q.devices = p.devices)
    (taps : q.taps = p.taps) : SameRings p q := by
  -- By cases on the place, which is looked up in one of the three.
  constructor
  · intro place
    cases place with
    | ring k => rw [ringAt?, ringAt?, ring?, ring?, rings]
    | received port => rw [ringAt?, ringAt?, device?, device?, devices]
    | sending port => rw [ringAt?, ringAt?, device?, device?, devices]
    | tap k => rw [ringAt?, ringAt?, tap?, tap?, taps]
  · intro number
    rw [holders?, holders?, rings]

/-- What waits at a place is what its ring holds. -/
theorem contents_eq (found : before.ringAt? place = some r) (held : r.Holds items) :
    before.contents place = items := by
  -- What a ring holds is what it lists.
  rw [contents, found, Option.map_some, Option.getD_some, held.toList_eq]

/-- A ring at rest in the place of another changes what waits there and nothing else. -/
theorem Replaces.contents (replaced : Replaces before after place r) (held : r.Holds items)
    (atRest : before.AtRest) :
    after.AtRest ∧ after.contents place = items ∧
      ∀ other, other ≠ place → after.contents other = before.contents other := by
  -- The place is the one whose ring was replaced, or another.
  refine ⟨?_, contents_eq replaced.here held, ?_⟩
  · intro other q found
    by_cases same : other = place
    · rw [same, replaced.here, Option.some.injEq] at found
      exact ⟨items, found ▸ held⟩
    · rw [replaced.elsewhere other same] at found
      exact atRest other q found
  · intro other apart
    rw [Plane.contents, replaced.elsewhere other apart, Plane.contents]

/-- Places that keep their rings keep what waits there. -/
theorem SameRings.contents (same : SameRings before after) (atRest : before.AtRest) :
    after.AtRest ∧ ∀ other, after.contents other = before.contents other := by
  -- Place by place, what waits there is told by its ring.
  refine ⟨?_, ?_⟩
  · intro other q found
    rw [same.places] at found
    exact atRest other q found
  · intro other
    rw [Plane.contents, same.places, Plane.contents]

/-- A ring stays replaced when the plane changes elsewhere. -/
theorem Replaces.congr {p q q' : Plane} (replaced : Replaces p q place r)
    (same : SameRings q q') : Replaces p q' place r := by
  -- Every place has the ring that it had after the replacement.
  refine ⟨?_, ?_, ?_⟩
  · rw [same.places, replaced.here]
  · intro other apart
    rw [same.places, replaced.elsewhere other apart]
  · intro number
    rw [same.holders, replaced.holders]

/-- A ring replaced by itself is not replaced. -/
theorem Replaces.same {p q : Plane} (replaced : Replaces p q place r)
    (here : p.ringAt? place = some r) : SameRings p q := by
  -- The place is the one whose ring was replaced, or another.
  refine ⟨?_, replaced.holders⟩
  intro other
  by_cases there : other = place
  · rw [there, replaced.here, here]
  · exact replaced.elsewhere other there

/-- A ring that replaces another leaves rings where there were some. -/
theorem Replaces.opened {p q : Plane} {old : Ring Packet} (replaced : Replaces p q place r)
    (here : p.ringAt? place = some old) (other : Place) :
    (q.ringAt? other).isSome = (p.ringAt? other).isSome := by
  -- The place is the one whose ring was replaced, or another.
  by_cases there : other = place
  · rw [there, replaced.here, here]
    rfl
  · rw [replaced.elsewhere other there]

/-- Changing the ring under a number does not change its holders. -/
theorem holders?_setRing (p : Plane) (number : Nat) (r : Ring Packet) (k : Nat) :
    (p.setRing number r).holders? k = p.holders? k := by
  -- The ring is changed inside its holders, whose number stays.
  simp only [holders?, setRing, Array.getElem?_modify]
  by_cases same : number = k
  · rw [if_pos same, Option.map_map]
    rfl
  · rw [if_neg same]

/-- A ring put under a number that exists replaces the ring there. -/
theorem setRing_replaces {p : Plane} {number : Nat} {old : Ring Packet}
    (found : p.ring? number = some old) (r : Ring Packet) :
    Replaces p (p.setRing number r) (.ring number) r := by
  -- By cases on the place: another ring has another number, and queues and taps are no rings of the
  -- plane.
  refine ⟨?_, ?_, p.holders?_setRing number r⟩
  · simp only [ringAt?, ring?, setRing, Array.getElem?_modify, if_true, Option.map_map]
    rw [ring?] at found
    cases held : p.rings[number]? with
    | none => simp [held] at found
    | some h => simp
  · intro other apart
    cases other with
    | ring k =>
      have different : number ≠ k := fun same => apart (by rw [same])
      simp only [ringAt?, ring?, setRing, Array.getElem?_modify, different, if_false]
    | received port => rfl
    | sending port => rfl
    | tap k => rfl

/-- A tap put under a number that exists replaces the ring of the tap there. -/
theorem setTap_replaces {p : Plane} {number : Nat} {old : Tap} (found : p.tap? number = some old)
    (tap : Tap) : Replaces p (p.setTap number tap) (.tap number) tap.ring := by
  -- By cases on the place: another tap has another number, and rings and queues are no taps.
  refine ⟨?_, ?_, fun _ => rfl⟩
  · simp only [ringAt?, tap?, setTap, Array.getElem?_modify, if_true, Option.map_map]
    rw [tap?] at found
    cases held : p.taps[number]? with
    | none => simp [held] at found
    | some h => simp
  · intro other apart
    cases other with
    | ring k => rfl
    | received port => rfl
    | sending port => rfl
    | tap k =>
      have different : number ≠ k := fun same => apart (by rw [same])
      simp only [ringAt?, tap?, setTap, Array.getElem?_modify, different, if_false]

/-- The device under a number after a device was put there. -/
theorem device?_setDevice {p : Plane} {number : Nat} {old : Device}
    (found : p.device? number = some old) (d : Device) (k : Nat) :
    (p.setDevice number d).device? k = if number = k then some d else p.device? k := by
  -- The number exists, so the device put there is found there.
  have inside := (Array.getElem?_eq_some_iff.mp found).1
  simp only [device?, setDevice, Array.getElem?_setIfInBounds, inside, if_true]

/-- A device whose ports keep their rings changes no place. -/
theorem setDevice_same {p : Plane} {number : Nat} {old d : Device}
    (found : p.device? number = some old) (kept : ∀ port, d.rings? port = old.rings? port) :
    SameRings p (p.setDevice number d) := by
  -- By cases on the place: only queues are looked up in devices, and every port keeps its rings.
  have devices : ∀ port : Port, ((p.setDevice number d).device? port.device).bind (·.rings? port) =
      (p.device? port.device).bind (·.rings? port) := by
    intro port
    rw [device?_setDevice found]
    by_cases same : number = port.device
    · subst same
      simp [found, kept]
    · simp [same]
  refine ⟨?_, fun _ => rfl⟩
  intro place
  cases place with
  | ring k => rfl
  | received port => simp only [ringAt?, devices]
  | sending port => simp only [ringAt?, devices]
  | tap k => rfl

section Ports

variable {p : Plane} {port : Port} {d : Device} {nic nic' : Nic} {queue queue' : Queue}
  {rings rings' : QueueRings}

/-- The rings of every port after those of one port were replaced. -/
theorem bind_rings?_setQueue (found : p.device? port.device = some d)
    (owned : d.owned? port = some (nic, queue, rings)) (kept : nic'.queues = nic.queues)
    (now : queue'.rings = some rings') (opening : rings'.opening = rings.opening) (other : Port) :
    ((p.setDevice port.device (d.setQueue port.id nic' queue')).device? other.device).bind
        (·.rings? other) =
      if other = port then some rings' else (p.device? other.device).bind (·.rings? other) := by
  -- A port differs from this one by its device, or on the same device by what it is there.
  rw [device?_setDevice found]
  by_cases same : port.device = other.device
  · rw [if_pos same, ← same, found, Option.bind_some, Option.bind_some,
      Device.rings?_setQueue owned kept now opening]
    by_cases own : other = port
    · subst own
      simp
    · have apart : ¬ (other.id = port.id ∧ other.opening = port.opening) := by
        rintro ⟨id, opening⟩
        apply own
        cases other
        cases port
        simp_all
      rw [if_neg own, if_neg apart]
  · have apart : other ≠ port := by
      rintro rfl
      exact same rfl
    rw [if_neg same, if_neg apart]

/-- A port whose receive ring was replaced. -/
theorem setQueue_replaces_received (found : p.device? port.device = some d)
    (owned : d.owned? port = some (nic, queue, rings)) (kept : nic'.queues = nic.queues)
    (rx : Ring Packet) (now : queue'.rings = some { rings with rx }) :
    Replaces p (p.setDevice port.device (d.setQueue port.id nic' queue')) (.received port) rx := by
  -- By cases on the place: the transmit ring of the port is kept beside its new receive ring.
  have all := bind_rings?_setQueue found owned kept now rfl
  have held : (p.device? port.device).bind (·.rings? port) = some rings := by
    rw [found, Option.bind_some, Device.rings?, owned]
    rfl
  refine ⟨?_, ?_, fun _ => rfl⟩
  · rw [ringAt?, all, if_pos rfl]
    rfl
  · intro other apart
    cases other with
    | ring k => rfl
    | tap k => rfl
    | received other =>
      rw [ringAt?, all, if_neg (fun same => apart (by rw [same])), ringAt?]
    | sending other =>
      rw [ringAt?, all, ringAt?]
      by_cases same : other = port
      · rw [if_pos same, same, held]
        rfl
      · rw [if_neg same]

/-- A port whose transmit ring was replaced. -/
theorem setQueue_replaces_sending (found : p.device? port.device = some d)
    (owned : d.owned? port = some (nic, queue, rings)) (kept : nic'.queues = nic.queues)
    (tx : Ring Packet) (now : queue'.rings = some { rings with tx }) :
    Replaces p (p.setDevice port.device (d.setQueue port.id nic' queue')) (.sending port) tx := by
  -- By cases on the place: the receive ring of the port is kept beside its new transmit ring.
  have all := bind_rings?_setQueue found owned kept now rfl
  have held : (p.device? port.device).bind (·.rings? port) = some rings := by
    rw [found, Option.bind_some, Device.rings?, owned]
    rfl
  refine ⟨?_, ?_, fun _ => rfl⟩
  · rw [ringAt?, all, if_pos rfl]
    rfl
  · intro other apart
    cases other with
    | ring k => rfl
    | tap k => rfl
    | sending other =>
      rw [ringAt?, all, if_neg (fun same => apart (by rw [same])), ringAt?]
    | received other =>
      rw [ringAt?, all, ringAt?]
      by_cases same : other = port
      · rw [if_pos same, same, held]
        rfl
      · rw [if_neg same]

end Ports

end Plane

end PacketPlane
