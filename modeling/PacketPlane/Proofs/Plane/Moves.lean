import PacketPlane.Proofs.Buffer.Exchange
import PacketPlane.Proofs.Plane.Places
import PacketPlane.Transmit.Backlog

/-! Moves: packets pulled off a place go from its front, and packets put on it go to its back. -/

namespace PacketPlane

namespace Ring

variable {α : Type}

/-- What a bulk insertion does not accept is the end of the list. -/
theorem enqueueBulk_rest (r : Ring α) (items : List α) :
    (r.enqueueBulk items).rest = items.drop (r.enqueueBulk items).accepted ∧
      (r.enqueueBulk items).accepted ≤ items.length := by
  -- A ring without room reserves nothing, and then the whole list is left.
  rw [enqueueBulk]
  cases found : r.reserveProd .upTo items.length with
  | none => simp
  | some pair =>
    obtain ⟨reserved, after⟩ := pair
    refine ⟨rfl, ?_⟩
    simp only [reserveProd] at found
    split at found
    · cases found
    · cases found
      exact Nat.min_le_left ..

/-- What a bulk insertion accepts goes behind the others. -/
theorem Holds.enqueueBulk_taken {r : Ring α} {items : List α} (held : r.Holds items)
    (more : List α) :
    (r.enqueueBulk more).ring.Holds (items ++ more.take (r.enqueueBulk more).accepted) := by
  -- Taking what fits of the list and taking what was accepted is the same.
  obtain ⟨accepted, -, after⟩ := held.enqueueBulk_holds more
  have same : more.take (min more.length (r.capacity - items.length)) =
      more.take (r.capacity - items.length) := by
    rw [List.take_eq_take_iff]
    omega
  rw [accepted, same]
  exact after

end Ring

namespace Device

/-- What a transmit ring does not accept within a budget is the end of the list. -/
theorem sendWithin_rest (tx : Ring Packet) (budget : Nat) (packets : List Packet) :
    (sendWithin tx budget packets).rest = packets.drop (sendWithin tx budget packets).accepted ∧
      (sendWithin tx budget packets).accepted ≤ packets.length := by
  -- By cases on the budget: what it cuts off follows what the ring did not accept.
  rw [sendWithin]
  split
  · exact tx.enqueueBulk_rest packets
  · rename_i short
    obtain ⟨rest, most⟩ := tx.enqueueBulk_rest (packets.take budget)
    rw [List.length_take] at most
    constructor
    · show (tx.enqueueBulk (packets.take budget)).rest ++ packets.drop budget = _
      rw [rest, ← List.drop_append_of_le_length (by rw [List.length_take]; omega),
        List.take_append_drop]
    · show (tx.enqueueBulk (packets.take budget)).accepted ≤ packets.length
      omega

/-- What a transmit ring accepts within a budget goes behind the others. -/
theorem sendWithin_taken {tx : Ring Packet} {items : List Packet} (held : tx.Holds items)
    (budget : Nat) (packets : List Packet) :
    (sendWithin tx budget packets).ring.Holds
      (items ++ packets.take (sendWithin tx budget packets).accepted) := by
  -- By cases on the budget, of which only the front was offered to the ring.
  rw [sendWithin]
  split
  · exact held.enqueueBulk_taken packets
  · rename_i short
    have after := held.enqueueBulk_taken (packets.take budget)
    have most := (tx.enqueueBulk_rest (packets.take budget)).2
    rw [List.length_take] at most
    rwa [List.take_take, Nat.min_eq_left (by omega)] at after

end Device

namespace Plane

/-- Packets pulled off a place by somebody who touches nothing else. -/
structure Pulls (before after : Plane) (place : Place) (packets : List Packet) : Prop where
  surroundings : after.toSurroundings = before.toSurroundings
  holders : ∀ number, after.holders? number = before.holders? number
  opened : ∀ other, (after.ringAt? other).isSome = (before.ringAt? other).isSome
  places : before.AtRest → after.AtRest ∧
    before.contents place = packets ++ after.contents place ∧
    ∀ other, other ≠ place → after.contents other = before.contents other

/-- Packets put on a place by somebody who touches nothing else. -/
structure Puts (before after : Plane) (place : Place) (packets : List Packet) : Prop where
  surroundings : after.toSurroundings = before.toSurroundings
  holders : ∀ number, after.holders? number = before.holders? number
  opened : ∀ other, (after.ringAt? other).isSome = (before.ringAt? other).isSome
  places : before.AtRest → after.AtRest ∧
    after.contents place = before.contents place ++ packets ∧
    ∀ other, other ≠ place → after.contents other = before.contents other

variable {p : Plane}

/-- Nothing pulled. -/
theorem Pulls.refl (p : Plane) (place : Place) : Pulls p p place [] :=
  ⟨rfl, fun _ => rfl, fun _ => rfl, fun atRest => ⟨atRest, rfl, fun _ _ => rfl⟩⟩

/-- Nothing put. -/
theorem Puts.refl (p : Plane) (place : Place) : Puts p p place [] :=
  ⟨rfl, fun _ => rfl, fun _ => rfl,
    fun atRest => ⟨atRest, (List.append_nil _).symm, fun _ _ => rfl⟩⟩

section Replaced

variable {q : Plane} {place : Place} {r r' : Ring Packet} {packets : List Packet}

/-- A ring that lost its oldest packets had them pulled off its place. -/
theorem Pulls.of_replaces (replaced : Replaces p q place r')
    (surroundings : q.toSurroundings = p.toSurroundings) (here : p.ringAt? place = some r)
    (removed : ∀ items, r.Holds items → ∃ left, items = packets ++ left ∧ r'.Holds left) :
    Pulls p q place packets := by
  -- What the ring holds afterwards is what was behind the packets.
  refine ⟨surroundings, replaced.holders, replaced.opened here, ?_⟩
  intro atRest
  obtain ⟨items, held⟩ := atRest place r here
  obtain ⟨left, split, holds⟩ := removed items held
  obtain ⟨after, now, others⟩ := replaced.contents holds atRest
  refine ⟨after, ?_, others⟩
  rw [contents_eq here held, now, split]

/-- A ring that gained packets behind the others had them put on its place. -/
theorem Puts.of_replaces (replaced : Replaces p q place r')
    (surroundings : q.toSurroundings = p.toSurroundings) (here : p.ringAt? place = some r)
    (appended : ∀ items, r.Holds items → r'.Holds (items ++ packets)) :
    Puts p q place packets := by
  -- What the ring holds afterwards is what it held, with the packets behind.
  refine ⟨surroundings, replaced.holders, replaced.opened here, ?_⟩
  intro atRest
  obtain ⟨items, held⟩ := atRest place r here
  obtain ⟨after, now, others⟩ := replaced.contents (appended items held) atRest
  refine ⟨after, ?_, others⟩
  rw [contents_eq here held, now]

/-- A device whose ports keep their rings has had nothing pulled. -/
theorem Pulls.of_rings {number : Nat} {d d' : Device} (found : p.device? number = some d)
    (kept : ∀ port, d'.rings? port = d.rings? port) :
    Pulls p (p.setDevice number d') place [] := by
  -- Every place has its ring, so nothing is missing anywhere.
  have rings := setDevice_same found kept
  refine ⟨rfl, fun _ => rfl, fun other => congrArg Option.isSome (rings.places other), ?_⟩
  intro atRest
  obtain ⟨after, same⟩ := rings.contents atRest
  exact ⟨after, (same place).symm, fun other _ => same other⟩

/-- A device whose ports keep their rings has had nothing put. -/
theorem Puts.of_rings {number : Nat} {d d' : Device} (found : p.device? number = some d)
    (kept : ∀ port, d'.rings? port = d.rings? port) :
    Puts p (p.setDevice number d') place [] := by
  -- Every place has its ring, so nothing is new anywhere.
  have rings := setDevice_same found kept
  refine ⟨rfl, fun _ => rfl, fun other => congrArg Option.isSome (rings.places other), ?_⟩
  intro atRest
  obtain ⟨after, same⟩ := rings.contents atRest
  exact ⟨after, by rw [same, List.append_nil], fun other _ => same other⟩

end Replaced

/-- Bulk removal takes the oldest packets off a ring. -/
theorem removed_dequeueBulk (r : Ring Packet) (limit : Nat) (items : List Packet)
    (held : r.Holds items) :
    ∃ left, items = (r.dequeueBulk limit).items ++ left ∧
      (r.dequeueBulk limit).ring.Holds left := by
  -- Bulk removal takes the front and leaves the rest in order.
  obtain ⟨taken, -, left⟩ := held.dequeueBulk_holds limit
  exact ⟨items.drop limit, by rw [taken, List.take_append_drop], left⟩

/-- Packets taken off a ring are pulled off its place. -/
theorem dequeueBulk_pulls (p : Plane) (number limit : Nat) :
    Pulls p (p.dequeueBulk number limit).2.2 (.ring number) (p.dequeueBulk number limit).1 := by
  -- A ring that is not there hands nothing out.
  rw [dequeueBulk]
  cases found : p.ring? number with
  | none => exact Pulls.refl p _
  | some r =>
    exact Pulls.of_replaces (setRing_replaces found _) rfl found (removed_dequeueBulk r limit)

/-- As many packets are taken off a ring as are asked for, or all of them. -/
theorem length_dequeueBulk (atRest : p.AtRest) (number limit : Nat) :
    (p.dequeueBulk number limit).1.length = min limit (p.contents (.ring number)).length := by
  -- A ring that is not there hands nothing out, and has nothing waiting either.
  rw [dequeueBulk]
  cases found : p.ring? number with
  | none => simp [contents, ringAt?, found]
  | some r =>
    have here : p.ringAt? (.ring number) = some r := found
    obtain ⟨items, held⟩ := atRest (.ring number) r here
    obtain ⟨taken, -, -⟩ := held.dequeueBulk_holds limit
    rw [contents_eq here held]
    show (r.dequeueBulk limit).items.length = _
    rw [taken, List.length_take]

/-- As many packets are on a ring as wait there. -/
theorem ringCount_eq (atRest : p.AtRest) (number : Nat) :
    p.ringCount number = (p.contents (.ring number)).length := by
  -- A ring that is not there counts as empty, and has nothing waiting either.
  rw [ringCount]
  cases found : p.ring? number with
  | none => simp [contents, ringAt?, found]
  | some r =>
    have here : p.ringAt? (.ring number) = some r := found
    obtain ⟨items, held⟩ := atRest (.ring number) r here
    rw [contents_eq here held]
    exact held.count_eq

/-- Packets received from a port are pulled off its receive ring. -/
theorem rxBurst_pulls (p : Plane) (port : Port) (limit : Nat) :
    Pulls p (p.rxBurst port limit).2 (.received port) (p.rxBurst port limit).1 := by
  -- By cases on what may be missing: the device, the queue of the port or its link.
  rw [rxBurst]
  cases found : p.device? port.device with
  | none => exact Pulls.refl p _
  | some d =>
    simp only [Device.rxBurst]
    cases owned : d.owned? port with
    | none => exact Pulls.of_rings found fun _ => rfl
    | some held =>
      obtain ⟨nic, queue, rings⟩ := held
      simp only
      split
      · exact Pulls.of_rings found fun _ => rfl
      · have here : p.ringAt? (.received port) = some rings.rx := by
          simp [ringAt?, found, Device.rings?, owned]
        refine Pulls.of_replaces ?_ rfl here (removed_dequeueBulk rings.rx limit)
        exact setQueue_replaces_received found owned (by rfl) _ (by rfl)

/-- Packets that a ring accepts are put on its place, and the others are the end of the list. -/
theorem enqueueBulk_puts (p : Plane) (number : Nat) (packets : List Packet) :
    let put := p.enqueueBulk number packets
    put.2.1 = packets.drop put.1 ∧ put.1 ≤ packets.length ∧
      Puts p put.2.2 (.ring number) (packets.take put.1) := by
  -- A ring that is not there accepts nothing.
  rw [enqueueBulk]
  cases found : p.ring? number with
  | none => exact ⟨rfl, Nat.zero_le _, Puts.refl p _⟩
  | some r =>
    obtain ⟨rest, most⟩ := r.enqueueBulk_rest packets
    refine ⟨rest, most, ?_⟩
    exact Puts.of_replaces (setRing_replaces found _) rfl found
      fun items held => held.enqueueBulk_taken packets

/-- Packets that a port accepts are put on its transmit ring, and the others are the end of the
list. -/
theorem txBurst_puts (p : Plane) (port : Port) (packets : List Packet) :
    let put := p.txBurst port packets
    put.2.1 = packets.drop put.1 ∧ put.1 ≤ packets.length ∧
      Puts p put.2.2 (.sending port) (packets.take put.1) := by
  -- By cases on what may be missing: packets, the queue of the port or its link.
  rw [txBurst]
  cases found : p.device? port.device with
  | none => exact ⟨rfl, Nat.zero_le _, Puts.refl p _⟩
  | some d =>
    simp only [Device.txBurst]
    split
    · exact ⟨rfl, Nat.zero_le _, Puts.of_rings found fun _ => rfl⟩
    · cases owned : d.owned? port with
      | none => exact ⟨rfl, Nat.zero_le _, Puts.of_rings found fun _ => rfl⟩
      | some held =>
        obtain ⟨nic, queue, rings⟩ := held
        simp only
        split
        · exact ⟨rfl, Nat.zero_le _, Puts.of_rings found
            (Device.rings?_setNic (Device.owned?_eq_some owned).1 rfl)⟩
        · obtain ⟨rest, most⟩ := Device.sendWithin_rest rings.tx queue.budget.toNat packets
          have here : p.ringAt? (.sending port) = some rings.tx := by
            simp [ringAt?, found, Device.rings?, owned]
          refine ⟨rest, most, ?_⟩
          refine Puts.of_replaces (setQueue_replaces_sending found owned (by rfl) _ (by rfl)) rfl
            here ?_
          intro items held
          exact Device.sendWithin_taken held queue.budget.toNat packets

end Plane

/-- The place that packets handed to an output go to. -/
def Target.place : Target → Place
  -- Either kind of output has one.
  | .port p => .sending p
  | .ring number => .ring number

/-- An output takes packets from the front of a list and leaves the others in their order. -/
theorem Target.sender_puts (target : Target) (p : Plane) (packets : List Packet) :
    let sent := target.sender p packets
    sent.rest = packets.drop sent.accepted ∧ sent.accepted ≤ packets.length ∧
      p.Puts sent.plane target.place (packets.take sent.accepted) := by
  -- By cases on the output, a port or a ring.
  cases target with
  | port owned => exact p.txBurst_puts owned packets
  | ring number => exact p.enqueueBulk_puts number packets

end PacketPlane
