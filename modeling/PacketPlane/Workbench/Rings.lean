import PacketPlane.Text.Shown
import PacketPlane.Workbench.Basic

/-! Steps on named rings, of plain numbers and of packets. -/

namespace PacketPlane

/-- A ring in words. -/
def Ring.shown (r : Ring α) : String :=
  -- What is on it is not shown.
  Shown.record "Ring" [("name", Shown.quoted r.name), ("capacity", toString r.capacity),
    ("count", toString r.count)]

namespace Bench

/-- A ring of numbers made and named. -/
def makeNumberRing (name label : String) (capacity : Nat) : Bench Unit := do
  -- The name changes only when the ring could be made.
  let ring ← accept (Ring.make label capacity)
  modify fun w => { w with numberRings := w.numberRings.insert name { ring } }

/-- Something done to a ring of numbers, with how many numbers it let go. -/
def onNumberRing (name : String) (action : Ring Nat → α × Ring Nat × Nat) : Bench (α × Nat) := do
  -- The result comes with the count of the ring afterwards.
  let held ← find (·.numberRings) name
  let (result, ring, released) := action held.ring
  let held := { ring, released := held.released + released }
  modify fun w => { w with numberRings := w.numberRings.insert name held }
  return (result, ring.count)

/-- A number enqueued, and handed back when the ring is full. -/
def enqueueNumber (name : String) (value : Nat) : Bench (Option Nat × Nat) :=
  -- A number that was handed back is let go.
  onNumberRing name fun ring =>
    match ring.enqueue value with
    | .ok ring => (none, ring, 0)
    | .error rejected => (some rejected.object, ring, 1)

/-- Numbers enqueued for as long as there is room: how many, and those that were left. -/
def enqueueNumbers (name : String) (values : List Nat) : Bench ((Nat × List Nat) × Nat) :=
  -- Numbers that were left are let go.
  onNumberRing name fun ring =>
    let put := ring.enqueueBulk values
    ((put.accepted, put.rest), put.ring, put.rest.length)

/-- Numbers enqueued all or not at all, with those that were left. -/
def enqueueNumbersWhole (name : String) (values : List Nat) :
    Bench ((Option Fault × List Nat) × Nat) :=
  -- Numbers that were left are let go.
  onNumberRing name fun ring =>
    match ring.enqueueWhole values with
    | .ok ring => ((none, []), ring, 0)
    | .error fault => ((some fault, values), ring, values.length)

/-- The oldest number. -/
def dequeueNumber (name : String) : Bench (Option Nat × Nat) :=
  -- A number that comes out is let go.
  onNumberRing name fun ring =>
    match ring.dequeue with
    | none => (none, ring, 0)
    | some (value, ring) => (some value, ring, 1)

/-- The oldest numbers, with how many are said to be left. -/
def dequeueNumbers (name : String) (limit : Nat) : Bench ((List Nat × Nat) × Nat) :=
  -- They come behind one number more in the caller's list, and all of it is let go.
  onNumberRing name fun ring =>
    let taken := ring.dequeueBulk limit
    ((taken.items, taken.remaining), taken.ring, taken.items.length + 1)

/-- The oldest numbers, all or none. -/
def dequeueNumbersWhole (name : String) (count : Nat) :
    Bench ((Option Fault × List Nat) × Nat) :=
  -- Numbers that come out are let go.
  onNumberRing name fun ring =>
    match ring.dequeueWhole count with
    | .ok (items, ring) => ((none, items), ring, items.length)
    | .error fault => ((some fault, []), ring, 0)

/-- A ring of numbers as it is. -/
def numberRing (name : String) : Bench (Ring Nat) := do
  -- Nothing is changed by looking.
  return (← find (·.numberRings) name).ring

/-- A ring of numbers gone, with how many numbers have been let go since it was made. -/
def dropNumberRing (name : String) : Bench Nat := do
  -- The numbers still on it are let go as well.
  let held ← find (·.numberRings) name
  modify fun w => { w with numberRings := w.numberRings.erase name }
  return held.released + held.ring.toList.length

/-- A ring of packets made and named. -/
def makeRing (name label : String) (capacity : Nat) : Bench Unit := do
  -- The ring that had the name loses a holder.
  let ring ← accept (Ring.make label capacity)
  let (number, plane) := (← plane).addRing ring
  let former := (← get).rings[name]?
  modify fun w => { w with rings := w.rings.insert name number }
  setPlane (match former with
    | none => plane
    | some former => plane.leaveRing former)

/-- The name of a ring forgotten. -/
def dropRing (name : String) : Bench Unit := do
  -- The ring loses a holder.
  let number ← find (·.rings) name
  modify fun w => { w with rings := w.rings.erase name }
  mapPlane (·.leaveRing number)

/-- A ring of packets by its name, with its number. -/
def ring (name : String) : Bench (Nat × Ring Packet) := do
  -- Named rings always exist.
  let number ← find (·.rings) name
  match (← plane).ring? number with
  | some ring => return (number, ring)
  | none => throw (.unknown name)

/-- A packet of a list enqueued, with whether there was room. -/
def enqueue (name source : String) (position : Nat) : Bench Bool := do
  -- A packet that found no room stays where it was.
  let (number, ring) ← ring name
  match ring.enqueue (← packetAt source position) with
  | .error _ => return false
  | .ok ring =>
    let _ ← takeAt source position
    mapPlane (·.setRing number ring)
    return true

/-- The packets of a list enqueued for as long as there is room. -/
def enqueueBulk (name source : String) : Bench Nat := do
  -- Those that found no room stay on the list.
  let number ← find (·.rings) name
  let (accepted, rest, plane) := (← plane).enqueueBulk number (← list source)
  setPlane plane
  setList source rest
  return accepted

/-- The packets of a list enqueued all or not at all. -/
def enqueueWhole (name source : String) : Bench Unit := do
  -- Without room for all, they stay on the list.
  let (number, ring) ← ring name
  let ring ← accept (ring.enqueueWhole (← list source))
  setList source []
  mapPlane (·.setRing number ring)

/-- The oldest packet of a ring moved to a list. -/
def dequeue (name into : String) : Bench (Option Nat) := do
  -- An empty ring moves nothing.
  let (number, ring) ← ring name
  match ring.dequeue with
  | none => return none
  | some (packet, ring) =>
    mapPlane (·.setRing number ring)
    appendTo into [packet]
    return some packet.index

/-- The oldest packets of a ring moved to a list: how many, and how many are said to be left. -/
def dequeueBulk (name into : String) (limit : Nat) : Bench (Nat × Nat) := do
  -- They keep their order.
  let number ← find (·.rings) name
  let (packets, remaining, plane) := (← plane).dequeueBulk number limit
  setPlane plane
  appendTo into packets
  return (packets.length, remaining)

/-- A number of packets of a ring moved to a list, all or none. -/
def dequeueWhole (name into : String) (count : Nat) : Bench Unit := do
  -- They keep their order.
  let (number, ring) ← ring name
  let (packets, ring) ← accept (ring.dequeueWhole count)
  mapPlane (·.setRing number ring)
  appendTo into packets

end Bench

end PacketPlane
