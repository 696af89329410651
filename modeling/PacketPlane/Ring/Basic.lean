import Std.Data.HashMap
import PacketPlane.Fault

/-! Bounded rings: four free-running cursors over slots that are addressed modulo the capacity. -/

namespace PacketPlane

/-- The largest capacity a ring may be made with. -/
def maxRingCapacity : Nat := 1 <<< 28

/-- A bounded queue of objects. Producers and consumers each reserve places with one cursor and
publish them with another, and all four cursors wrap at 64 bits. -/
structure Ring (α : Type) where
  name : String
  capacity : Nat
  capacity_valid : capacity.isPowerOfTwo ∧ capacity ≤ maxRingCapacity
  prodHead : UInt64 := 0
  prodTail : UInt64 := 0
  consHead : UInt64 := 0
  consTail : UInt64 := 0
  slots : Std.HashMap Nat α := ∅

/-- Whether a caller wants everything it asks for, or whatever can be had. -/
inductive Demand where
  | whole
  | upTo
deriving DecidableEq, Repr

/-- How many of the places that are asked for can be had. -/
def Demand.grant (demand : Demand) (asked room : Nat) : Nat :=
  -- A caller that wants everything gets nothing when it does not fit.
  match demand with
  | .whole => if asked ≤ room then asked else 0
  | .upTo => min asked room

/-- Places that have been reserved: where they start, how many they are, and what is left. -/
structure Reservation where
  start : UInt64
  count : Nat
  left : Nat
deriving DecidableEq, Repr

/-- How many objects a bulk insertion accepted, those that did not fit, and the ring after it. -/
structure Enqueued (α : Type) where
  accepted : Nat
  rest : List α
  ring : Ring α

/-- What a bulk removal took out, what it left, and the ring after it. -/
structure Dequeued (α : Type) where
  items : List α
  remaining : Nat
  ring : Ring α

/-- An object that a full ring handed back. -/
structure Rejected (α : Type) where
  object : α
deriving DecidableEq, Repr

namespace Rejected

variable {α : Type}

/-- The fault that a rejection amounts to when nobody wants the object back. -/
def fault (_ : Rejected α) : Fault :=
  -- Which object was rejected does not show.
  .full

/-- A rejection in words for diagnosis. -/
def shown (_ : Rejected α) : String :=
  -- The object need not have words of its own.
  "Full(..)"

end Rejected

namespace Ring

variable {α : Type}

/-- An empty ring of a capacity that is a power of two and not too large. -/
def make (name : String) (capacity : Nat) : Except Fault (Ring α) :=
  -- Both checks are kept as facts about the ring.
  if power : capacity.isPowerOfTwo then
    if small : capacity ≤ maxRingCapacity then
      .ok { name, capacity, capacity_valid := ⟨power, small⟩ }
    else .error (.setting (.ringTooLarge name capacity maxRingCapacity))
  else .error (.setting (.ringNotPowerOfTwo name capacity))

/-- The slot that a cursor position addresses. -/
def place (r : Ring α) (position : UInt64) : Nat :=
  -- The capacity divides the range of a cursor, so wrapping keeps the order of slots.
  position.toNat % r.capacity

/-- How many objects are published and not yet taken. -/
def count (r : Ring α) : Nat :=
  -- The difference wraps together with the cursors.
  min (r.prodTail - r.consTail).toNat r.capacity

/-- How many more objects fit. -/
def freeCount (r : Ring α) : Nat :=
  -- Every slot is either occupied or free.
  r.capacity - r.count

/-- Whether nothing is queued. -/
def isEmpty (r : Ring α) : Bool :=
  -- Counted, since cursors never return to zero.
  r.count == 0

/-- Whether nothing more fits. -/
def isFull (r : Ring α) : Bool :=
  -- Counted, since cursors never return to zero.
  r.count == r.capacity

/-- The objects from a position up to the producers' published cursor. -/
def listFrom (r : Ring α) (position : UInt64) : List α :=
  -- The position wraps with the cursors, so the two are compared for equality alone.
  if position = r.prodTail then []
  else (r.slots[r.place position]?).toList ++ r.listFrom (position + 1)
termination_by (r.prodTail - position).toNat
decreasing_by
  rw [UInt64.toNat_sub, UInt64.toNat_sub, UInt64.toNat_add]
  have apart : position.toNat ≠ r.prodTail.toNat := fun same => ‹¬ _› (UInt64.toNat_inj.mp same)
  have := position.toNat_lt
  have := r.prodTail.toNat_lt
  simp only [UInt64.toNat_one]
  omega

/-- The objects that are queued, oldest first: those that go when the ring goes. -/
def toList (r : Ring α) : List α :=
  -- They lie between the consumers' and the producers' published cursors.
  r.listFrom r.consTail

/-- Places for new objects, taken by moving the producers' reserving cursor. -/
def reserveProd (r : Ring α) (demand : Demand) (asked : Nat) : Option (Reservation × Ring α) :=
  -- A slot is free again once its object has been taken and that has been published.
  let used := (r.prodHead - r.consTail).toNat
  let free := r.capacity - used
  let count := demand.grant asked free
  if used > r.capacity ∨ count = 0 then none
  else some (⟨r.prodHead, count, free - count⟩,
    { r with prodHead := r.prodHead + UInt64.ofNat count })

/-- Objects to take, claimed by moving the consumers' reserving cursor. -/
def reserveCons (r : Ring α) (demand : Demand) (asked : Nat) : Option (Reservation × Ring α) :=
  -- Only what has been published may be taken.
  let entries := (r.prodTail - r.consHead).toNat
  let count := demand.grant asked entries
  if entries > r.capacity ∨ count = 0 then none
  else some (⟨r.consHead, count, entries - count⟩,
    { r with consHead := r.consHead + UInt64.ofNat count })

/-- An object put into a reserved place. -/
def write (r : Ring α) (position : UInt64) (item : α) : Ring α :=
  -- The place is not visible to consumers before it is published.
  { r with slots := r.slots.insert (r.place position) item }

/-- The object moved out of a reserved place. -/
def take (r : Ring α) (position : UInt64) : Option α × Ring α :=
  -- The slot is empty afterwards.
  (r.slots[r.place position]?, { r with slots := r.slots.erase (r.place position) })

/-- Objects put into consecutive places. -/
def writeAll (r : Ring α) (position : UInt64) : List α → Ring α
  -- The next place is one further, wrapping with the cursor.
  | [] => r
  | item :: rest => (r.write position item).writeAll (position + 1) rest

/-- Objects moved out of consecutive places. -/
def takeAll (r : Ring α) (position : UInt64) : Nat → List α × Ring α
  -- The next place is one further, wrapping with the cursor.
  | 0 => ([], r)
  | count + 1 =>
    let (item, r) := r.take position
    let (rest, r) := r.takeAll (position + 1) count
    (item.toList ++ rest, r)

/-- Reserved places made visible to consumers. -/
def publishProd (r : Ring α) (reserved : Reservation) : Ring α :=
  -- Earlier reservations have been published by now.
  { r with prodTail := reserved.start + UInt64.ofNat reserved.count }

/-- Taken places given back to producers. -/
def publishCons (r : Ring α) (reserved : Reservation) : Ring α :=
  -- Earlier reservations have been published by now.
  { r with consTail := reserved.start + UInt64.ofNat reserved.count }

/-- One object appended, or handed back when there is no room. -/
def enqueue (r : Ring α) (item : α) : Except (Rejected α) (Ring α) :=
  -- One place is reserved, filled and published.
  match r.reserveProd .whole 1 with
  | none => .error ⟨item⟩
  | some (reserved, r) => .ok ((r.write reserved.start item).publishProd reserved)

/-- As many objects appended as fit, from the front of a list. -/
def enqueueBulk (r : Ring α) (items : List α) : Enqueued α :=
  -- Those that did not fit keep their order.
  match r.reserveProd .upTo items.length with
  | none => ⟨0, items, r⟩
  | some (reserved, r) =>
    let r := r.writeAll reserved.start (items.take reserved.count)
    ⟨reserved.count, items.drop reserved.count, r.publishProd reserved⟩

/-- All objects appended, or none of them. -/
def enqueueWhole (r : Ring α) (items : List α) : Except Fault (Ring α) :=
  -- Nothing to append always fits.
  if items.isEmpty then .ok r
  else match r.reserveProd .whole items.length with
    | none => .error .full
    | some (reserved, r) => .ok ((r.writeAll reserved.start items).publishProd reserved)

/-- The oldest object taken out. -/
def dequeue (r : Ring α) : Option (α × Ring α) :=
  -- One place is reserved, emptied and published.
  match r.reserveCons .whole 1 with
  | none => none
  | some (reserved, r) =>
    match r.take reserved.start with
    | (some item, r) => some (item, r.publishCons reserved)
    | (none, _) => none

/-- Up to a number of objects taken out, oldest first. -/
def dequeueBulk (r : Ring α) (limit : Nat) : Dequeued α :=
  -- A caller that asks for nothing is still told how many there are.
  if limit = 0 then ⟨[], r.count, r⟩
  else match r.reserveCons .upTo limit with
    | none => ⟨[], 0, r⟩
    | some (reserved, r) =>
      let (items, r) := r.takeAll reserved.start reserved.count
      ⟨items, reserved.left, r.publishCons reserved⟩

/-- Exactly a number of objects taken out, or none of them. -/
def dequeueWhole (r : Ring α) (count : Nat) : Except Fault (List α × Ring α) :=
  -- Nothing can always be taken.
  if count = 0 then .ok ([], r)
  else match r.reserveCons .whole count with
    | none => .error .empty
    | some (reserved, r) =>
      let (items, r) := r.takeAll reserved.start reserved.count
      .ok (items, r.publishCons reserved)

end Ring

end PacketPlane
