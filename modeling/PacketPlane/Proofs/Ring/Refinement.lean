import PacketPlane.Ring.Lemmas

/-! Rings as bounded queues: whatever calls are made, in whatever order, a ring answers as a list of
bounded length would, and keeps exactly what the list keeps. -/

namespace PacketPlane

/-- One call on a ring, with the objects its caller brings or the number it asks for. -/
inductive RingCall (α : Type) where
  | enqueue (item : α)
  | enqueueBulk (items : List α)
  | enqueueWhole (items : List α)
  | dequeue
  | dequeueBulk (limit : Nat)
  | dequeueWhole (count : Nat)

/-- The objects that a caller brings along. -/
def RingCall.brought : RingCall α → List α
  -- A caller that takes objects out brings none.
  | .enqueue item => [item]
  | .enqueueBulk items | .enqueueWhole items => items
  | .dequeue | .dequeueBulk _ | .dequeueWhole _ => []

/-- What a caller is told, and what is in its hands after the call: the objects it brought and kept,
and those it got. -/
structure RingReply (α : Type) where
  fault : Option Fault := none
  accepted : Option Nat := none
  remaining : Option Nat := none
  kept : List α := []
  got : List α := []

/-- The objects that a caller brought and did not keep. -/
def RingReply.given (reply : RingReply α) (call : RingCall α) : List α :=
  -- What it keeps is what it brought last.
  call.brought.take (call.brought.length - reply.kept.length)

namespace Ring

variable {α : Type}

/-- A call on a ring, which leaves the ring as it was when it fails. -/
def serve (r : Ring α) : RingCall α → RingReply α × Ring α
  -- A caller whose list is refused still has the whole list.
  | .enqueue item =>
    match r.enqueue item with
    | .ok r => ({}, r)
    | .error rejected => ({ fault := rejected.fault, kept := [rejected.object] }, r)
  | .enqueueBulk items =>
    let done := r.enqueueBulk items
    ({ accepted := done.accepted, kept := done.rest }, done.ring)
  | .enqueueWhole items =>
    match r.enqueueWhole items with
    | .ok r => ({}, r)
    | .error fault => ({ fault, kept := items }, r)
  | .dequeue =>
    match r.dequeue with
    | some (item, r) => ({ got := [item] }, r)
    | none => ({}, r)
  | .dequeueBulk limit =>
    let done := r.dequeueBulk limit
    ({ remaining := done.remaining, got := done.items }, done.ring)
  | .dequeueWhole count =>
    match r.dequeueWhole count with
    | .ok (got, r) => ({ got }, r)
    | .error fault => ({ fault }, r)

/-- Calls on a ring, one after another. -/
def serveAll (r : Ring α) : List (RingCall α) → List (RingReply α) × Ring α
  -- Each call finds the ring as the one before left it.
  | [] => ([], r)
  | call :: rest =>
    let (reply, r) := r.serve call
    let (replies, r) := r.serveAll rest
    (reply :: replies, r)

end Ring

/-- A queue as a list, with all objects that were ever put in and taken out, each with the caller
that put it in. -/
structure BoundedQueue (α : Type) where
  queued : List (Nat × α) := []
  accepted : List (Nat × α) := []
  taken : List (Nat × α) := []

namespace BoundedQueue

variable {α : Type}

/-- Objects that a caller puts in go behind the others. -/
def put (q : BoundedQueue α) (caller : Nat) (items : List α) : BoundedQueue α :=
  -- They keep their order.
  let added := items.map fun item => (caller, item)
  { q with queued := q.queued ++ added, accepted := q.accepted ++ added }

/-- The oldest objects go. -/
def take (q : BoundedQueue α) (count : Nat) : BoundedQueue α :=
  -- Fewer go when there are not as many.
  { q with queued := q.queued.drop count, taken := q.taken ++ q.queued.take count }

/-- The oldest objects. -/
def front (q : BoundedQueue α) (count : Nat) : List α :=
  -- Who put them in does not show.
  (q.queued.take count).map Prod.snd

/-- What a call should do to a queue of a capacity, and tell its caller. -/
def serve (capacity : Nat) (q : BoundedQueue α) (caller : Nat) :
    RingCall α → RingReply α × BoundedQueue α
  -- A queue that is full, or has too little, is left alone.
  | .enqueue item =>
    if q.queued.length < capacity then ({}, q.put caller [item])
    else ({ fault := some .full, kept := [item] }, q)
  | .enqueueBulk items =>
    let room := capacity - q.queued.length
    ({ accepted := some (min items.length room), kept := items.drop room },
      q.put caller (items.take room))
  | .enqueueWhole items =>
    if q.queued.length + items.length ≤ capacity then ({}, q.put caller items)
    else ({ fault := some .full, kept := items }, q)
  | .dequeue => ({ got := q.front 1 }, q.take 1)
  | .dequeueBulk limit =>
    ({ remaining := (q.take limit).queued.length, got := q.front limit }, q.take limit)
  | .dequeueWhole count =>
    if count ≤ q.queued.length then ({ got := q.front count }, q.take count)
    else ({ fault := some .empty }, q)

/-- What calls should do and tell, one after another. -/
def serveAll (capacity : Nat) (q : BoundedQueue α) :
    List (Nat × RingCall α) → List (RingReply α) × BoundedQueue α
  -- Each call finds the queue as the one before left it.
  | [] => ([], q)
  | (caller, call) :: rest =>
    let (reply, q) := q.serve capacity caller call
    let (replies, q) := q.serveAll capacity rest
    (reply :: replies, q)

/-- A queue from which nothing was lost, doubled or overtaken. -/
def Conserved (q : BoundedQueue α) : Prop :=
  -- What came in first has gone first, and the rest is still there.
  q.accepted = q.taken ++ q.queued

/-- A call loses, doubles and overtakes nothing. -/
theorem Conserved.serve {q : BoundedQueue α} (conserved : q.Conserved) (capacity caller : Nat)
    (call : RingCall α) : (q.serve capacity caller call).2.Conserved := by
  -- By cases on the call, each of which puts objects in behind or takes them off the front.
  have put : ∀ items, (q.put caller items).Conserved := by
    intro items
    simp only [Conserved, BoundedQueue.put]
    rw [conserved, List.append_assoc]
  have take : ∀ count, (q.take count).Conserved := by
    intro count
    simp only [Conserved, BoundedQueue.take]
    rw [List.append_assoc, List.take_append_drop]
    exact conserved
  cases call with
  | enqueue item =>
    rw [BoundedQueue.serve]
    split
    · exact put [item]
    · exact conserved
  | enqueueBulk items => exact put _
  | enqueueWhole items =>
    rw [BoundedQueue.serve]
    split
    · exact put items
    · exact conserved
  | dequeue => exact take 1
  | dequeueBulk limit => exact take limit
  | dequeueWhole count =>
    rw [BoundedQueue.serve]
    split
    · exact take count
    · exact conserved

/-- A call puts in what its caller gives, and takes out what its caller gets. -/
theorem serve_moves (q : BoundedQueue α) (capacity caller : Nat) (call : RingCall α) :
    let served := q.serve capacity caller call
    served.2.accepted = q.accepted ++ (served.1.given call).map (fun item => (caller, item)) ∧
      served.2.taken.map Prod.snd = q.taken.map Prod.snd ++ served.1.got := by
  -- By cases on the call: what fits of a list is its front, and what comes out is that of the queue.
  cases call with
  | enqueue item =>
    simp only [serve]
    split <;> simp [put, RingReply.given, RingCall.brought]
  | enqueueBulk items =>
    have front : items.take (items.length - (items.length - (capacity - q.queued.length))) =
        items.take (capacity - q.queued.length) := by
      rw [List.take_eq_take_iff]
      omega
    simp [serve, put, RingReply.given, RingCall.brought, front]
  | enqueueWhole items =>
    simp only [serve]
    split <;> simp [put, RingReply.given, RingCall.brought]
  | dequeue => simp [serve, take, front, RingReply.given, RingCall.brought]
  | dequeueBulk limit => simp [serve, take, front, RingReply.given, RingCall.brought]
  | dequeueWhole count =>
    simp only [serve]
    split <;> simp [take, front, RingReply.given, RingCall.brought]

/-- The objects that one caller gave over several calls, in order. -/
def givenBy (caller : Nat) (calls : List (Nat × RingCall α)) (replies : List (RingReply α)) :
    List α :=
  -- Calls of other callers in between do not matter.
  ((calls.zip replies).filter fun served => served.1.1 = caller).flatMap fun served =>
    served.2.given served.1.2

/-- Who put objects in does not change which they are. -/
@[simp] theorem snd_tagged (caller : Nat) (items : List α) :
    (items.map fun item => (caller, item)).map Prod.snd = items := by
  -- The caller is added to each object and taken off again.
  rw [List.map_map]
  exact List.map_id items

/-- Of the objects that a caller puts in, either all or none are its own. -/
theorem filter_caller (caller own : Nat) (items : List α) :
    ((items.map fun item => (own, item)).filter fun entry => entry.1 = caller).map Prod.snd =
      if own = caller then items else [] := by
  -- All objects are of the same caller.
  by_cases same : own = caller
  · have all : (items.map fun item => (own, item)).filter (fun entry => entry.1 = caller) =
        items.map fun item => (own, item) := by
      rw [List.filter_eq_self]
      simp [same]
    rw [if_pos same, all, snd_tagged]
  · simp [same]

/-- Over all calls, what came in is what the callers gave, each in its own order, and what went out
is what they got. -/
theorem serveAll_moves (capacity : Nat) (q : BoundedQueue α) (calls : List (Nat × RingCall α)) :
    let served := q.serveAll capacity calls
    (∀ caller, (served.2.accepted.filter fun entry => entry.1 = caller).map Prod.snd =
      (q.accepted.filter fun entry => entry.1 = caller).map Prod.snd ++
        givenBy caller calls served.1) ∧
      served.2.taken.map Prod.snd = q.taken.map Prod.snd ++ served.1.flatMap RingReply.got := by
  -- The logs only grow, so each call adds its own part behind those before.
  induction calls generalizing q with
  | nil => simp [serveAll, givenBy]
  | cons first rest ih =>
    obtain ⟨given, got⟩ := q.serve_moves capacity first.1 first.2
    obtain ⟨inward, outward⟩ := ih (q.serve capacity first.1 first.2).2
    constructor
    · intro caller
      have others := inward caller
      rw [given, List.filter_append, List.map_append, List.append_assoc, filter_caller] at others
      rw [serveAll]
      refine others.trans ?_
      by_cases own : first.1 = caller
      · simp [givenBy, own]
      · simp [givenBy, own]
    · rw [serveAll]
      refine outward.trans ?_
      rw [got]
      simp

/-- Calls lose, double and overtake nothing. -/
theorem Conserved.serveAll {q : BoundedQueue α} (conserved : q.Conserved) (capacity : Nat)
    (calls : List (Nat × RingCall α)) : (q.serveAll capacity calls).2.Conserved := by
  -- By induction on the calls.
  induction calls generalizing q with
  | nil => exact conserved
  | cons first rest ih => exact ih (conserved.serve capacity first.1 first.2)

end BoundedQueue

namespace Ring

variable {α : Type}

/-- A call does not change how many objects fit. -/
@[simp] theorem capacity_serve (r : Ring α) (call : RingCall α) :
    (r.serve call).2.capacity = r.capacity := by
  -- By cases on the call, and a refused one leaves the ring as it is.
  cases call with
  | enqueue item =>
    simp only [serve]
    split
    · rename_i put
      exact capacity_enqueue put
    · rfl
  | enqueueBulk items => exact r.capacity_enqueueBulk items
  | enqueueWhole items =>
    simp only [serve]
    split
    · rename_i put
      exact capacity_enqueueWhole put
    · rfl
  | dequeue =>
    simp only [serve]
    split
    · rename_i taken
      exact capacity_dequeue taken
    · rfl
  | dequeueBulk limit => exact r.capacity_dequeueBulk limit
  | dequeueWhole count =>
    simp only [serve]
    split
    · rename_i taken
      exact capacity_dequeueWhole taken
    · rfl

/-- A ring that holds what a queue does answers every call as the queue should, and still holds what
the queue does. -/
theorem Holds.serve {r : Ring α} {q : BoundedQueue α} (held : r.Holds (q.queued.map Prod.snd))
    (caller : Nat) (call : RingCall α) :
    (r.serve call).1 = (q.serve r.capacity caller call).1 ∧
      (r.serve call).2.Holds ((q.serve r.capacity caller call).2.queued.map Prod.snd) := by
  -- By cases on the call, whose answer depends on what is held and on how much fits.
  have length : (q.queued.map Prod.snd).length = q.queued.length := List.length_map ..
  have putting : ∀ items, (q.put caller items).queued.map Prod.snd =
      q.queued.map Prod.snd ++ items := by
    intro items
    rw [BoundedQueue.put, List.map_append, BoundedQueue.snd_tagged]
  have taking : ∀ count, (q.take count).queued.map Prod.snd =
      (q.queued.map Prod.snd).drop count := by
    intro count
    rw [BoundedQueue.take, List.map_drop]
  have oldest : ∀ count, q.front count = (q.queued.map Prod.snd).take count := by
    intro count
    rw [BoundedQueue.front, List.map_take]
  cases call with
  | enqueue item =>
    by_cases room : q.queued.length < r.capacity
    · obtain ⟨after, put, holds⟩ := held.enqueue_ok item (by rwa [length])
      simp only [Ring.serve, put, BoundedQueue.serve, if_pos room, putting]
      exact ⟨trivial, holds⟩
    · -- A full ring refuses the item, and so does the queue.
      have refused := held.enqueue_full item (by rw [length]; omega)
      simp only [Ring.serve, refused, BoundedQueue.serve, if_neg room]
      exact ⟨rfl, held⟩
  | enqueueBulk items =>
    obtain ⟨accepted, rest, holds⟩ := held.enqueueBulk_holds items
    rw [length] at accepted rest holds
    simp only [Ring.serve, BoundedQueue.serve, accepted, rest, putting]
    exact ⟨trivial, holds⟩
  | enqueueWhole items =>
    -- All items are taken or none.
    by_cases room : q.queued.length + items.length ≤ r.capacity
    · obtain ⟨after, put, holds⟩ := held.enqueueWhole_ok items (by rwa [length])
      simp only [Ring.serve, put, BoundedQueue.serve, if_pos room, putting]
      exact ⟨trivial, holds⟩
    · have refused := held.enqueueWhole_full items (by rw [length]; omega)
      simp only [Ring.serve, refused, BoundedQueue.serve, if_neg room]
      exact ⟨trivial, held⟩
  | dequeue =>
    simp only [BoundedQueue.serve, oldest, taking]
    cases items : q.queued.map Prod.snd with
    | nil =>
      rw [items] at held
      simp only [Ring.serve, held.dequeue_nil]
      exact ⟨rfl, held⟩
    | cons item rest =>
      rw [items] at held
      obtain ⟨after, taken, holds⟩ := held.dequeue_cons
      simp only [Ring.serve, taken]
      exact ⟨rfl, holds⟩
  | dequeueBulk limit =>
    obtain ⟨items, remaining, holds⟩ := held.dequeueBulk_holds limit
    -- What remains is counted on both sides.
    have left : (q.take limit).queued.length = ((q.queued.map Prod.snd).drop limit).length := by
      rw [← taking, List.length_map]
    simp only [Ring.serve, BoundedQueue.serve, items, remaining, oldest, taking, left]
    exact ⟨trivial, holds⟩
  | dequeueWhole count =>
    by_cases enough : count ≤ q.queued.length
    · obtain ⟨after, taken, holds⟩ := held.dequeueWhole_ok count (by rwa [length])
      simp only [Ring.serve, taken, BoundedQueue.serve, if_pos enough, oldest, taking]
      exact ⟨trivial, holds⟩
    · have refused := held.dequeueWhole_empty count (by rw [length]; omega)
      simp only [Ring.serve, refused, BoundedQueue.serve, if_neg enough]
      exact ⟨trivial, held⟩

/-- A ring answers all calls as a queue should, and ends up with what the queue holds. -/
theorem Holds.serveAll {r : Ring α} {q : BoundedQueue α} (held : r.Holds (q.queued.map Prod.snd))
    (calls : List (Nat × RingCall α)) :
    (r.serveAll (calls.map Prod.snd)).1 = (q.serveAll r.capacity calls).1 ∧
      (r.serveAll (calls.map Prod.snd)).2.Holds
        ((q.serveAll r.capacity calls).2.queued.map Prod.snd) ∧
      (r.serveAll (calls.map Prod.snd)).2.capacity = r.capacity := by
  -- The ring keeps what the queue keeps, call after call.
  induction calls generalizing r q with
  | nil => exact ⟨rfl, held, rfl⟩
  | cons first rest ih =>
    obtain ⟨reply, holds⟩ := held.serve first.1 first.2
    obtain ⟨replies, after, size⟩ := ih holds
    rw [capacity_serve] at replies after size
    refine ⟨?_, after, size⟩
    show (r.serve first.2).1 :: ((r.serve first.2).2.serveAll (rest.map Prod.snd)).1 = _
    rw [reply, replies]
    rfl

/-- A ring that keeps what a queue keeps. Its counter and its cursors show how many objects there
are, it drops exactly those when it is dropped, and neither reserving cursor is out of date. -/
structure Mirrors (r : Ring α) (q : BoundedQueue α) : Prop where
  bounded : q.queued.length ≤ r.capacity
  count : r.count = q.queued.length
  dropped : r.toList = q.queued.map Prod.snd
  produced : (r.prodHead - r.consTail).toNat = q.queued.length
  consumed : (r.prodTail - r.consHead).toNat = q.queued.length

/-- A ring at rest keeps what it holds. -/
theorem Holds.mirrors {r : Ring α} {q : BoundedQueue α} (held : r.Holds (q.queued.map Prod.snd)) :
    r.Mirrors q := by
  -- All that is asked for follows from what the ring holds.
  have length : (q.queued.map Prod.snd).length = q.queued.length := List.length_map ..
  have fits := held.fits
  have between : (r.prodTail - r.consTail).toNat = q.queued.length := by
    rw [held.span, distance_add _ _ fits, length]
  refine ⟨?_, ?_, held.toList_eq, ?_, ?_⟩
  · rwa [length] at fits
  · rw [held.count_eq, length]
  · rw [held.produced, between]
  · rw [held.consumed, between]

/-- A ring of any capacity that is a power of two and not too large can be made, and then answers
every series of calls as a queue of that capacity should. At every point it keeps what the queue
does, from which nothing was lost, doubled or overtaken: the queue was given what its callers gave,
those of each caller in that caller's order, and gave out what they got. -/
theorem serveAll_refines {capacity : Nat} (power : capacity.isPowerOfTwo)
    (small : capacity ≤ maxRingCapacity) (name : String) :
    ∃ r : Ring α, make name capacity = .ok r ∧ ∀ calls : List (Nat × RingCall α),
      let (replies, after) := r.serveAll (calls.map Prod.snd)
      let (expected, queue) := ({} : BoundedQueue α).serveAll capacity calls
      replies = expected ∧ after.Mirrors queue ∧ after.capacity = capacity ∧
        queue.accepted = queue.taken ++ queue.queued ∧
        queue.taken.map Prod.snd = replies.flatMap RingReply.got ∧
        ∀ caller, (queue.accepted.filter fun entry => entry.1 = caller).map Prod.snd =
          BoundedQueue.givenBy caller calls replies := by
  -- Ring and queue start empty, and each call keeps them in step with the same answer.
  have possible : ∃ r : Ring α, make name capacity = .ok r := make_ok_iff.mpr ⟨power, small⟩
  obtain ⟨r, made⟩ := possible
  have size : r.capacity = capacity := capacity_make made
  refine ⟨r, made, ?_⟩
  intro calls
  have empty : r.Holds (({} : BoundedQueue α).queued.map Prod.snd) := holds_make made
  obtain ⟨replies, held, same⟩ := empty.serveAll calls
  rw [size] at replies held same
  have nothing : ({} : BoundedQueue α).Conserved := rfl
  obtain ⟨given, got⟩ := BoundedQueue.serveAll_moves capacity ({} : BoundedQueue α) calls
  refine ⟨replies, held.mirrors, same, nothing.serveAll capacity calls, ?_, ?_⟩
  · rw [replies]
    exact got
  · intro caller
    rw [replies]
    exact given caller

/-- A ring of two takes two of three objects, and gives the first one to another caller. -/
theorem serveAll_refines_pair :
    ∃ r : Ring Nat, make "pair" 2 = .ok r ∧
      (r.serveAll [.enqueueBulk [1, 2, 3], .dequeue]).1 =
        [{ accepted := some 2, kept := [3] }, { got := [1] }] ∧
      (r.serveAll [.enqueueBulk [1, 2, 3], .dequeue]).2.toList = [2] := by
  -- The answers are those of the queue, so only the queue is computed.
  obtain ⟨r, made, all⟩ := @serveAll_refines Nat 2 ⟨1, rfl⟩ (by decide) "pair"
  obtain ⟨replies, mirrors, -⟩ := all [(0, .enqueueBulk [1, 2, 3]), (1, .dequeue)]
  exact ⟨r, made, replies, mirrors.dropped⟩

end Ring

end PacketPlane
