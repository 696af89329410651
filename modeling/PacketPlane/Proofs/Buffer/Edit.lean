import PacketPlane.Proofs.Buffer.Trade

/-! Edits of packets: whatever is done to a packet, no reference is gained or lost by it. -/

namespace PacketPlane

/-- One thing done to the packet in a buffer, accepted or refused. -/
inductive Edit where
  | prepend (count : Nat)
  | append (count : Nat)
  | pull (count : Nat)
  | trim (count : Nat)
  | reset
  | copy (bytes : List UInt8)
  | setPort (port : UInt16)
  | setTimestamp (timestamp : UInt64)
  | write (offset : Nat) (bytes : List UInt8)
deriving DecidableEq, Repr

/-- The buffers after a packet was edited. -/
def Buffers.perform (b : Buffers) (packet : Packet) : Edit → Buffers
  -- A refused edit may still have emptied the packet, and bytes are only stored inside of it.
  | .prepend count => ((b.prepend? packet count).map (·.2)).getD b
  | .append count => ((b.append? packet count).map (·.2)).getD b
  | .pull count => ((b.pull? packet count).map (·.2)).getD b
  | .trim count => (b.trim packet count).2
  | .reset => (b.reset packet).2
  | .copy bytes => (b.copy packet bytes).2
  | .setPort port => (b.setPort packet port).2
  | .setTimestamp timestamp => (b.setTimestamp packet timestamp).2
  | .write offset bytes =>
    match b.writable? packet with
    | none => b
    | some (start, len) => b.writeBytes packet (start + offset) (bytes.take (len - offset))

/-- A change of a slot that leaves its references and releases alone. -/
def Slot.Spares {α : Type} (change : Slot → Option (α × Slot)) : Prop :=
  -- A refused change does nothing at all.
  ∀ s result after, change s = some (result, after) →
    after.refcount = s.refcount ∧ after.generation = s.generation

namespace Slot

/-- An exclusively held slot is the slot itself. -/
theorem exclusive?_eq_some {s after : Slot} (held : s.exclusive? = some after) : after = s := by
  -- The guard hands on what it lets through.
  rw [exclusive?] at held
  split at held
  · cases held
    rfl
  · cases held

/-- Growing a packet at its front spares its slot's references. -/
theorem spares_prepend? (count : Nat) : Spares (·.prepend? count) := by
  -- Of the branches, only the last one changes the slot, and it sets its window.
  intro s result after changed
  simp only [prepend?] at changed
  cases held : s.exclusive? with
  | none => simp [held] at changed
  | some t =>
    obtain rfl := exclusive?_eq_some held
    simp only [held] at changed
    split at changed
    · cases changed
    · split at changed
      · cases changed
      · cases changed
        exact ⟨rfl, rfl⟩

/-- Growing a packet at its back spares its slot's references. -/
theorem spares_append? (room count : Nat) : Spares (·.append? room count) := by
  -- A change that fits and is not shared sets the length alone.
  intro s result after changed
  simp only [append?] at changed
  split at changed
  · cases changed
  · cases held : s.exclusive? with
    | none => simp [held] at changed
    | some t =>
      obtain rfl := exclusive?_eq_some held
      simp only [held] at changed
      cases changed
      exact ⟨rfl, rfl⟩

/-- Shrinking a packet at its front spares its slot's references. -/
theorem spares_pull? (count : Nat) : Spares (·.pull? count) := by
  -- Of the branches, only the last one changes the slot, and it sets its window.
  intro s result after changed
  simp only [pull?] at changed
  cases held : s.exclusive? with
  | none => simp [held] at changed
  | some t =>
    obtain rfl := exclusive?_eq_some held
    simp only [held] at changed
    split at changed
    · cases changed
    · split at changed
      · cases changed
      · cases changed
        exact ⟨rfl, rfl⟩

/-- Shrinking a packet at its back spares its slot's references. -/
theorem spares_trim? (count : Nat) : Spares fun s => (s.trim? count).map ((), ·) := by
  -- Of the branches, only the last one changes the slot, and it sets its length.
  intro s result after changed
  simp only [trim?, Option.map_eq_some_iff] at changed
  obtain ⟨t, trimmed, same⟩ := changed
  cases held : s.exclusive? with
  | none => simp [held] at trimmed
  | some u =>
    obtain rfl := exclusive?_eq_some held
    simp only [held] at trimmed
    split at trimmed
    · cases trimmed
      cases same
      exact ⟨rfl, rfl⟩
    · cases trimmed

/-- A change that only replaces fields of an exclusively held packet spares its references. -/
theorem spares_map {change : Slot → Slot} (refcount : ∀ s, (change s).refcount = s.refcount)
    (generation : ∀ s, (change s).generation = s.generation) :
    Spares fun s => (s.exclusive?.map change).map ((), ·) := by
  -- The guard leaves the slot as it is, so what the change spares is spared.
  intro s result after changed
  simp only [Option.map_map, Option.map_eq_some_iff] at changed
  obtain ⟨t, held, same⟩ := changed
  obtain rfl := exclusive?_eq_some held
  cases same
  exact ⟨refcount t, generation t⟩

end Slot

namespace Pool

/-- Two states of a pool that differ in packets alone. -/
structure Alike (p q : Pool) : Prop where
  free : q.free = p.free
  size : q.capacity = p.capacity
  inUse : q.inUse = p.inUse
  refcount : ∀ i, q.refcount i = p.refcount i
  generation? : ∀ i, q.generation? i = p.generation? i

/-- A pool differs from itself in nothing. -/
theorem Alike.refl (p : Pool) : p.Alike p :=
  -- Nothing is compared but a pool with itself.
  ⟨rfl, rfl, rfl, fun _ => rfl, fun _ => rfl⟩

/-- Pools that differ in packets alone may do so in several steps. -/
theorem Alike.trans {p q r : Pool} (first : p.Alike q) (second : q.Alike r) : p.Alike r where
  -- Each part is an equation, and equations follow on one another.
  free := second.free.trans first.free
  size := second.size.trans first.size
  inUse := second.inUse.trans first.inUse
  refcount i := (second.refcount i).trans (first.refcount i)
  generation? i := (second.generation? i).trans (first.generation? i)

/-- A change that spares a slot's references changes packets alone. -/
theorem edit_alike {α : Type} {p q : Pool} {index : Nat} {change : Slot → Option (α × Slot)}
    (spares : Slot.Spares change) {result : α} (changed : p.edit index change = some (result, q)) :
    p.Alike q := by
  -- The changed slot keeps its count and its generation, and no other slot is touched.
  rw [edit] at changed
  split at changed
  · cases changed
  · rename_i s found
    obtain ⟨inside, here⟩ := Array.getElem?_eq_some_iff.mp found
    split at changed
    · cases changed
    · rename_i t done
      cases changed
      obtain ⟨refcount, generation⟩ := spares _ _ _ done
      refine ⟨rfl, by simp [capacity], rfl, ?_, ?_⟩
      · intro i
        simp only [Pool.refcount, Array.getElem?_setIfInBounds]
        by_cases same : index = i
        · subst same
          simp [inside, here, refcount]
        · simp [same]
      · intro i
        simp only [Pool.generation?, Array.getElem?_setIfInBounds]
        by_cases same : index = i
        · subst same
          simp [inside, here, generation]
        · simp [same]

/-- A change without a result that spares a slot's references changes packets alone. -/
theorem editUnit_alike {p : Pool} {index : Nat} {change : Slot → Option Slot}
    (spares : Slot.Spares fun s => (change s).map ((), ·)) :
    p.Alike (p.editUnit index change).2 := by
  -- A change that is refused leaves the pool as it is.
  rw [editUnit]
  split
  · exact Alike.refl p
  · rename_i changed
    exact edit_alike spares changed

/-- Storing bytes changes packets alone. -/
theorem writeBytes_alike (p : Pool) (index start : Nat) (bytes : List UInt8) :
    p.Alike (p.writeBytes index start bytes) :=
  -- Bytes are stored in the region, which is no part of the comparison.
  ⟨rfl, rfl, rfl, fun _ => rfl, fun _ => rfl⟩

/-- Replacing a packet's bytes changes packets alone. -/
theorem copy_alike (p : Pool) (index : Nat) (bytes : List UInt8) :
    p.Alike (p.copy index bytes).2 := by
  -- The packet is emptied, grown, and written over.
  have emptied : p.Alike (p.editUnit index (Slot.reset? p.headroom)).2 :=
    editUnit_alike (Slot.spares_map (fun _ => rfl) fun _ => rfl)
  rw [copy]
  split
  · rename_i q refused
    rwa [refused] at emptied
  · rename_i q accepted
    rw [accepted] at emptied
    split
    · exact emptied
    · rename_i grown
      exact (emptied.trans (edit_alike (Slot.spares_append? _ _) grown)).trans
        (writeBytes_alike _ _ _ _)

end Pool

namespace Buffers

/-- Buffers of which at most one pool was replaced, by one that differs in packets alone. -/
inductive Alike (b : Buffers) : Buffers → Prop
  | same : Alike b b
  | setPool {k : Nat} {p q : Pool} (found : b.pools[k]? = some p) (alike : p.Alike q) :
    Alike b (b.setPool k q)

variable {b after : Buffers}

/-- Buffers that differ in packets alone neither gained nor lost a reference. -/
theorem Alike.trades (alike : b.Alike after) {pool : Nat} {moving : List Nat}
    (balanced : b.Balanced pool moving) :
    after.Balanced pool moving ∧ Trades b after [] [] := by
  -- The pool that changed keeps its free ring and its counts, so its balance holds as before.
  cases alike with
  | same => exact ⟨balanced, Trades.refl b⟩
  | setPool found alike =>
    obtain ⟨free, own⟩ := balanced _ _ found
    refine ⟨balanced.setPool found ⟨free, ?_⟩, Trades.setPool found (by simp) ?_ ?_⟩
    · exact own.congr alike.free alike.size alike.inUse alike.refcount
    · intro i
      simp [alike.refcount]
    · intro i _
      exact alike.generation? i

/-- Buffers that differ in packets alone have released the same slots as often. -/
theorem Alike.generation? (alike : b.Alike after) (packet : Packet) :
    after.generation? packet = b.generation? packet := by
  -- Only the pool that was replaced needs a look, and its generations are the same.
  cases alike with
  | same => rfl
  | setPool found alike =>
    rw [generation?_setPool found]
    split
    · rename_i same
      subst same
      rw [alike.generation?, generation?_eq, found, Option.bind_some]
    · rfl

/-- A change that spares a slot's references changes packets alone. -/
theorem edit_alike {α : Type} {packet : Packet} {change : Pool → Slot → Option (α × Slot)}
    (spares : ∀ p, Slot.Spares (change p)) {result : α}
    (changed : b.edit packet change = some (result, after)) : b.Alike after := by
  -- The edited pool is put back in its place.
  rw [edit] at changed
  split at changed
  · cases changed
  · rename_i p found
    split at changed
    · cases changed
    · rename_i q done
      cases changed
      exact .setPool found (Pool.edit_alike (spares p) done)

/-- A change without a result that spares a slot's references changes packets alone. -/
theorem editUnit_alike {packet : Packet} {change : Pool → Slot → Option Slot}
    (spares : ∀ p, Slot.Spares fun s => (change p s).map ((), ·)) :
    b.Alike (b.editUnit packet change).2 := by
  -- A change that is refused leaves the buffers as they are.
  rw [editUnit]
  split
  · exact .same
  · rename_i changed
    exact edit_alike spares changed

/-- A window that was grown or shrunk, if it was, changes packets alone. -/
theorem edited_alike {packet : Packet} {change : Pool → Slot → Option (Nat × Slot)}
    (spares : ∀ p, Slot.Spares (change p)) :
    b.Alike (((b.edit packet change).map (·.2)).getD b) := by
  -- A window that could not be changed leaves the buffers as they are.
  cases changed : b.edit packet change with
  | none => exact .same
  | some outcome => exact edit_alike spares changed

/-- Storing bytes changes packets alone. -/
theorem writeBytes_alike (packet : Packet) (start : Nat) (bytes : List UInt8) :
    b.Alike (b.writeBytes packet start bytes) := by
  -- A pool that does not exist stores nothing.
  rw [writeBytes]
  cases found : b.pools[packet.pool]? with
  | none =>
    rw [modifyPool_none found]
    exact .same
  | some p =>
    rw [modifyPool_eq found]
    exact .setPool found (p.writeBytes_alike packet.index start bytes)

/-- Every edit of a packet changes packets alone. -/
theorem perform_alike (packet : Packet) (edit : Edit) : b.Alike (b.perform packet edit) := by
  -- By cases on the edit, each of which is made of changes that spare references.
  cases edit with
  | prepend count => exact edited_alike fun _ => Slot.spares_prepend? count
  | append count => exact edited_alike fun p => Slot.spares_append? p.dataRoom count
  | pull count => exact edited_alike fun _ => Slot.spares_pull? count
  | trim count => exact editUnit_alike fun _ => Slot.spares_trim? count
  | reset => exact editUnit_alike fun _ => Slot.spares_map (fun _ => rfl) fun _ => rfl
  | setPort port => exact editUnit_alike fun _ => Slot.spares_map (fun _ => rfl) fun _ => rfl
  | setTimestamp timestamp =>
    exact editUnit_alike fun _ => Slot.spares_map (fun _ => rfl) fun _ => rfl
  | copy bytes =>
    simp only [perform, copy]
    cases found : b.pools[packet.pool]? with
    | none => exact .same
    | some p => exact .setPool found (p.copy_alike packet.index bytes)
  | write offset bytes =>
    simp only [perform]
    cases b.writable? packet with
    | none => exact .same
    | some window => exact writeBytes_alike packet _ _

end Buffers

end PacketPlane
