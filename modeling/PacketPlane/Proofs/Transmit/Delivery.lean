import PacketPlane.Proofs.Worker.Flow

/-! Deliveries: every packet that waits in a backlog goes to the output, is given back, or waits. -/

namespace PacketPlane

namespace Backlog

/-- A backlog after some of its packets went, from the front, to the output or back to their
pools, with an outcome that counts those. -/
structure Delivers (ends : Ends) (b : Backlog) (p : Plane) (outcome : Outcome) (b' : Backlog)
    (q : Plane) (f : Flow) : Prop where
  hauls : Plane.Hauls ends p q f
  pulled : f.pulled = []
  order : b.pending = f.accepted ++ f.released ++ b'.pending
  counted : outcome.sent + outcome.dropped = f.accepted.length + f.released.length
  threshold : b'.threshold = b.threshold
  policy : b'.policy = b.policy
  lives : q.lives = p.lives

variable {ends : Ends} {target : Target}

/-- An attempt delivers what the output accepts and leaves the rest waiting. -/
theorem tryFlush_delivers (output : ends.target = some target) (b : Backlog) (p : Plane) :
    let flushed := b.tryFlush target.sender p
    (∃ accepted, Delivers ends b p flushed.1 flushed.2.1 flushed.2.2 { accepted }) ∧
      flushed.1.dropped = 0 := by
  -- Nothing is sent from an empty backlog, and otherwise the output takes the front.
  simp only [tryFlush]
  split
  · refine ⟨⟨[], ?_, rfl, rfl, rfl, rfl, rfl, rfl⟩, rfl⟩
    exact Plane.Hauls.of_same (Plane.SameRings.refl p) fun _ _ => rfl
  · obtain ⟨rest, most, put⟩ := target.sender_puts p b.pending
    refine ⟨⟨b.pending.take (target.sender p b.pending).accepted,
      Plane.Hauls.of_puts output put, rfl, ?_, ?_, rfl, rfl,
      congrArg Surroundings.lives put.surroundings⟩, rfl⟩
    · rw [List.append_nil, rest, List.take_append_drop]
    · show (target.sender p b.pending).accepted + 0 = (b.pending.take _).length + 0
      rw [List.length_take, Nat.min_eq_left most]

/-- Giving up what waits gives all of it back. -/
theorem dropPending_delivers (ends : Ends) (b : Backlog) (p : Plane) :
    let dropped := b.dropPending p
    Delivers ends b p { dropped := dropped.1 } dropped.2.1 dropped.2.2
      { released := b.pending } := by
  -- All that waits is released, and counted as dropped.
  refine ⟨Plane.Hauls.of_releaseAll ends p b.pending, rfl, ?_, ?_, rfl, rfl, rfl⟩
  · simp [dropPending]
  · simp [dropPending, len]

/-- Discarding what waits gives all of it back. -/
theorem discard_delivers (ends : Ends) (b : Backlog) (p : Plane) :
    let discarded := b.discard p
    Delivers ends b p discarded.1 discarded.2.1 discarded.2.2 { released := b.pending } := by
  -- All that waits is released, and counted as sent.
  refine ⟨Plane.Hauls.of_releaseAll ends p b.pending, rfl, ?_, ?_, rfl, rfl, rfl⟩
  · simp [discard]
  · simp [discard, len]

/-- A delivery does not depend on the attempts remembered. -/
theorem Delivers.setAttempts {b b' : Backlog} {p q : Plane} {outcome : Outcome} {f : Flow}
    (delivers : Delivers ends b p outcome b' q f) (attempts : UInt32) :
    Delivers ends b p outcome { b' with attempts } q f := by
  -- None of the parts is about attempts.
  exact ⟨delivers.hauls, delivers.pulled, delivers.order, delivers.counted, delivers.threshold,
    delivers.policy, delivers.lives⟩

/-- What an attempt left may be given up. -/
theorem Delivers.dropPending {b b' : Backlog} {p q : Plane} {outcome : Outcome}
    {accepted : List Packet} (delivers : Delivers ends b p outcome b' q { accepted })
    (kept : outcome.dropped = 0) :
    let dropped := b'.dropPending q
    Delivers ends b p { outcome with dropped := dropped.1 } dropped.2.1 dropped.2.2
      { accepted, released := b'.pending } := by
  -- The attempt delivered some and the rest is released, which are two flows in a row.
  have given := dropPending_delivers ends b' q
  have hauls := delivers.hauls.trans given.hauls
  have order : b.pending = accepted ++ [] ++ b'.pending := delivers.order
  have counted : outcome.sent + outcome.dropped = accepted.length + 0 := delivers.counted
  have flow : ({ accepted } : Flow) ++ { released := b'.pending } =
      { accepted, released := b'.pending } := by
    show Flow.mk ([] ++ []) (accepted ++ []) ([] ++ b'.pending) ([] ++ []) = _
    simp
  rw [flow] at hauls
  refine ⟨hauls, rfl, ?_, ?_, delivers.threshold, delivers.policy, delivers.lives⟩
  · show b.pending = accepted ++ b'.pending ++ []
    rw [order, List.append_nil, List.append_nil]
  · show outcome.sent + b'.len = accepted.length + b'.pending.length
    rw [len]
    omega

/-- A flush delivers what the output accepts, and gives back what the policy gives up. -/
theorem flush_delivers (output : ends.target = some target) (b : Backlog) (p : Plane) :
    let flushed := b.flush target.sender p
    ∃ f, Delivers ends b p flushed.1 flushed.2.1 flushed.2.2 f := by
  -- By cases on what the attempt left and what the policy says to it.
  obtain ⟨⟨accepted, delivers⟩, kept⟩ := tryFlush_delivers output b p
  simp only [flush]
  split
  · exact ⟨{ accepted }, delivers.setAttempts 0⟩
  · split
    · exact ⟨_, (delivers.setAttempts _).dropPending kept⟩
    · exact ⟨{ accepted }, delivers.setAttempts _⟩

/-- A packet buffered waits behind the others, and once the threshold is reached what the output
accepts is delivered. -/
theorem buffer_delivers (output : ends.target = some target) (b : Backlog) (packet : Packet)
    (p : Plane) :
    let buffered := b.buffer packet target.sender p
    ∃ f, Delivers ends { b with pending := b.pending ++ [packet] } p buffered.1 buffered.2.1
      buffered.2.2 f := by
  -- By cases on the threshold, below which nothing is tried.
  simp only [buffer]
  split
  · refine ⟨{}, ?_, rfl, rfl, rfl, rfl, rfl, rfl⟩
    exact Plane.Hauls.of_same (Plane.SameRings.refl p) fun _ _ => rfl
  · obtain ⟨⟨accepted, delivers⟩, -⟩ :=
      tryFlush_delivers output { b with pending := b.pending ++ [packet] } p
    split
    · exact ⟨{ accepted }, delivers.setAttempts 0⟩
    · exact ⟨{ accepted }, delivers⟩

end Backlog

end PacketPlane
