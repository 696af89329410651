import PacketPlane.Proofs.Transmit.Fates

/-! Retries: how many flushes that leave packets behind a backlog bears before it gives them up, and
when it forgets those it has borne. -/

namespace PacketPlane

/-- One call on a backlog, with whatever sender it hands packets to. -/
inductive TrialCall where
  | buffer (packet : Packet) (send : Sender)
  | flush (send : Sender)
  | tryFlush (send : Sender)
  | discard
  | dropPending

/-- What a call makes of a backlog, on a plane. -/
def TrialCall.perform (b : Backlog) (p : Plane) : TrialCall → Backlog
  -- What a call tells, and the plane after it, do not matter here.
  | .buffer packet send => (b.buffer packet send p).2.1
  | .flush send => (b.flush send p).2.1
  | .tryFlush send => (b.tryFlush send p).2.1
  | .discard => (b.discard p).2.1
  | .dropPending => (b.dropPending p).2.1

/-- A backlog on trial: how many flushes have left packets behind since it was last empty, and how many
of those before that are still held against it. -/
structure Trial where
  backlog : Backlog
  refused : Nat := 0
  carried : Nat := 0

namespace Trial

/-- The trial after a call. -/
def call (t : Trial) (p : Plane) (c : TrialCall) : Trial :=
  let backlog := c.perform t.backlog p
  if backlog.pending = [] then
    match c with
    -- Nothing is forgotten when a bare attempt takes the last packet.
    | .tryFlush _ => { backlog, carried := t.refused + t.carried }
    | _ => { backlog }
  else
    match c with
    | .flush _ => { t with backlog, refused := t.refused + 1 }
    | _ => { t with backlog }

/-- Trials that calls lead to, starting with an empty backlog that retries up to a limit. Plane and
sender are new ones at each call. In a careful run, no bare attempt takes the last packet after a
flush that left packets behind. -/
inductive Reachable (limit : UInt32) (careful : Bool) : Trial → Prop
  | start (threshold : Nat) :
    Reachable limit careful { backlog := Backlog.make threshold (.retry limit) }
  | call {t : Trial} (run : Reachable limit careful t) (p : Plane) (c : TrialCall)
    (care : careful = true → ∀ send, c = .tryFlush send →
      (c.perform t.backlog p).pending = [] → t.refused = 0) :
    Reachable limit careful (t.call p c)

end Trial

namespace Backlog

/-- What a sender leaves behind of the packets that wait. -/
def left (b : Backlog) (send : Sender) (p : Plane) : List Packet :=
  -- A sender is not called for nothing.
  if b.pending.isEmpty then [] else (send p b.pending).rest

variable {b : Backlog} {send : Sender} {p : Plane}

/-- An attempt leaves behind what the sender does, and remembers what it did before. -/
theorem tryFlush_backlog (b : Backlog) (send : Sender) (p : Plane) :
    (b.tryFlush send p).2.1 = { b with pending := b.left send p } := by
  -- An empty backlog makes no attempt, and stays empty.
  rw [tryFlush, left]
  split
  · rename_i empty
    rw [List.isEmpty_iff] at empty
    exact congrArg (fun pending => { b with pending }) empty
  · rfl

/-- A sender that leaves everything behind leaves all that waits. -/
theorem left_of_refuses (refuses : ∀ packets, (send p packets).rest = packets) :
    b.left send p = b.pending := by
  -- An empty backlog makes no attempt, and stays empty.
  rw [left]
  split
  · rename_i empty
    exact (List.isEmpty_iff.mp empty).symm
  · exact refuses b.pending

/-- Putting a packet into a backlog sends what waits once there is enough, and forgets the attempts
only if that leaves nothing behind. -/
theorem buffer_backlog (b : Backlog) (packet : Packet) (send : Sender) (p : Plane) :
    let queued : Backlog := { b with pending := b.pending ++ [packet] }
    let pending := if queued.len < b.threshold then queued.pending else queued.left send p
    (b.buffer packet send p).2.1 =
      { b with pending, attempts := if pending = [] then 0 else b.attempts } := by
  -- By cases on the threshold, and then on whether the attempt left anything.
  intro queued pending
  by_cases short : queued.len < b.threshold
  · simp [buffer, pending, queued, short]
  · have tried := queued.tryFlush_backlog send p
    simp only [buffer, pending, queued, short, if_false] at tried ⊢
    rw [tried]
    by_cases empty : queued.left send p = []
    · simp [isEmpty, queued, empty]
    · simp [isEmpty, queued, empty]

/-- One more attempt is counted until the count is at its end. -/
theorem toNat_countAttempt (attempts : UInt32) :
    (countAttempt attempts).toNat = min (attempts.toNat + 1) (UInt32.size - 1) := by
  -- The count stops at its end, and does not wrap below it.
  have := attempts.toNat_lt
  rw [countAttempt]
  split
  · rename_i last
    rw [last]
    rfl
  · rename_i before
    have apart : attempts.toNat ≠ UInt32.size - 1 := fun same => before (UInt32.toNat_inj.mp same)
    rw [UInt32.toNat_add]
    simp only [UInt32.toNat_one, UInt32.size] at apart ⊢
    omega

/-- A flush with a retrying policy: it forgets all attempts when nothing is left behind, gives up what
is left when that is one attempt too many, and otherwise leaves it waiting with one attempt more. -/
theorem flush_retry {limit : UInt32} (policy : b.policy = .retry limit) (send : Sender)
    (p : Plane) :
    let done := b.flush send p
    let spent := countAttempt b.attempts > limit
    done.1.dropped = (if spent then (b.left send p).length else 0) ∧
    done.2.1.pending = (if spent then [] else b.left send p) ∧
    done.2.1.attempts =
      (if spent ∨ b.left send p = [] then 0 else countAttempt b.attempts) ∧
    done.2.1.policy = b.policy := by
  -- By cases on whether the attempt left anything, and then on whether it was one too many.
  obtain ⟨outcome, q, tried⟩ : ∃ outcome q,
      b.tryFlush send p = (outcome, { b with pending := b.left send p }, q) :=
    ⟨_, _, Prod.ext rfl (Prod.ext (b.tryFlush_backlog send p) rfl)⟩
  have kept : outcome.dropped = 0 := by
    have same : outcome = (b.tryFlush send p).1 := by rw [tried]
    rw [same, tryFlush]
    split <;> rfl
  simp only [flush, tried, isEmpty, List.isEmpty_iff]
  by_cases empty : b.left send p = []
  · simp [empty, kept]
  · by_cases spent : countAttempt b.attempts > limit
    · simp [empty, giveUp, policy, spent, dropPending, len]
    · simp [empty, giveUp, policy, spent, kept]

end Backlog

namespace Trial

variable {limit : UInt32} {careful : Bool} {t : Trial}

/-- A trial whose backlog remembers as many attempts as are held against it, as far as it can count,
and never more than its limit allows. -/
structure Sound (limit : UInt32) (t : Trial) : Prop where
  policy : t.backlog.policy = .retry limit
  attempts : t.backlog.attempts.toNat = min (t.refused + t.carried) (UInt32.size - 1)
  within : limit ≠ 0xffffffff → t.refused + t.carried ≤ limit.toNat

/-- The next attempt is one too many exactly when as many as the limit allows are held against the
backlog, unless the limit is one that no count exceeds. -/
theorem Sound.spent_iff (sound : t.Sound limit) :
    Backlog.countAttempt t.backlog.attempts > limit ↔
      t.refused + t.carried = limit.toNat ∧ limit ≠ 0xffffffff := by
  -- The count is within the limit, so only the next one can exceed it.
  have bounded := limit.toNat_lt
  have top : limit ≠ 0xffffffff ↔ limit.toNat ≠ UInt32.size - 1 :=
    not_congr UInt32.toNat_inj.symm
  have within := sound.within
  rw [gt_iff_lt, UInt32.lt_iff_toNat_lt, Backlog.toNat_countAttempt, sound.attempts]
  rw [top] at within ⊢
  simp only [UInt32.size] at within ⊢
  omega

/-- A flush drops what it leaves behind exactly when as many earlier ones as the limit allows are held
against the backlog. -/
theorem Sound.flush (sound : t.Sound limit) (send : Sender) (p : Plane) :
    let done := t.backlog.flush send p
    let left := t.backlog.left send p
    let spent := t.refused + t.carried = limit.toNat ∧ limit ≠ 0xffffffff
    done.1.dropped = (if spent then left.length else 0) ∧
    done.2.1.pending = (if spent then [] else left) := by
  -- How many attempts are too many is told by what is held against the backlog.
  obtain ⟨dropped, pending, -⟩ := Backlog.flush_retry sound.policy send p
  simp only [sound.spent_iff] at dropped pending
  exact ⟨dropped, pending⟩

/-- A backlog that has forgotten all attempts is on a sound trial. -/
theorem Sound.forgotten {backlog : Backlog} (policy : backlog.policy = .retry limit)
    (attempts : backlog.attempts = 0) : Sound limit { backlog } :=
  ⟨policy, by rw [attempts]; rfl, fun _ => Nat.zero_le _⟩

/-- A backlog that keeps its attempts stays on a sound trial. -/
theorem Sound.kept (sound : t.Sound limit) {backlog : Backlog} {refused carried : Nat}
    (policy : backlog.policy = t.backlog.policy) (attempts : backlog.attempts = t.backlog.attempts)
    (same : refused + carried = t.refused + t.carried) : Sound limit ⟨backlog, refused, carried⟩ :=
  ⟨policy.trans sound.policy, by rw [attempts, same, sound.attempts],
    fun bounded => by rw [same]; exact sound.within bounded⟩

/-- Every call keeps a trial sound. -/
theorem Sound.call (sound : t.Sound limit) (p : Plane) (c : TrialCall) :
    (t.call p c).Sound limit := by
  cases c with
  | buffer packet send =>
    obtain ⟨pending, after⟩ : ∃ pending, (t.backlog.buffer packet send p).2.1 =
        { t.backlog with pending, attempts := if pending = [] then 0 else t.backlog.attempts } :=
      ⟨_, t.backlog.buffer_backlog packet send p⟩
    simp only [Trial.call, TrialCall.perform, after]
    -- A buffer that emptied the backlog forgets, and any other keeps its count.
    by_cases empty : pending = []
    · simp only [if_pos empty]
      exact .forgotten sound.policy rfl
    · simp only [if_neg empty]
      exact sound.kept rfl rfl rfl
  | flush send =>
    obtain ⟨-, pending, attempts, policy⟩ := Backlog.flush_retry sound.policy send p
    simp only [sound.spent_iff] at pending attempts
    have flushed : (t.backlog.flush send p).2.1 = (TrialCall.flush send).perform t.backlog p := rfl
    rw [flushed] at pending attempts policy
    simp only [Trial.call]
    by_cases empty : ((TrialCall.flush send).perform t.backlog p).pending = []
    · rw [if_pos empty]
      -- Nothing waits after a flush that left nothing behind or gave it up.
      have gone : (t.refused + t.carried = limit.toNat ∧ limit ≠ 0xffffffff) ∨
          t.backlog.left send p = [] := by
        rw [empty] at pending
        split at pending
        · exact .inl ‹_›
        · exact .inr pending.symm
      rw [if_pos gone] at attempts
      exact .forgotten (policy.trans sound.policy) attempts
    · rw [if_neg empty]
      have waiting := pending ▸ empty
      -- Something waits, so the refusals were not yet as many as the limit.
      have bears : ¬ (t.refused + t.carried = limit.toNat ∧ limit ≠ 0xffffffff) :=
        fun spent => waiting (if_pos spent)
      rw [if_neg bears] at waiting
      rw [if_neg (not_or.mpr ⟨bears, waiting⟩)] at attempts
      refine ⟨policy.trans sound.policy, ?_, ?_⟩
      · rw [attempts, Backlog.toNat_countAttempt, sound.attempts]
        simp only [UInt32.size]
        omega
      · intro bounded
        have within := sound.within bounded
        have fewer : t.refused + t.carried ≠ limit.toNat := fun same => bears ⟨same, bounded⟩
        simp only
        omega
  | tryFlush send =>
    have after := t.backlog.tryFlush_backlog send p
    simp only [Trial.call, TrialCall.perform, after]
    split
    · exact sound.kept rfl rfl (Nat.zero_add _)
    · exact sound.kept rfl rfl rfl
  | discard => exact .forgotten sound.policy rfl
  | dropPending => exact .forgotten sound.policy rfl

/-- Every trial that calls lead to is sound. -/
theorem Reachable.sound (run : Reachable limit careful t) : t.Sound limit := by
  -- It starts with an empty backlog that has nothing to remember.
  induction run with
  | start threshold => exact .forgotten rfl rfl
  | call _ p c _ ih => exact ih.call p c

/-- A run that need not be careful goes on with any call. -/
theorem Reachable.goOn (run : Reachable limit false t) (p : Plane) (c : TrialCall) :
    Reachable limit false (t.call p c) :=
  run.call p c fun careful => absurd careful Bool.false_ne_true

/-- Every careful run is a run. -/
theorem Reachable.careless (run : Reachable limit careful t) : Reachable limit false t := by
  -- By induction on the run, whose calls are the same.
  induction run with
  | start threshold => exact .start threshold
  | call _ p c _ ih => exact ih.goOn p c

/-- A careful run holds nothing against a backlog from before it was last empty. -/
theorem Reachable.carried_eq (run : Reachable limit true t) : t.carried = 0 := by
  induction run with
  | start threshold => rfl
  | @call t run p c care ih =>
    -- Only an attempt that takes the last packet could carry something over.
    simp only [Trial.call]
    split
    · rename_i empty
      split
      · rename_i send
        show t.refused + t.carried = 0
        rw [care rfl send rfl empty, ih]
      · rfl
    · split <;> exact ih

/-- A flush on trial drops what it leaves behind exactly when it is the one after as many as the limit
allows, counted from the last moment at which the backlog was empty. A backlog with the largest limit
never drops anything. -/
def Lawful (limit : UInt32) (t : Trial) : Prop :=
  ∀ send p, (t.backlog.flush send p).1.dropped ≠ 0 ↔
    t.backlog.left send p ≠ [] ∧ t.refused = limit.toNat ∧ limit ≠ 0xffffffff

/-- Where nothing is carried over, flushes follow the law. -/
theorem Sound.lawful (sound : t.Sound limit) (none : t.carried = 0) : t.Lawful limit := by
  -- What is held against the backlog are then the refused flushes alone.
  intro send p
  obtain ⟨dropped, -⟩ := sound.flush send p
  rw [dropped, none]
  simp only [ne_eq, ite_eq_right_iff, List.length_eq_zero_iff, Nat.add_zero]
  tauto

section Refused

variable {send : Sender} {p : Plane}

/-- A flush that an output refuses altogether is held against a backlog that bears it. -/
theorem Sound.refuse (sound : t.Sound limit) (refuses : ∀ packets, (send p packets).rest = packets)
    (waiting : t.backlog.pending ≠ []) (bears : t.refused + t.carried < limit.toNat) :
    let after := t.call p (.flush send)
    after.backlog.pending = t.backlog.pending ∧ after.refused = t.refused + 1 ∧
      after.carried = t.carried := by
  -- The limit is not reached, so the policy keeps what the output refuses.
  have pending : ((TrialCall.flush send).perform t.backlog p).pending = t.backlog.pending := by
    refine (sound.flush send p).2.trans ?_
    rw [if_neg (fun spent => absurd spent.1 (by omega)), Backlog.left_of_refuses refuses]
  have kept : ((TrialCall.flush send).perform t.backlog p).pending ≠ [] := pending ▸ waiting
  have called : t.call p (.flush send) =
      { t with
        backlog := (TrialCall.flush send).perform t.backlog p, refused := t.refused + 1 } := by
    simp only [Trial.call, if_neg kept]
  rw [called]
  exact ⟨pending, rfl, rfl⟩

/-- A packet that is put into a backlog whose output refuses everything waits, and nothing is
forgotten. -/
theorem call_buffer (t : Trial) (packet : Packet)
    (refuses : ∀ packets, (send p packets).rest = packets) :
    let after := t.call p (.buffer packet send)
    after.backlog.pending = t.backlog.pending ++ [packet] ∧ after.refused = t.refused ∧
      after.carried = t.carried := by
  -- Whether the threshold is reached or not, all packets are left.
  have queued := t.backlog.buffer_backlog packet send p
  simp only [Backlog.left_of_refuses refuses, ite_self] at queued
  have pending : ((TrialCall.buffer packet send).perform t.backlog p).pending =
      t.backlog.pending ++ [packet] := congrArg Backlog.pending queued
  have kept : ((TrialCall.buffer packet send).perform t.backlog p).pending ≠ [] := by
    rw [pending]
    exact List.append_ne_nil_of_right_ne_nil _ (List.cons_ne_nil packet [])
  have called : t.call p (.buffer packet send) =
      { t with backlog := (TrialCall.buffer packet send).perform t.backlog p } := by
    simp only [Trial.call, if_neg kept]
  rw [called]
  exact ⟨pending, rfl, rfl⟩

/-- A bare attempt that takes the last packet carries over what is held against the backlog. -/
theorem call_tryFlush (t : Trial) (accepts : t.backlog.left send p = []) :
    let after := t.call p (.tryFlush send)
    after.backlog.pending = [] ∧ after.refused = 0 ∧ after.carried = t.refused + t.carried := by
  -- An attempt leaves the count of attempts, whatever it takes.
  have empty : ((TrialCall.tryFlush send).perform t.backlog p).pending = [] :=
    (congrArg Backlog.pending (t.backlog.tryFlush_backlog send p)).trans accepts
  have called : t.call p (.tryFlush send) =
      { backlog := (TrialCall.tryFlush send).perform t.backlog p
        carried := t.refused + t.carried } := by
    simp only [Trial.call, if_pos empty]
  rw [called]
  exact ⟨empty, rfl, rfl⟩

end Refused

/-- The ring with one place as an output, and planes on which that place is free and taken. -/
def narrow : Sender := (Target.ring 0).sender

/-- A plane on which the only place of the ring is free. -/
def freed : Plane := Dispatch.overRing Dispatch.oneWide

/-- A plane on which the only place of the ring is taken. -/
def filled : Plane := Dispatch.overRing (Dispatch.oneWide.enqueueBulk [⟨0, 1⟩]).ring

/-- A ring without a free place refuses everything. -/
theorem filled_refuses (packets : List Packet) : (narrow filled packets).rest = packets := by
  -- The only place of the ring is taken.
  have empty : Dispatch.oneWide.Holds [] :=
    Ring.holds_make (rfl : Ring.make "narrow" 1 = .ok Dispatch.oneWide)
  have one := empty.enqueueBulk_taken [⟨0, 1⟩]
  have taken : (Dispatch.oneWide.enqueueBulk [⟨0, 1⟩]).accepted = 1 := by cbv
  rw [taken] at one
  obtain ⟨-, rest, -⟩ := one.enqueueBulk_holds packets
  exact rest.trans (by rw [Ring.capacity_enqueueBulk]; rfl)

/-- A backlog on trial may have flushes held against it that were refused before it was last empty, and
any number after that as long as it bears them. -/
theorem exists_burdened {count : Nat} (bears : count < limit.toNat) :
    ∃ t, Reachable limit false t ∧ t.backlog.pending = [⟨0, 0⟩] ∧ t.refused = count ∧
      t.carried = 1 := by
  -- After the first packet has gone, each further flush is refused in turn.
  induction count with
  | zero =>
    let start : Trial := { backlog := Backlog.make 8 (.retry limit) }
    let queued := start.call filled (.buffer ⟨0, 0⟩ narrow)
    let refused := queued.call filled (.flush narrow)
    let emptied := refused.call freed (.tryFlush narrow)
    have first : queued.backlog.pending = [⟨0, 0⟩] ∧ queued.refused = 0 ∧ queued.carried = 0 :=
      start.call_buffer ⟨0, 0⟩ filled_refuses
    have begun : Reachable limit false queued := (Reachable.start 8).goOn filled _
    obtain ⟨waits, counted, fresh⟩ := begun.sound.refuse (p := filled) filled_refuses
      (by rw [first.1]; exact List.cons_ne_nil _ _) (by omega)
    have accepts : refused.backlog.left narrow freed = [] := by
      rw [Backlog.left, show refused.backlog.pending = [⟨0, 0⟩] from waits.trans first.1]
      cbv
    -- An attempt that empties the backlog by itself leaves the count of refusals behind.
    obtain ⟨gone, none, carried⟩ := refused.call_tryFlush accepts
    obtain ⟨pending, still, kept⟩ := emptied.call_buffer ⟨0, 0⟩ filled_refuses
    have run : Reachable limit false emptied :=
      (begun.goOn filled (.flush narrow)).goOn freed (.tryFlush narrow)
    refine ⟨_, run.goOn filled (.buffer ⟨0, 0⟩ narrow), ?_, still.trans none, ?_⟩
    · exact pending.trans (congrArg (· ++ [⟨0, 0⟩]) gone)
    · refine (kept.trans carried).trans ?_
      show refused.refused + refused.carried = 1
      rw [show refused.refused = _ from counted, show refused.carried = _ from fresh, first.2.1,
        first.2.2]
  | succ count ih =>
    obtain ⟨t, run, pending, refused, carried⟩ := ih (by omega)
    obtain ⟨waits, counted, kept⟩ := run.sound.refuse (p := filled) filled_refuses
      (by rw [pending]; exact List.cons_ne_nil _ _) (by omega)
    refine ⟨_, run.goOn filled (.flush narrow), waits.trans pending, ?_, kept.trans carried⟩
    rw [counted, refused]

/-- Every flush in every run drops all that it leaves behind when as many as the limit allows are held
against the backlog, and nothing otherwise. In careful runs those are the flushes that left packets
behind since the backlog was last empty. In every run they are so only for the smallest and the
largest limit, because a bare attempt that takes the last packet does not forget. -/
theorem retry_budget (limit : UInt32) :
    (∀ t, Reachable limit false t → ∀ send p,
      let done := t.backlog.flush send p
      let left := t.backlog.left send p
      let spent := t.refused + t.carried = limit.toNat ∧ limit ≠ 0xffffffff
      done.1.dropped = (if spent then left.length else 0) ∧
      done.2.1.pending = (if spent then [] else left)) ∧
    (∀ t, Reachable limit true t → t.carried = 0 ∧ t.Lawful limit) ∧
    ((∀ t, Reachable limit false t → t.Lawful limit) ↔ limit = 0 ∨ limit = 0xffffffff) := by
  refine ⟨fun t run => run.sound.flush, fun t run => ?_, ?_, ?_⟩
  · exact ⟨run.carried_eq, run.sound.lawful run.carried_eq⟩
  · intro lawful
    by_contra between
    obtain ⟨some, bounded⟩ := not_or.mp between
    have positive : 0 < limit.toNat :=
      Nat.pos_of_ne_zero fun zero => some (UInt32.toNat_inj.mp zero)
    -- One flush before the law allows it, a backlog with one carried over gives up.
    obtain ⟨t, run, pending, refused, carried⟩ :=
      exists_burdened (show limit.toNat - 1 < limit.toNat by omega)
    have left : t.backlog.left narrow filled = [⟨0, 0⟩] := by
      rw [Backlog.left_of_refuses filled_refuses, pending]
    have dropped := (run.sound.flush narrow filled).1
    rw [if_pos ⟨by omega, bounded⟩, left] at dropped
    have early := ((lawful t run narrow filled).mp (by rw [dropped]; exact Nat.one_ne_zero)).2.1
    omega
  · intro extreme t run
    obtain none | last := extreme
    · -- Nothing is ever held against a backlog that gives up at once.
      have held := run.sound.within (by rw [none]; decide)
      rw [none] at held
      exact run.sound.lawful (Nat.le_zero.mp ((Nat.le_add_left _ _).trans held))
    · intro send p
      rw [(run.sound.flush send p).1]
      simp [last]

/-- A backlog that is to retry once, after one flush that its output refused. -/
def onceRefused : Trial :=
  let start : Trial := { backlog := Backlog.make 8 (.retry 1) }
  (start.call filled (.buffer ⟨0, 0⟩ narrow)).call filled (.flush narrow)

/-- It is reached without a bare attempt to empty it. -/
theorem onceRefused_reachable : Reachable 1 true onceRefused := by
  -- The run puts a packet in and flushes it once before a full ring.
  have start : Reachable 1 true { backlog := Backlog.make 8 (.retry 1) } := .start 8
  have queued := start.call filled (.buffer ⟨0, 0⟩ narrow) fun _ _ => TrialCall.noConfusion
  exact queued.call filled (.flush narrow) fun _ _ => TrialCall.noConfusion

/-- It has used up its retries: the next flush that the output refuses drops what waits, and one that the
output takes drops nothing. -/
theorem retry_budget_once : Reachable 1 true onceRefused ∧ onceRefused.refused = 1 ∧
    (onceRefused.backlog.flush narrow filled).1.dropped = 1 ∧
    (onceRefused.backlog.flush narrow freed).1.dropped = 0 ∧ onceRefused.Lawful 1 := by
  -- The run is careful, so both halves of the theorem are used.
  obtain ⟨flushes, lawful, -⟩ := retry_budget 1
  have run := onceRefused_reachable
  refine ⟨run, by cbv, ?_, ?_, (lawful _ run).2⟩
  · exact (flushes _ run.careless narrow filled).1.trans (by cbv)
  · exact (flushes _ run.careless narrow freed).1.trans (by cbv)

/-- The same backlog after a bare attempt took its packet and it was given another. -/
def forgotten : Trial :=
  (onceRefused.call freed (.tryFlush narrow)).call filled (.buffer ⟨0, 0⟩ narrow)

/-- Its second packet was refused by no flush yet, and the first one that the output refuses drops it. -/
theorem forgotten_dropped_early : Reachable 1 false forgotten ∧ forgotten.refused = 0 ∧
    (forgotten.backlog.flush narrow filled).1.dropped = 1 ∧ ¬ forgotten.Lawful 1 := by
  -- The bare attempt carries the refusal over, so that it counts against the next packet.
  have taken := onceRefused_reachable.careless.goOn freed (.tryFlush narrow)
  have fresh : forgotten.refused = 0 := by cbv
  have dropped : (forgotten.backlog.flush narrow filled).1.dropped = 1 := by cbv
  refine ⟨taken.goOn filled (.buffer ⟨0, 0⟩ narrow), fresh, dropped, fun lawful => ?_⟩
  have counted := ((lawful narrow filled).mp (by rw [dropped]; exact Nat.one_ne_zero)).2.1
  rw [fresh] at counted
  exact absurd counted (by decide)

end Trial

end PacketPlane
