import Mathlib.Data.List.Iterate
import PacketPlane.Proofs.Fleet.Building
import PacketPlane.Proofs.Transmit.Retries
import PacketPlane.Proofs.Worker.Stations

/-! Bounds of a backlog: how many packets wait at most, at every station that a worker comes to. -/

namespace PacketPlane

/-- No more objects come off consecutive places than there are. -/
theorem Ring.length_takeAll_le {α : Type} (r : Ring α) (position : UInt64) (count : Nat) :
    (r.takeAll position count).1.length ≤ count := by
  -- Each place holds one object at most.
  induction count generalizing r position with
  | zero => exact Nat.le_refl 0
  | succ count ih =>
    have rest := ih (r.take position).2 (position + 1)
    have one : (r.take position).1.toList.length ≤ 1 := by
      cases (r.take position).1 <;> simp
    simp only [takeAll, List.length_append]
    omega

/-- No more objects are claimed than are asked for. -/
theorem Ring.count_reserveCons_le {α : Type} {r after : Ring α} {asked : Nat}
    {reserved : Reservation} (found : r.reserveCons .upTo asked = some (reserved, after)) :
    reserved.count ≤ asked := by
  -- What is granted is the smaller of what is asked for and what is there.
  simp only [reserveCons] at found
  split at found
  · cases found
  · cases found
    exact Nat.min_le_left _ _

/-- No more objects are taken off a ring than are asked for. -/
theorem Ring.length_dequeueBulk_le {α : Type} (r : Ring α) (limit : Nat) :
    (r.dequeueBulk limit).items.length ≤ limit := by
  -- No more is taken than was reserved.
  rw [dequeueBulk]
  split
  · exact Nat.zero_le _
  · split
    · exact Nat.zero_le _
    · rename_i reserved r' found
      exact (r'.length_takeAll_le reserved.start reserved.count).trans (count_reserveCons_le found)

/-- No more packets are taken off a ring of a plane than are asked for. -/
theorem Plane.length_dequeueBulk_le (p : Plane) (number limit : Nat) :
    (p.dequeueBulk number limit).1.length ≤ limit := by
  -- A ring that is not there hands nothing out.
  rw [dequeueBulk]
  split
  · exact Nat.zero_le _
  · exact Ring.length_dequeueBulk_le _ limit

/-- No more packets are received than are asked for. -/
theorem Plane.length_rxBurst_le (p : Plane) (port : Port) (limit : Nat) :
    (p.rxBurst port limit).1.length ≤ limit := by
  -- A port that is not there, or has no link, hands nothing out.
  rw [rxBurst]
  split
  · exact Nat.zero_le _
  · simp only [Device.rxBurst]
    split
    · exact Nat.zero_le _
    · split
      · exact Nat.zero_le _
      · exact Ring.length_dequeueBulk_le _ limit

namespace Backlog

variable {b : Backlog} {p : Plane}

/-- What an output leaves behind of a backlog is no more than what waited. -/
theorem length_left_le (b : Backlog) (target : Target) (p : Plane) :
    (b.left target.sender p).length ≤ b.len := by
  -- The output takes some of the front, or there was nothing to try.
  rw [left, len]
  split
  · exact Nat.zero_le _
  · rw [(target.sender_puts p b.pending).1, List.length_drop]
    exact Nat.sub_le _ _

/-- A later state of a backlog, with the same threshold and policy, in which no more packets wait. -/
structure Shrinks (b b' : Backlog) : Prop where
  threshold : b'.threshold = b.threshold
  policy : b'.policy = b.policy
  len : b'.len ≤ b.len

/-- An attempt to empty a backlog leaves no more than waited. -/
theorem shrinks_tryFlush (b : Backlog) (target : Target) (p : Plane) :
    b.Shrinks (b.tryFlush target.sender p).2.1 := by
  -- Only the packets that wait are changed by an attempt.
  rw [tryFlush_backlog]
  exact ⟨rfl, rfl, b.length_left_le target p⟩

/-- Emptying a backlog leaves no more than waited, and nothing under a policy that drops. -/
theorem shrinks_flush (b : Backlog) (target : Target) (p : Plane) :
    b.Shrinks (b.flush target.sender p).2.1 ∧
      (b.policy = .drop → (b.flush target.sender p).2.1.pending = []) := by
  have tried := b.shrinks_tryFlush target p
  simp only [flush]
  generalize b.tryFlush target.sender p = outcome at tried ⊢
  obtain ⟨outcome, b', q⟩ := outcome
  obtain ⟨threshold, policy, len⟩ := tried
  split
  · rename_i empty
    exact ⟨⟨threshold, policy, len⟩, fun _ => List.isEmpty_iff.mp empty⟩
  · split
    · exact ⟨⟨threshold, policy, Nat.zero_le _⟩, fun _ => rfl⟩
    · rename_i kept
      refine ⟨⟨threshold, policy, len⟩, ?_⟩
      -- A policy that drops never keeps what was refused.
      intro drops
      rw [giveUp, policy.trans drops] at kept
      exact absurd rfl kept

/-- Discarding what waits leaves nothing. -/
theorem shrinks_discard (b : Backlog) (p : Plane) :
    b.Shrinks (b.discard p).2.1 ∧ (b.discard p).2.1.pending = [] :=
  ⟨⟨rfl, rfl, Nat.zero_le _⟩, rfl⟩

end Backlog

namespace Worker

variable {σ : Type}

/-- No more packets are pulled than are asked for. -/
theorem length_pull_le (w : Worker σ) (p : Plane) (want : Nat) :
    (w.pull p want).1.length ≤ want := by
  -- Nothing is pulled when nothing is asked for, and otherwise from a port or a ring.
  rw [pull]
  split
  · exact Nat.zero_le _
  · split
    · exact p.length_rxBurst_le _ want
    · exact p.length_dequeueBulk_le _ want

/-- A worker may pull no more than it would without pacing. -/
theorem allowance_le (w : Worker σ) (now : UInt64) : (w.allowance now).1 ≤ w.appetite := by
  -- A pacer allows at most what is wanted.
  rw [allowance]
  split
  · exact Nat.le_refl _
  · exact Nat.min_le_left _ _

/-- Asking how many packets may be pulled leaves what waits. -/
theorem backlog_allowance (w : Worker σ) (now : UInt64) :
    (w.allowance now).2.backlog = w.backlog := by
  -- Only the pacer may change.
  rw [allowance]
  split <;> rfl

/-- What became of packets is counted and nothing else. -/
theorem backlog_recordTally (w : Worker σ) (tally : Tally) :
    (w.recordTally tally).backlog = w.backlog := by
  rw [recordTally_eq]

/-- Pushing leaves no more than waited, and nothing under a policy that drops. -/
theorem shrinks_push (w : Worker σ) (p : Plane) :
    w.backlog.Shrinks (w.push p).1.backlog ∧
      (w.backlog.policy = .drop → (w.push p).1.backlog.pending = []) := by
  -- Without output all that waits is discarded, and otherwise it is flushed.
  simp only [push, recordOutcome]
  cases w.target? with
  | none => exact ⟨(w.backlog.shrinks_discard p).1, fun _ => (w.backlog.shrinks_discard p).2⟩
  | some target => exact w.backlog.shrinks_flush target p

/-- An attempt to push leaves no more than waited. -/
theorem shrinks_attempt (w : Worker σ) (p : Plane) :
    w.backlog.Shrinks (w.attempt p).1.backlog := by
  -- Without output all that waits is discarded, and otherwise an attempt is made.
  simp only [attempt, recordOutcome]
  cases w.target? with
  | none => exact (w.backlog.shrinks_discard p).1
  | some target => exact w.backlog.shrinks_tryFlush target p

/-- A look for errors leaves what waits. -/
theorem backlog_checkDevices (w : Worker σ) (p : Plane) :
    (w.checkDevices p).backlog = w.backlog := by
  -- Only counters and what is remembered of errors may change.
  rw [checkDevices]
  split
  · rfl
  · split <;> rfl

end Worker

/-- How many packets may wait or be in hand while a burst is processed, with bursts of a size. -/
def Errand.limit (burst : Nat) : Errand → Nat
  -- A turn begins with less than a burst, and a drain with as many as a turn may leave.
  | .turn _ _ => 2 * burst - 1
  | .drain _ => 3 * burst - 1

/-- How many packets may wait or be in hand at a point, with bursts of a size. -/
def Point.limit (burst : Nat) : Point → Nat
  | .ready | .pushing _ _ | .closing _ _ | .draining _ => 2 * burst - 1
  | .working _ errand | .sending _ errand | .dead errand => errand.limit burst
  | .flushing _ _ => 3 * burst - 1
  | .finished => 0

/-- Whether a point is inside a turn, or between two turns. -/
def Point.polls : Point → Bool
  | .ready | .pushing _ _ | .closing _ _ => true
  | .working _ (.turn _ _) | .sending _ (.turn _ _) | .dead (.turn _ _) => true
  | _ => false

/-- No point allows three bursts. -/
theorem Point.limit_le (point : Point) (burst : Nat) : point.limit burst ≤ 3 * burst - 1 := by
  -- By cases on the point, and each of its errands has a limit of its own.
  have errands : ∀ errand : Errand, errand.limit burst ≤ 3 * burst - 1 := by
    intro errand
    cases errand <;> simp only [Errand.limit] <;> omega
  cases point with
  | working context errand => exact errands errand
  | sending context errand => exact errands errand
  | dead errand => exact errands errand
  | _ =>
    simp only [Point.limit]
    omega

/-- No point of a turn allows two bursts. -/
theorem limit_polls {point : Point} (burst : Nat) (polls : point.polls = true) :
    point.limit burst ≤ 2 * burst - 1 := by
  -- By cases on the point, of which those of a drain are not ones of a turn.
  cases point with
  | working context errand => cases errand <;> first | exact Nat.le_refl _ | cases polls
  | sending context errand => cases errand <;> first | exact Nat.le_refl _ | cases polls
  | dead errand => cases errand <;> first | exact Nat.le_refl _ | cases polls
  | _ => first | exact Nat.le_refl _ | cases polls

/-- Whether a burst is being processed at a point. -/
def Point.busy : Point → Bool
  | .working _ _ | .sending _ _ => true
  | _ => false

/-- Whether a turn has pushed out what waits, and no other has begun. -/
def Point.pushed : Point → Bool
  | .ready | .closing _ _ => true
  | _ => false

/-- Whether a worker is between two bursts at a point. -/
def Point.between : Point → Bool
  | .working _ _ | .sending _ _ | .dead _ => false
  | _ => true

namespace Station

variable {σ : Type} {s : Station σ} {burst : Nat} {policy : Backpressure}

/-- A station whose worker keeps to the bounds of bursts of a size, under a policy. -/
structure Bounded (s : Station σ) (burst : Nat) (policy : Backpressure) : Prop where
  positive : 0 < burst
  size : s.worker.settings.burstSize.toNat = burst
  threshold : s.worker.backlog.threshold = burst
  obeys : s.worker.backlog.policy = policy
  room : s.worker.backlog.len + s.hand.length ≤ s.point.limit burst
  free : s.point.busy = false → s.hand = []
  dropped : policy = .drop → s.point.pushed = true → s.worker.backlog.pending = []

/-- A worker that goes on with no more than the next point allows keeps to its bounds. -/
theorem Bounded.goOn (bounded : s.Bounded burst policy) {t : Station σ}
    (settings : t.worker.settings = s.worker.settings)
    (threshold : t.worker.backlog.threshold = s.worker.backlog.threshold)
    (same : t.worker.backlog.policy = s.worker.backlog.policy)
    (room : t.worker.backlog.len + t.hand.length ≤ t.point.limit burst)
    (free : t.point.busy = false → t.hand = [])
    (dropped : policy = .drop → t.point.pushed = true → t.worker.backlog.pending = []) :
    t.Bounded burst policy :=
  ⟨bounded.positive, by rw [settings, bounded.size], threshold.trans bounded.threshold,
    same.trans bounded.obeys, room, free, dropped⟩

/-- A burst that was pulled is taken in hand within the bounds when there is room for it. -/
theorem Bounded.take (bounded : s.Bounded burst policy) (now : UInt64) (errand : Errand)
    {packets : List Packet} (room : s.worker.backlog.len + packets.length ≤ errand.limit burst) :
    (s.take now errand packets).Bounded burst policy :=
  bounded.goOn rfl rfl rfl room (fun idle => Bool.noConfusion idle) (fun _ other => Bool.noConfusion other)

/-- A turn pulls no more than a burst, and nothing when a burst waits. -/
theorem pull_bounded (s : Station σ) :
    let w := (s.worker.allowance (s.plane.clock s.worker.clock).now).2
    (w.pull s.plane (s.worker.allowance (s.plane.clock s.worker.clock).now).1).1.length ≤
      if s.worker.backlog.len ≥ s.worker.backlog.threshold then 0
      else s.worker.settings.burstSize.toNat :=
  (Worker.length_pull_le _ _ _).trans (s.worker.allowance_le _)

/-- A turn begins within the bounds. -/
theorem Bounded.pull (bounded : s.Bounded burst policy) (point : s.point = .ready) :
    s.pull.Bounded burst policy := by
  -- What waits is less than a burst when something is pulled, and that is a burst at most.
  have few := s.pull_bounded
  have kept := s.worker.backlog_allowance (s.plane.clock s.worker.clock).now
  have fixed := (s.worker.allowance_leads (s.plane.clock s.worker.clock).now s.plane).fixed
  have positive := bounded.positive
  have room := bounded.room
  have free := bounded.free (by rw [point]; rfl)
  rw [point, free, Point.limit, List.length_nil, Nat.add_zero] at room
  rw [bounded.threshold, bounded.size] at few
  simp only [Station.pull]
  generalize s.worker.allowance _ = granted at *
  obtain ⟨want, w⟩ := granted
  simp only at few kept fixed ⊢
  generalize w.pull s.plane want = pulled at *
  obtain ⟨packets, p⟩ := pulled
  have settings : w.settings = s.worker.settings := congrArg Fixture.settings fixed
  split
  · refine bounded.goOn settings (congrArg Backlog.threshold kept)
      (congrArg Backlog.policy kept) ?_ (fun _ => free)
      (fun _ other => Bool.noConfusion other)
    show w.backlog.len + s.hand.length ≤ 2 * burst - 1
    rw [kept, free, List.length_nil, Nat.add_zero]
    exact room
  · -- Something was pulled, so less than a burst waits.
    rename_i some
    have bounded' : ({ s with worker := w.spend packets.length, plane := p } :
        Station σ).Bounded burst policy := by
      refine bounded.goOn settings (congrArg Backlog.threshold kept) (congrArg Backlog.policy kept)
        ?_ bounded.free ?_
      · show w.backlog.len + s.hand.length ≤ _
        rw [kept]
        exact bounded.room
      · show policy = .drop → s.point.pushed = true → w.backlog.pending = []
        rw [kept]
        exact bounded.dropped
    apply bounded'.take
    show w.backlog.len + packets.length ≤ 2 * burst - 1
    rw [kept]
    simp only at few
    split at few
    · simp [List.length_eq_zero_iff.mp (Nat.le_zero.mp few)] at some
    · omega

/-- With a burst waiting, a turn leaves its input alone. -/
theorem pull_backedUp (s : Station σ) (full : s.worker.backlog.threshold ≤ s.worker.backlog.len) :
    s.pull.plane = s.plane ∧ (∃ now, s.pull.point = .pushing now 0) ∧
      (s.worker.turn s.plane).pulled = 0 := by
  -- Nothing is wanted while a burst waits, so nothing is asked of the input.
  have nothing : (s.worker.allowance (s.plane.clock s.worker.clock).now).1 = 0 := by
    have wanted := s.worker.allowance_le (s.plane.clock s.worker.clock).now
    rw [Worker.appetite, if_pos full] at wanted
    exact Nat.le_zero.mp wanted
  simp only [pull, Worker.turn]
  generalize s.worker.allowance _ = granted at nothing ⊢
  obtain ⟨want, w⟩ := granted
  simp only at nothing
  simp only [nothing, Worker.pull, if_true, List.isEmpty_nil]
  exact ⟨trivial, ⟨_, rfl⟩, rfl⟩

/-- A packet that is processed moves from the hand to the backlog at most. -/
theorem Bounded.process (bounded : s.Bounded burst policy) {context : Context} {errand : Errand}
    {packet : Packet} {rest : List Packet} (point : s.point = .working context errand)
    (hand : s.hand = packet :: rest) : (s.process context errand packet rest).Bounded burst policy := by
  -- By cases on the verdict: a packet waits now, or is gone.
  have room := bounded.room
  rw [point, hand, List.length_cons, Point.limit] at room
  simp only [Station.process]
  cases (s.worker.process context packet s.worker.memory s.plane.toSurroundings).verdict with
  | drop =>
    refine bounded.goOn rfl rfl rfl ?_ (by rw [point]; exact fun idle => Bool.noConfusion idle)
      (by rw [point]; exact fun _ other => Bool.noConfusion other)
    show s.worker.backlog.len + rest.length ≤ s.point.limit burst
    rw [point, Point.limit]
    omega
  | crash =>
    refine bounded.goOn rfl rfl rfl ?_ (fun _ => rfl) (fun _ other => Bool.noConfusion other)
    show s.worker.backlog.len + 0 ≤ errand.limit burst
    omega
  | forward =>
    simp only [pass]
    have shown := ({ s.worker with memory := (s.worker.process context packet s.worker.memory
      s.plane.toSurroundings).memory } : Worker σ).fixture_capturePacket packet
        { s.plane with toSurroundings := (s.worker.process context packet s.worker.memory
          s.plane.toSurroundings).surroundings }
    generalize ({ s.worker with memory := _ } : Worker σ).capturePacket packet _ = outcome at *
    obtain ⟨w, p⟩ := outcome
    obtain ⟨fixed, kept, -⟩ := shown
    simp only at fixed kept ⊢
    -- The tap leaves settings and backlog as they were.
    have settings : w.settings = s.worker.settings := congrArg Fixture.settings fixed
    have threshold : w.backlog.threshold = s.worker.backlog.threshold :=
      congrArg Backlog.threshold kept
    have same : w.backlog.policy = s.worker.backlog.policy := congrArg Backlog.policy kept
    have size : w.backlog.pending.length = s.worker.backlog.len := by
      rw [kept]
      rfl
    split
    · refine bounded.goOn settings threshold same ?_ ?_ ?_
      · -- One packet more waits, and one less is in hand.
        show (w.backlog.pending ++ [packet]).length + rest.length ≤
          Point.limit burst (if _ then _ else _)
        rw [List.length_append, List.length_singleton, size]
        split <;> (rw [Point.limit]; omega)
      · show Point.busy (if _ then _ else _) = false → _
        split <;> exact fun idle => Bool.noConfusion idle
      · show _ → Point.pushed (if _ then _ else _) = true → _
        split <;> exact fun _ other => Bool.noConfusion other
    · refine bounded.goOn settings threshold same ?_
        (by rw [point]; exact fun idle => Bool.noConfusion idle)
        (by rw [point]; exact fun _ other => Bool.noConfusion other)
      show w.backlog.len + rest.length ≤ s.point.limit burst
      rw [point, Point.limit, kept]
      omega

/-- Sending what reached the threshold leaves no more than waited. -/
theorem Bounded.send (bounded : s.Bounded burst policy) {context : Context} {errand : Errand}
    (point : s.point = .sending context errand) : (s.send context errand).Bounded burst policy := by
  -- Without output nothing is tried, and otherwise no more is left than waited.
  have room := bounded.room
  rw [point, Point.limit] at room
  rw [Station.send]
  split
  · exact bounded.goOn rfl rfl rfl room (fun idle => Bool.noConfusion idle)
      (fun _ other => Bool.noConfusion other)
  · rename_i target _
    obtain ⟨threshold, same, fewer⟩ := s.worker.backlog.shrinks_tryFlush target s.plane
    simp only
    generalize s.worker.backlog.tryFlush target.sender s.plane = outcome at *
    obtain ⟨outcome, b, p⟩ := outcome
    simp only at threshold same fewer ⊢
    refine bounded.goOn rfl ?_ ?_ ?_ (fun idle => Bool.noConfusion idle)
      (fun _ other => Bool.noConfusion other)
    · show (if _ then _ else _ : Backlog).threshold = _
      split <;> exact threshold
    · show (if _ then _ else _ : Backlog).policy = _
      split <;> exact same
    · have same : (if b.isEmpty then { b with attempts := 0 } else b).len = b.len := by
        split <;> rfl
      show (if _ then _ else _ : Backlog).len + s.hand.length ≤ errand.limit burst
      rw [same]
      omega

/-- Counting what became of a burst leaves what waits. -/
theorem Bounded.settle (bounded : s.Bounded burst policy) {context : Context} {errand : Errand}
    (point : s.point = .working context errand) (hand : s.hand = []) :
    (s.settle errand).Bounded burst policy := by
  -- Only counters change, and what waits goes on to the next point.
  have room := bounded.room
  have kept := s.worker.backlog_recordTally s.tally
  rw [point, hand, Point.limit] at room
  refine bounded.goOn ?_ (congrArg Backlog.threshold kept) (congrArg Backlog.policy kept) ?_
    (fun _ => hand) ?_
  · show (s.worker.recordTally s.tally).settings = _
    rw [Worker.recordTally_eq]
  · show (s.worker.recordTally s.tally).backlog.len + s.hand.length ≤ Point.limit burst (errand.next _)
    rw [kept, hand]
    cases errand <;> exact room
  · cases errand <;> exact fun _ other => Bool.noConfusion other

/-- Pushing at the end of a turn leaves no more than waited, and nothing under a policy that drops. -/
theorem Bounded.push (bounded : s.Bounded burst policy) {began : UInt64} {pulled : Nat}
    (point : s.point = .pushing began pulled) : (s.push began pulled).Bounded burst policy := by
  -- What is left behind is no more than waited, and the point allows as much.
  have room := bounded.room
  have free := bounded.free (by rw [point]; rfl)
  obtain ⟨⟨threshold, same, fewer⟩, empty⟩ := s.worker.shrinks_push s.plane
  rw [point, Point.limit] at room
  refine bounded.goOn (congrArg Fixture.settings (s.worker.push_leads s.plane).fixed) threshold same
    ?_ (fun _ => free) ?_
  · show (s.worker.push s.plane).1.backlog.len + s.hand.length ≤ 2 * burst - 1
    omega
  · intro drops _
    exact empty (bounded.obeys.trans drops)

/-- The end of a turn leaves what waits. -/
theorem close_keeps (s : Station σ) (began : UInt64) (pulled : Nat) :
    (s.close began pulled).worker.fixture = s.worker.fixture ∧
      (s.close began pulled).worker.backlog = s.worker.backlog := by
  -- Looking for errors and reporting leave what waits, whether a report is due or not.
  have checked := (s.worker.checkDevices_leads s.plane).fixed
  have kept := s.worker.backlog_checkDevices s.plane
  simp only [close, Worker.reportAt]
  split <;> exact ⟨checked, kept⟩

/-- A turn ends within the bounds. -/
theorem Bounded.close (bounded : s.Bounded burst policy) {began : UInt64} {pulled : Nat}
    (point : s.point = .closing began pulled) : (s.close began pulled).Bounded burst policy := by
  -- Nothing changes of what the bounds are about.
  obtain ⟨fixed, kept⟩ := s.close_keeps began pulled
  have room := bounded.room
  have free := bounded.free (by rw [point]; rfl)
  have dropped := bounded.dropped
  rw [point] at room dropped
  refine bounded.goOn (congrArg Fixture.settings fixed) (congrArg Backlog.threshold kept)
    (congrArg Backlog.policy kept) ?_ (fun _ => free) ?_
  · rw [kept]
    exact room
  · rw [kept]
    exact fun drops _ => dropped drops rfl

/-- A batch of a drain is no more than a burst. -/
theorem Bounded.batch (bounded : s.Bounded burst policy) {left : Nat} (point : s.point = .draining left) :
    (s.batch left).Bounded burst policy := by
  -- What waits is at most two bursts less one here, and a batch is a burst at most.
  have positive := bounded.positive
  have room := bounded.room
  have free := bounded.free (by rw [point]; rfl)
  rw [point, free, Point.limit, List.length_nil, Nat.add_zero] at room
  have ends : ∀ p, ({ s with plane := p } : Station σ).conclude.Bounded burst policy := by
    intro p
    refine bounded.goOn rfl rfl rfl ?_ (fun _ => free) (fun _ other => Bool.noConfusion other)
    show s.worker.backlog.len + s.hand.length ≤ 3 * burst - 1
    rw [free, List.length_nil]
    omega
  rw [Station.batch]
  cases s.worker.input with
  | port port => exact ends s.plane
  | ring number =>
    simp only
    split
    · exact ends s.plane
    · -- What is taken is at most a burst, however much is left.
      have few := s.plane.length_dequeueBulk_le number (min left s.worker.settings.burstSize.toNat)
      rw [bounded.size] at few ⊢
      generalize s.plane.dequeueBulk number (min left burst) = taken at few ⊢
      obtain ⟨packets, remaining, p⟩ := taken
      simp only at few ⊢
      split
      · exact ends p
      · have bounded' : ({ s with plane := p } : Station σ).Bounded burst policy :=
          bounded.goOn rfl rfl rfl bounded.room bounded.free bounded.dropped
        apply bounded'.take
        show s.worker.backlog.len + packets.length ≤ 3 * burst - 1
        omega

/-- With nothing in hand and nothing waiting, a worker keeps to its bounds at any point. -/
theorem Bounded.flushed (bounded : s.Bounded burst policy) {t : Station σ}
    (settings : t.worker.settings = s.worker.settings)
    (threshold : t.worker.backlog.threshold = s.worker.backlog.threshold)
    (same : t.worker.backlog.policy = s.worker.backlog.policy) (free : t.hand = [])
    (empty : t.worker.backlog.pending = []) : t.Bounded burst policy := by
  -- Nothing at all is within any limit.
  refine bounded.goOn settings threshold same ?_ (fun _ => free) (fun _ _ => empty)
  rw [Backlog.len, empty, free]
  exact Nat.zero_le _

/-- A flush leaves no more than waited, and nothing once it is over. -/
theorem Bounded.flush (bounded : s.Bounded burst policy) {attempts : Nat} {left : Option Nat}
    (point : s.point = .flushing attempts left) : (s.flush attempts left).Bounded burst policy := by
  -- An attempt leaves no more than waited, and when attempts run out the rest is given up.
  have room := bounded.room
  have free := bounded.free (by rw [point]; rfl)
  rw [point, Point.limit] at room
  simp only [Station.flush]
  split
  · rename_i empty
    exact bounded.flushed rfl rfl rfl free (List.isEmpty_iff.mp empty)
  · cases attempts with
    | zero => exact bounded.flushed rfl rfl rfl free rfl
    | succ attempts =>
      obtain ⟨threshold, same, fewer⟩ := s.worker.shrinks_attempt s.plane
      refine bounded.goOn (congrArg Fixture.settings (s.worker.attempt_leads s.plane).fixed) threshold
        same ?_ (fun _ => free) (fun _ other => Bool.noConfusion other)
      show (s.worker.attempt s.plane).1.backlog.len + s.hand.length ≤ 3 * burst - 1
      omega

/-- A flush that is over leaves nothing waiting. -/
theorem flush_empties {attempts : Nat} {left : Option Nat}
    (ended : (s.flush attempts left).point = .afterFlush left) :
    (s.flush attempts left).worker.backlog.pending = [] := by
  simp only [Station.flush] at ended ⊢
  by_cases empty : s.worker.backlog.isEmpty = true
  · simp only [empty, if_true]
    exact List.isEmpty_iff.mp empty
  · simp only [empty] at ended ⊢
    cases attempts with
    | zero => rfl
    | succ attempts =>
      -- After an attempt, the flush goes on.
      cases left <;> cases ended

/-- Every small step keeps to the bounds. -/
theorem Bounded.step (bounded : s.Bounded burst policy) : s.step.Bounded burst policy := by
  -- By cases on the point, each of which has its own lemma.
  rw [Station.step]
  cases point : s.point with
  | ready => exact bounded.pull point
  | working context errand =>
    cases hand : s.hand with
    | nil => exact bounded.settle point hand
    | cons packet rest => exact bounded.process point hand
  | sending context errand => exact bounded.send point
  | pushing began pulled => exact bounded.push point
  | closing began pulled => exact bounded.close point
  | draining left => exact bounded.batch point
  | flushing attempts left => exact bounded.flush point
  | finished => exact bounded
  | dead errand => exact bounded

/-- Whatever others do in between, a worker keeps to its bounds from its first step to its last. -/
theorem Comes.bounded {start : Station σ} (run : start.Comes s) (bounded : start.Bounded burst policy) :
    s.Bounded burst policy := by
  -- By induction on the run: others change the plane, and no worker.
  induction run with
  | start => exact bounded
  | step run ih => exact ih.step
  | note run ready core reporter started nextReport =>
    rename_i s ih
    exact ih.goOn rfl rfl rfl ih.room ih.free ih.dropped
  | stop run ready =>
    rename_i s ih
    have room := ih.room
    have free := ih.free (by rw [ready]; rfl)
    rw [ready] at room
    exact ih.goOn rfl rfl rfl room (fun _ => free) (fun _ other => Bool.noConfusion other)
  | others run plane =>
    rename_i s ih
    exact ih.goOn rfl rfl rfl ih.room ih.free ih.dropped

/-- A worker between two bursts has counted what became of the last one. -/
def Settled (s : Station σ) : Prop :=
  s.point.between = true → s.tally = {}

/-- Every small step leaves counted what it should. -/
theorem Settled.step (settled : s.Settled) : s.step.Settled := by
  -- Only the points of a burst have something to count.
  rw [Settled] at settled
  rw [Station.step]
  cases point : s.point with
  | ready =>
    simp only [Station.pull, point, Settled] at settled ⊢
    split
    · exact fun _ => settled rfl
    · exact fun _ => rfl
  | working context errand =>
    cases hand : s.hand with
    | nil => exact fun _ => rfl
    | cons packet rest =>
      intro between
      exfalso
      revert between
      -- While a burst goes on, the worker is not between two of them.
      simp only [Station.process]
      cases (s.worker.process context packet s.worker.memory s.plane.toSurroundings).verdict with
      | drop => simp [point, Point.between]
      | crash => simp [Point.between]
      | forward =>
        simp only [pass]
        split
        · split <;> simp [Point.between]
        · simp [point, Point.between]
  | sending context errand =>
    simp only [Station.send]
    split <;> exact fun other => Bool.noConfusion other
  | pushing began pulled => exact fun _ => settled (by rw [point]; rfl)
  | closing began pulled => exact fun _ => settled (by rw [point]; rfl)
  | draining left =>
    rw [point] at settled
    simp only [Station.batch]
    split
    · exact fun _ => settled rfl
    · split
      · exact fun _ => settled rfl
      · split
        · exact fun _ => settled rfl
        · exact fun other => Bool.noConfusion other
  | flushing attempts left =>
    rw [point] at settled
    simp only [Station.flush]
    split
    · exact fun _ => settled rfl
    · cases attempts <;> exact fun _ => settled rfl
  | finished => exact fun _ => settled (by rw [point]; rfl)
  | dead errand => simp [Settled, point, Point.between]

/-- A worker between two bursts has counted what became of the last one, wherever it comes to. -/
theorem Comes.settled {start : Station σ} (run : start.Comes s) (settled : start.Settled) :
    s.Settled := by
  -- By induction on the run: others change the plane, and no worker.
  induction run with
  | start => exact settled
  | step run ih => exact ih.step
  | note run ready core reporter started nextReport ih => exact ih
  | stop run ready ih => exact fun _ => ih (by rw [ready]; rfl)
  | others run plane ih => exact ih

/-- A worker that was just made keeps to the bounds of its bursts. -/
theorem bounded_build {plan : WorkerPlan σ} {plane : Plane} {w : Worker σ}
    (built : (plan.build plane).1 = .ok w) :
    ({ worker := w, plane := (plan.build plane).2 } : Station σ).Bounded
      plan.settings.burstSize.toNat plan.settings.backpressure := by
  -- Nothing waits in a new worker, and a plan that passes its check has a burst of one at least.
  rw [WorkerPlan.build] at built
  split at built
  · cases built
  · rename_i input checked
    have positive := WorkerPlan.burst_pos checked
    cases built
    exact ⟨positive, rfl, Nat.max_eq_left positive, rfl, Nat.zero_le _, fun _ => rfl, fun _ _ => rfl⟩

/-- Take a worker made to any plan, and let it turn and drain, step by step, with others at work on its
plane in any way in between. Less than three bursts of packets ever wait, and less than two at any
moment of a turn. A turn that begins with a burst waiting leaves its input alone, and under a policy
that drops, none begins or ends with anything waiting. A flush of a drain leaves nothing waiting when
it is over, and neither does the drain. Turns and drains that nobody interferes with are such steps. -/
theorem backlog_bounded {plan : WorkerPlan σ} {plane : Plane} {w : Worker σ}
    (built : (plan.build plane).1 = .ok w)
    (run : Comes { worker := w, plane := (plan.build plane).2 } s) :
    let burst := plan.settings.burstSize.toNat
    let waiting := s.worker.backlog.len
    1 ≤ burst ∧ waiting ≤ 3 * burst - 1 ∧ (s.point.polls = true → waiting ≤ 2 * burst - 1) ∧
    (s.point = .ready →
      (burst ≤ waiting → (s.worker.turn s.plane).pulled = 0 ∧ s.step.plane = s.plane ∧
        ∃ now, s.step.point = .pushing now 0) ∧
      (plan.settings.backpressure = .drop → waiting = 0) ∧
      (∃ t, s.step.Walks t ∧ t.Ends (s.worker.turn s.plane) .ready) ∧
      ∃ t, s.stop.Walks t ∧ t.Ends (s.worker.drain s.plane) .finished) ∧
    (∀ attempts left, s.point = .flushing attempts left → s.step.point = .afterFlush left →
      s.step.worker.backlog.len = 0) ∧
    (s.point = .finished → waiting = 0) := by
  -- The bounds are those of the point that the run has come to, and a turn is a walk from there.
  have bounded := run.bounded (bounded_build built)
  have room := (Nat.le_add_right _ _).trans bounded.room
  have positive := bounded.positive
  refine ⟨positive, room.trans (s.point.limit_le _), fun polls => room.trans (limit_polls _ polls),
    fun ready => ⟨fun full => ?_, fun drops => ?_, ?_⟩, fun attempts left flushing ended => ?_,
    fun finished => ?_⟩
  · obtain ⟨untouched, pushing, pulled⟩ := s.pull_backedUp (bounded.threshold.trans_le full)
    simp only [Station.step, ready]
    exact ⟨pulled, untouched, pushing⟩
  · rw [Backlog.len, bounded.dropped drops (by rw [ready]; rfl)]
    rfl
  · have free := bounded.free (by rw [ready]; rfl)
    have counted := run.settled (fun _ => rfl) (by rw [ready]; rfl)
    have rests : s.Rests s.worker s.plane .ready := ⟨rfl, rfl, ready, free, counted⟩
    exact ⟨walks_turn rests, walks_drain rests⟩
  · simp only [Station.step, flushing] at ended ⊢
    rw [Backlog.len, flush_empties ended]
    rfl
  · rw [finished] at room
    exact Nat.le_zero.mp room

/-- A worker that forwards packets, two at a time, to a ring that takes one. -/
def crampedPlan : WorkerPlan Unit where
  id := 0
  input := some (.ring 0)
  output := .ring 1
  process := passThrough Unit
  memory := ()
  clock := some 0
  settings := { burstSize := 2 }

/-- A ring with six packets, and one with a single place. -/
def crampedPlane : Plane :=
  -- Whether the packets exist makes no difference to how many wait.
  let full : Ring Packet := { name := "in", capacity := 8, capacity_valid := Ring.capacity_eight }
  let narrow : Ring Packet := { name := "out", capacity := 1, capacity_valid := Ring.capacity_one }
  { rings := #[{ value := (full.enqueueBulk (List.replicate 6 ⟨0, 0⟩)).ring }, { value := narrow }] }

/-- A run of it begins, with no report due before the clock moves. In its second turn, three packets come
to wait for that ring, and in its drain five do, which is as many as the bounds allow. -/
theorem backlog_bounded_cramped : ∃ w, (crampedPlan.build crampedPlane).1 = .ok w ∧
    let start : Station Unit := { worker := w, plane := (crampedPlan.build crampedPlane).2 }
    let begun := start.note none w.reporter 0 1
    let turn := step^[11] begun
    let drain := step^[4] (step^[15] begun).stop
    start.Comes turn ∧ turn.point.polls = true ∧ turn.worker.backlog.len = 3 ∧ 3 ≤ 2 * 2 - 1 ∧
    start.Comes drain ∧ drain.worker.backlog.len = 5 ∧ 5 ≤ 3 * 2 - 1 := by
  -- The steps are counted up to the two moments, where what waits is computed.
  obtain ⟨w, built⟩ : ∃ w, (crampedPlan.build crampedPlane).1 = .ok w := ⟨_, rfl⟩
  refine ⟨w, built, ?_⟩
  cases built
  intro start begun turn drain
  have run : start.Comes begun := Comes.start.note rfl none _ 0 1
  have polls : (step^[11] begun).point.polls = true := by cbv
  have waiting : (step^[11] begun).worker.backlog.len = 3 := by cbv
  obtain ⟨-, -, bound, -⟩ := backlog_bounded rfl (run.steps 11)
  have ready : (step^[15] begun).point = .ready := by cbv
  have drains : start.Comes drain := ((run.steps 15).stop ready).steps 4
  have full : (step^[4] (step^[15] begun).stop).worker.backlog.len = 5 := by cbv
  obtain ⟨-, limit, -⟩ := backlog_bounded rfl drains
  exact ⟨run.steps 11, polls, waiting, waiting.symm.trans_le (bound polls), drains, full,
    full.symm.trans_le limit⟩

end Station

end PacketPlane
