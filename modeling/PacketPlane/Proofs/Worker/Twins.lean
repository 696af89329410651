import PacketPlane.Proofs.Worker.Guises

/-! Twins: two workers in different guises that do the same at every step. -/

namespace PacketPlane

/-- Two workers that remember the same and have counted the same but for the packets that a tap had no room
for, and whose packets on the output and in the backlog look the same, one after another. -/
structure Worker.Agrees (w : Worker σ) (p : Plane) (w' : Worker σ) (p' : Plane) : Prop where
  memory : w'.memory = w.memory
  output : (w'.outgoing p').map p'.buffers.capture = (w.outgoing p).map p.buffers.capture
  waiting : w'.backlog.pending.map p'.buffers.capture = w.backlog.pending.map p.buffers.capture
  backlog : { w'.backlog with pending := [] } = { w.backlog with pending := [] }
  counters : { w'.counters with captureDropped := 0 } = { w.counters with captureDropped := 0 }

/-- A worker in another guise that makes the same of its plane agrees with the first one. -/
theorem Worker.Mirrors.agrees {w w' : Worker σ} {p p' : Plane} {hand hand' : List Packet}
    (m : Worker.Mirrors w p hand w' p' hand') : w.Agrees p w' p' := by
  -- What the two agree on is read off the view and the guise.
  have output := Buffers.capture_looks (congrArg View.output m.view)
  have waiting := Buffers.capture_looks m.waiting
  obtain ⟨g, rfl⟩ := m.guise
  exact ⟨rfl, output, waiting, rfl, rfl⟩

/-- Two turns or drains after which two workers agree, and which both processors survive or neither. -/
structure Turn.Agrees (turn turn' : Turn σ) : Prop where
  crashed : turn'.crashed = turn.crashed
  workers : turn.worker.Agrees turn.plane turn'.worker turn'.plane

namespace Station

open Worker (Mirrors)

variable {σ : Type} {a b : Station σ} {w w' : Worker σ} {p p' : Plane} {packets packets' : List Packet}

/-- Two stations at which the same is done next and the same was done before, whose workers differ in
their guise alone. -/
structure Twins (a b : Station σ) : Prop where
  mirrors : Mirrors a.worker a.plane a.hand b.worker b.plane b.hand
  point : b.point = a.point
  tally : b.tally = a.tally
  verdicts : b.verdicts = a.verdicts
  sent : b.sent = a.sent
  idle : a.point.busy = false → a.hand = []

/-- A worker between two bursts has nothing in hand, and neither has its twin. -/
theorem Twins.free (twins : a.Twins b) (idle : a.point.busy = false) : a.hand = [] ∧ b.hand = [] := by
  -- The hands are equally long.
  have free := twins.idle idle
  have none := twins.mirrors.length_hand
  rw [free] at none
  exact ⟨free, List.length_eq_zero_iff.mp none⟩

/-- As many packets are taken in hand. -/
theorem Twins.take (twins : a.Twins b) (m : Mirrors w p packets w' p' packets') (now : UInt64)
    (errand : Errand) : (({ a with worker := w, plane := p } : Station σ).take now errand packets).Twins
      (({ b with worker := w', plane := p' } : Station σ).take now errand packets') where
  -- As many packets with as many bytes are counted.
  mirrors := by
    refine m.counts ?_
    obtain ⟨g, rfl⟩ := m.guise
    rw [m.length_hand, Buffers.totalLen_looks m.hands]
    rfl
  point := by
    show Point.working (w'.context p' now) errand = Point.working (w.context p now) errand
    rw [m.context]
  tally := rfl
  verdicts := twins.verdicts
  sent := twins.sent
  idle busy := Bool.noConfusion busy

/-- Lists that are equally long are empty together. -/
theorem isEmpty_congr {α β : Type} {l : List α} {l' : List β} (same : l'.length = l.length) :
    l'.isEmpty = l.isEmpty := by
  -- A list is empty when it has no first element, and then neither has one as long.
  cases l <;> cases l' <;> simp_all

/-- Turns begin alike. -/
theorem Twins.pull (twins : a.Twins b) (point : a.point = .ready) : a.pull.Twins b.pull := by
  -- Both are granted as much and pull as many packets, so both begin a burst or both go on to push.
  obtain ⟨free, free'⟩ := twins.free (by rw [point]; rfl)
  have m := twins.mirrors
  rw [free, free'] at m
  have clock := m.reading
  obtain ⟨want, granted⟩ := m.allowance (a.plane.clock a.worker.clock).now
  simp only [Station.pull, clock, want]
  generalize a.worker.allowance _ = allowed at want granted ⊢
  have pulled := granted.pulls allowed.1
  have count := pulled.length_hand
  rw [isEmpty_congr count, count]
  by_cases none : (allowed.2.pull a.plane allowed.1).1.isEmpty = true
  · simp only [none, if_true]
    have nothing := List.isEmpty_iff.mp none
    have nothing' : ((b.worker.allowance (a.plane.clock a.worker.clock).now).2.pull b.plane
        allowed.1).1 = [] := by
      rw [← List.length_eq_zero_iff, count, nothing]
      rfl
    rw [nothing, nothing'] at pulled
    refine ⟨?_, rfl, twins.tally, twins.verdicts, twins.sent, fun _ => free⟩
    rw [free, free']
    refine (pulled.spend _).counts ?_
    obtain ⟨g, worn⟩ := granted.guise
    rw [worn]
    rfl
  · simp only [none, if_false, Bool.false_eq_true]
    exact twins.take (pulled.spend _) _ _

/-- Both workers let a packet through. -/
theorem Twins.pass (twins : a.Twins b) {context : Context} {errand : Errand} {packet twin : Packet}
    {rest rest' : List Packet} (point : a.point = .working context errand) (hand : a.hand = packet :: rest)
    (hand' : b.hand = twin :: rest') :
    (a.pass context errand packet rest).Twins (b.pass context errand twin rest') := by
  have m := twins.mirrors
  rw [hand, hand'] at m
  have target := m.target
  simp only [Station.pass]
  cases shown : a.worker.capturePacket packet a.plane with
  | mk v q =>
  cases shown' : b.worker.capturePacket twin b.plane with
  | mk v' q' =>
  obtain ⟨⟨count, rfl⟩, ⟨count', rfl⟩, after⟩ := m.shows shown shown'
  have output : (a.worker.missing count).target? = a.worker.target? := rfl
  have output' : (b.worker.missing count').target? = a.worker.target? := target
  rw [output, output']
  have threshold : b.worker.backlog.threshold = a.worker.backlog.threshold := by
    obtain ⟨g, worn⟩ := m.guise
    rw [worn]
    rfl
  cases a.worker.target? with
  | some target =>
    -- As many packets wait in both, so both reach the threshold or neither.
    have count : (b.worker.backlog.pending ++ [twin]).length =
        (a.worker.backlog.pending ++ [packet]).length := after.length_waiting
    refine ⟨after, ?_, twins.tally, twins.verdicts, twins.sent, fun idle => ?_⟩
    · show ite ((b.worker.backlog.pending ++ [twin]).length < b.worker.backlog.threshold) _ _ = _
      rw [count, threshold]
      rfl
    · revert idle
      dsimp only
      split <;> exact fun busy => Bool.noConfusion busy
  | none =>
    -- The packet that was to wait is given back.
    have looks := after.waiting
    simp only [Buffers.looks_append] at looks
    have single : (q'.buffers.looks [twin]).length = (q.buffers.looks [packet]).length := by
      rw [Buffers.length_looks, Buffers.length_looks]
      rfl
    have last : q'.buffers.look twin = q.buffers.look packet :=
      List.singleton_inj.mp (List.append_inj' looks single).2
    have len := Buffers.len_look last
    refine ⟨?_, twins.point, ?_, twins.verdicts, twins.sent, fun idle => ?_⟩
    · refine after.givesUp rfl rfl m.length_waiting a.worker.backlog b.worker.backlog rfl rfl ?_
      obtain ⟨g, worn⟩ := m.guise
      rw [worn]
      rfl
    · simp only [twins.tally, len]
    · rw [show a.point.busy = true by rw [point]; rfl] at idle
      cases idle

/-- Both workers process the first packet in hand. -/
theorem Twins.process (twins : a.Twins b) {context : Context} {errand : Errand} {packet twin : Packet}
    {rest rest' : List Packet} (point : a.point = .working context errand) (hand : a.hand = packet :: rest)
    (hand' : b.hand = twin :: rest') :
    (a.process context errand packet rest).Twins (b.process context errand twin rest') := by
  -- The verdicts agree, as the packets look the same to the processors. Then both pass the packet on,
  -- drop it or die alike.
  have m := twins.mirrors
  rw [hand, hand'] at m
  obtain ⟨same, decided⟩ := m.decides context
  have idle : ∀ {hand : List Packet}, a.point.busy = false → hand = [] := by
    rw [point]
    exact fun idle => Bool.noConfusion idle
  simp only [Station.process, same]
  generalize a.worker.process context packet a.worker.memory a.plane.toSurroundings = decision at *
  generalize b.worker.process context twin b.worker.memory b.plane.toSurroundings = other at *
  have after : ({ a with
      worker := { a.worker with memory := decision.memory }
      plane := { a.plane with toSurroundings := decision.surroundings }
      verdicts := a.verdicts ++ [decision.verdict] } : Station σ).Twins { b with
      worker := { b.worker with memory := other.memory }
      plane := { b.plane with toSurroundings := other.surroundings }
      verdicts := b.verdicts ++ [decision.verdict] } := by
    refine ⟨?_, twins.point, twins.tally, ?_, twins.sent, idle⟩
    · rw [hand, hand']
      exact decided
    · rw [twins.verdicts]
  generalize decision.verdict = verdict at after ⊢
  cases verdict with
  | forward => exact after.pass point hand hand'
  | drop =>
    -- A dropped packet leaves both hands.
    have left := Mirrors.handsBack [packet] [twin] decided rfl
    refine ⟨left, twins.point, ?_, after.verdicts, twins.sent, idle⟩
    rw [twins.tally]
  | crash =>
    -- A processor that dies leaves nothing in hand.
    rw [← List.append_nil (packet :: rest), ← List.append_nil (twin :: rest')] at decided
    have left := Mirrors.handsBack (packet :: rest) (twin :: rest') decided
      (by simpa using decided.length_hand)
    exact ⟨left, rfl, twins.tally, after.verdicts, twins.sent, fun _ => rfl⟩

/-- What the outputs accept looks the same. -/
theorem Twins.accepted (twins : a.Twins b) : b.accepted = a.accepted := by
  -- Both outputs have room for as many of the packets that wait.
  rw [Station.accepted, Station.accepted, twins.mirrors.target]
  cases output : a.worker.target? with
  | none => rfl
  | some target =>
    obtain ⟨outcome, q, q', left, left', tried, tried', looks, -⟩ := twins.mirrors.offers output
    simp only [tried, tried']
    exact looks

/-- What waits is sent alike once the threshold is reached. -/
theorem Twins.send (twins : a.Twins b) (context : Context) (errand : Errand) :
    (a.send context errand).Twins (b.send context errand) := by
  -- Both have an output or neither has. What is left waits in both, and both forget their attempts
  -- together.
  have accepted := twins.accepted
  rw [Station.send, Station.send, twins.mirrors.target]
  cases output : a.worker.target? with
  | none =>
    exact ⟨twins.mirrors, rfl, twins.tally, twins.verdicts, twins.sent,
      fun idle => Bool.noConfusion idle⟩
  | some target =>
    obtain ⟨outcome, q, q', left, left', tried, tried', -, after⟩ := twins.mirrors.offers output
    have empty := after.isEmpty
    simp only [tried, tried', accepted, twins.tally, twins.sent] at empty ⊢
    refine ⟨?_, rfl, rfl, twins.verdicts, rfl, fun idle => Bool.noConfusion idle⟩
    dsimp only
    rw [empty]
    split
    · refine after.rewait rfl rfl ?_
      obtain ⟨g, worn⟩ := twins.mirrors.guise
      rw [worn]
      rfl
    · exact after

/-- What became of a burst is counted alike. -/
theorem Twins.settle (twins : a.Twins b) (errand : Errand) (hand : a.hand = []) :
    (a.settle errand).Twins (b.settle errand) := by
  -- The tallies are the same, and a flush will try as often.
  have same := twins.mirrors.settings
  have counted := twins.mirrors.recordTally a.tally
  rw [Station.settle, Station.settle, same, twins.tally]
  exact ⟨counted, rfl, rfl, twins.verdicts, twins.sent, fun _ => hand⟩

/-- What waits at the end of a turn is pushed out alike. -/
theorem Twins.push (twins : a.Twins b) {began : UInt64} {pulled : Nat}
    (point : a.point = .pushing began pulled) : (a.push began pulled).Twins (b.push began pulled) := by
  -- The same is accepted, and the push keeps the views equal.
  have free := twins.idle (by rw [point]; rfl)
  simp only [Station.push, twins.accepted, twins.sent]
  exact ⟨twins.mirrors.push, rfl, twins.tally, twins.verdicts, rfl, fun _ => free⟩

/-- Turns end alike. -/
theorem Twins.close (twins : a.Twins b) {began : UInt64} {pulled : Nat}
    (point : a.point = .closing began pulled) : (a.close began pulled).Twins (b.close began pulled) := by
  -- The same errors are found, the clocks show the same time, and reports are due together.
  have free := twins.idle (by rw [point]; rfl)
  have checked := twins.mirrors.checkDevices
  simp only [Station.close]
  generalize a.worker.checkDevices a.plane = w at checked ⊢
  generalize b.worker.checkDevices b.plane = w' at checked ⊢
  rw [checked.reading]
  generalize (a.plane.clock w.clock).now = now
  refine ⟨?_, rfl, twins.tally, twins.verdicts, twins.sent, fun _ => free⟩
  refine Mirrors.reportAt (checked.counts ?_) now
  obtain ⟨g, rfl⟩ := checked.guise
  rfl

/-- Drains end alike, but for what waits. -/
theorem Twins.conclude (twins : a.Twins b) (free : a.hand = []) : a.conclude.Twins b.conclude := by
  -- Both flush as often as their settings say.
  have same := twins.mirrors.settings
  rw [Station.conclude, Station.conclude, same]
  exact ⟨twins.mirrors, rfl, twins.tally, twins.verdicts, twins.sent, fun _ => free⟩

/-- Batches are taken alike. -/
theorem Twins.batch (twins : a.Twins b) {left : Nat} (point : a.point = .draining left) :
    (a.batch left).Twins (b.batch left) := by
  -- Both drain a port no further. From a ring as many packets come, so both find some or both are
  -- done.
  obtain ⟨free, free'⟩ := twins.free (by rw [point]; rfl)
  have m := twins.mirrors
  rw [free, free'] at m
  have input := m.input
  rw [Station.batch, Station.batch, input, m.settings]
  cases source : a.worker.input with
  | port port => exact twins.conclude free
  | ring number =>
    dsimp only
    split
    · exact twins.conclude free
    · generalize min left a.worker.settings.burstSize.toNat = limit
      have place : a.worker.input.place = .ring number := by
        rw [source]
        rfl
      have place' : b.worker.input.place = .ring number := by
        rw [input, place]
      have supply := m.length_supply
      rw [place, place'] at supply
      -- Both rings hold as many packets, so the same number comes from both.
      have taken := m.fetches (place ▸ a.plane.dequeueBulk_fetches number limit)
        (place' ▸ b.plane.dequeueBulk_fetches number limit) (a.plane.dequeueBulk_gives number limit)
        (b.plane.dequeueBulk_gives number limit)
        (by rw [b.plane.length_dequeueBulk m.keeps'.atRest, a.plane.length_dequeueBulk m.keeps.atRest,
          supply])
      have count := taken.length_hand
      rw [isEmpty_congr count]
      by_cases none : (a.plane.dequeueBulk number limit).1.isEmpty = true
      · simp only [none, if_true]
        have nothing := List.isEmpty_iff.mp none
        rw [nothing, List.length_nil, List.length_eq_zero_iff] at count
        rw [nothing, count] at taken
        refine Twins.conclude ⟨?_, twins.point, twins.tally, twins.verdicts, twins.sent, twins.idle⟩ free
        rw [free, free']
        exact taken
      · simp only [none, if_false, Bool.false_eq_true]
        rw [count, taken.reading]
        exact twins.take taken _ _

/-- Flushes go on alike. -/
theorem Twins.flush (twins : a.Twins b) {attempts : Nat} {left : Option Nat}
    (point : a.point = .flushing attempts left) : (a.flush attempts left).Twins (b.flush attempts left) := by
  -- Both backlogs are empty or not together, and both have as many attempts left.
  have free := twins.idle (by rw [point]; rfl)
  have m := twins.mirrors
  simp only [Station.flush, m.isEmpty]
  split
  · refine ⟨m, rfl, twins.tally, twins.verdicts, twins.sent, fun _ => free⟩
  · cases attempts with
    | zero =>
      obtain ⟨same, after⟩ := m.dropPending
      simp only [same]
      refine ⟨after.counts ?_, rfl, twins.tally, twins.verdicts, twins.sent, fun _ => free⟩
      obtain ⟨g, worn⟩ := m.guise
      rw [worn]
      rfl
    | succ attempts =>
      simp only [twins.accepted, twins.sent]
      exact ⟨m.attempt, rfl, twins.tally, twins.verdicts, rfl, fun _ => free⟩

/-- Every small step is done alike. -/
theorem Twins.step (twins : a.Twins b) : a.step.Twins b.step := by
  -- By point, each with its own lemma. The hands are equally long, so both have a packet to process
  -- or neither has.
  have same := twins.point
  rw [Station.step, Station.step, same]
  cases point : a.point with
  | ready => exact twins.pull point
  | working context errand =>
    have count := twins.mirrors.length_hand
    cases hand : a.hand with
    | nil =>
      rw [hand, List.length_nil, List.length_eq_zero_iff] at count
      rw [count]
      exact twins.settle errand hand
    | cons packet rest =>
      rw [hand, List.length_cons] at count
      obtain ⟨twin, rest', hand'⟩ := List.exists_cons_of_length_eq_add_one count
      rw [hand']
      exact twins.process point hand hand'
  | sending context errand => exact twins.send context errand
  | pushing began pulled => exact twins.push point
  | closing began pulled => exact twins.close point
  | draining left => exact twins.batch point
  | flushing attempts left => exact twins.flush point
  | finished => exact twins
  | dead errand => exact twins

/-- Workers turn to draining alike. -/
theorem Twins.stop (twins : a.Twins b) (ready : a.point = .ready) : a.stop.Twins b.stop := by
  -- As many packets are queued on both inputs.
  have free := twins.idle (by rw [ready]; rfl)
  have count : b.worker.drainCount b.plane = a.worker.drainCount a.plane := by
    have supply := twins.mirrors.length_supply
    have input := twins.mirrors.input
    rw [input] at supply
    rw [Worker.drainCount, Worker.drainCount, input]
    cases source : a.worker.input with
    | port port => rfl
    | ring number =>
      rw [source] at supply
      simp only [Plane.ringCount_eq twins.mirrors.keeps.atRest,
        Plane.ringCount_eq twins.mirrors.keeps'.atRest]
      exact supply
  rw [Station.stop, Station.stop, count]
  exact ⟨twins.mirrors, rfl, twins.tally, twins.verdicts, twins.sent, fun _ => free⟩

/-- A run begins alike, whatever the workers report. -/
theorem Twins.note (twins : a.Twins b) (core : Option Nat) (reporter reporter' : Reporter)
    (started nextReport : UInt64) : (a.note core reporter started nextReport).Twins
      (b.note core reporter' started nextReport) := by
  -- The reporters may differ, so they become part of the guise.
  refine ⟨twins.mirrors.renew rfl ?_ (twins.mirrors.keeps.stays rfl rfl rfl rfl rfl)
    (twins.mirrors.keeps'.stays rfl rfl rfl rfl rfl), twins.point, twins.tally, twins.verdicts,
    twins.sent, twins.idle⟩
  obtain ⟨g, worn⟩ := twins.mirrors.guise
  refine ⟨{ g with reporter := reporter' }, ?_⟩
  rw [Station.note, Station.note, worn]
  rfl

/-- Two stations that two workers come to side by side: by their own steps, by turning to draining when
they are ready, by draining the tap of the second one at any moment, and with others at work on both planes
in between, who leave the workers their packets and change the same about what either can see. -/
inductive Alongside (first second : Station σ) : Station σ → Station σ → Prop
  | start : Alongside first second first second
  | step {a b : Station σ} (run : Alongside first second a b) : Alongside first second a.step b.step
  | note {a b : Station σ} (run : Alongside first second a b) (ready : a.point = .ready)
    (core : Option Nat) (reporter reporter' : Reporter) (started nextReport : UInt64) :
    Alongside first second (a.note core reporter started nextReport)
      (b.note core reporter' started nextReport)
  | stop {a b : Station σ} (run : Alongside first second a b) (ready : a.point = .ready) :
    Alongside first second a.stop b.stop
  | drain {a b : Station σ} (run : Alongside first second a b) {number : Nat}
    (watched : b.worker.capture = some number) {ρ : Type} (write : SinkWrite ρ) (sink : ρ) (limit : Nat) :
    Alongside first second a { b with plane := (b.plane.drainTap number write sink limit).2.1 }
  | others {a b : Station σ} (run : Alongside first second a b) (change : View.Change) {p q : Plane}
    (keeps : a.worker.Keeps p a.hand) (keeps' : b.worker.Keeps q b.hand)
    (seen : a.worker.view p a.hand = (a.worker.view a.plane a.hand).after change)
    (seen' : b.worker.view q b.hand = (b.worker.view b.plane b.hand).after change) :
    Alongside first second { a with plane := p } { b with plane := q }

/-- Two workers go on side by side for any number of steps. -/
theorem Alongside.steps {first second : Station σ} (run : Alongside first second a b) (count : Nat) :
    Alongside first second (Station.step^[count] a) (Station.step^[count] b) := by
  -- By induction on how many steps there are.
  induction count with
  | zero => exact run
  | succ count ih =>
    rw [Function.iterate_succ_apply', Function.iterate_succ_apply']
    exact ih.step

/-- Twins stay twins wherever they come to side by side. -/
theorem Alongside.twins {first second : Station σ} (run : Alongside first second a b)
    (twins : first.Twins second) : a.Twins b := by
  -- By induction on how both came there. A drain of the tap is seen by neither, and others change
  -- what both see in the same way.
  induction run with
  | start => exact twins
  | step run ih => exact ih.step
  | note run ready core reporter reporter' started nextReport ih =>
    exact ih.note core reporter reporter' started nextReport
  | stop run ready ih => exact ih.stop ready
  | drain run watched write sink limit ih =>
    obtain ⟨keeps, view⟩ := ih.mirrors.keeps'.drains watched write sink limit
    exact ⟨⟨ih.mirrors.insular, ih.mirrors.guise, ih.mirrors.keeps, keeps, view.trans ih.mirrors.view⟩,
      ih.point, ih.tally, ih.verdicts, ih.sent, ih.idle⟩
  | others run change keeps keeps' seen seen' ih =>
    have view := seen'.trans ((congrArg (·.after change) ih.mirrors.view).trans seen.symm)
    exact ⟨⟨ih.mirrors.insular, ih.mirrors.guise, keeps, keeps', view⟩, ih.point, ih.tally, ih.verdicts,
      ih.sent, ih.idle⟩

/-- Each of two workers comes by itself to where both come side by side. -/
theorem Alongside.comes {first second : Station σ} (run : Alongside first second a b)
    (twins : first.Twins second) : first.Comes a ∧ second.Comes b := by
  -- By induction on how both came there. As twins they are ready together, so each may begin and stop
  -- when the other does.
  induction run with
  | start => exact ⟨.start, .start⟩
  | step run ih => exact ⟨ih.1.step, ih.2.step⟩
  | note run ready core reporter reporter' started nextReport ih =>
    exact ⟨ih.1.note ready core reporter started nextReport,
      ih.2.note ((run.twins twins).point.trans ready) core reporter' started nextReport⟩
  | stop run ready ih => exact ⟨ih.1.stop ready, ih.2.stop ((run.twins twins).point.trans ready)⟩
  | drain run watched write sink limit ih => exact ⟨ih.1, ih.2.others _⟩
  | others run change keeps keeps' seen seen' ih => exact ⟨ih.1.others _, ih.2.others _⟩

/-- Where one of two workers walks, the other walks along. -/
theorem Alongside.walks {first second s : Station σ} (run : Alongside first second a b)
    (twins : first.Twins second) (walks : a.Walks s) :
    ∃ t, b.Walks t ∧ Alongside first second s t := by
  -- Both come to a halt after as many steps.
  induction walks with
  | refl => exact ⟨b, .refl, run⟩
  | tail before moved ih =>
    obtain ⟨t, walks, along⟩ := ih
    obtain ⟨going, rfl⟩ := moved
    rw [← (along.twins twins).point] at going
    exact ⟨t.step, walks.tail ⟨going, rfl⟩, along.step⟩

/-- Where a turn or a drain ends, a worker has come to a halt, with what it ended with. -/
theorem Ends.halts {s : Station σ} {turn : Turn σ} {point : Point} (ends : s.Ends turn point)
    (halts : point.halts = true) :
    s.point.halts = true ∧ s.worker = turn.worker ∧ s.plane = turn.plane := by
  -- Dead or at rest, the worker halts with what the turn left it.
  rw [Ends] at ends
  split at ends
  · obtain ⟨⟨errand, dead⟩, worker, plane⟩ := ends
    rw [dead]
    exact ⟨rfl, worker, plane⟩
  · rw [ends.point]
    exact ⟨halts, ends.worker, ends.plane⟩

/-- A processor died exactly where a turn or a drain ends that way. -/
theorem Ends.crashed {s : Station σ} {turn : Turn σ} {point : Point} (ends : s.Ends turn point)
    (alive : ∀ errand, point ≠ .dead errand) : turn.crashed = true ↔ ∃ errand, s.point = .dead errand := by
  -- A worker at rest is at its point, which is no death.
  rw [Ends] at ends
  split at ends
  · rename_i crashed
    exact ⟨fun _ => ends.1, fun _ => crashed⟩
  · rename_i survived
    refine ⟨fun crashed => absurd crashed survived, ?_⟩
    rintro ⟨errand, dead⟩
    exact absurd (ends.point.symm.trans dead) (alive errand)

/-- Turns and drains that two workers go through side by side end alike. -/
theorem Alongside.ends {first second s t : Station σ} (run : Alongside first second a b)
    (twins : first.Twins second) (walks : a.Walks s) (walks' : b.Walks t) {turn turn' : Turn σ}
    {point : Point} (ends : s.Ends turn point) (ends' : t.Ends turn' point) (halts : point.halts = true)
    (alive : ∀ errand, point ≠ .dead errand) : Alongside first second s t ∧ turn.Agrees turn' := by
  -- Where the first walks, the second may walk alongside. Both halt there together, and a walk has
  -- only one such end.
  obtain ⟨u, walked, along⟩ := run.walks twins walks
  obtain ⟨halted, worker, plane⟩ := ends.halts halts
  obtain ⟨halted', worker', plane'⟩ := ends'.halts halts
  have same := (along.twins twins).point
  obtain rfl := walked.unique walks' (by rw [same]; exact halted) halted'
  refine ⟨along, ?_, ?_⟩
  · rw [Bool.eq_iff_iff, ends'.crashed alive, ends.crashed alive, same]
  · rw [← worker, ← worker', ← plane, ← plane']
    exact (along.twins twins).mirrors.agrees

/-- A worker is a twin of itself with a tap when it keeps to its own packets with the tap. -/
theorem twins_tapped {w : Worker σ} {p : Plane} {tap : Nat} (insular : w.process.Insular)
    (keeps : ({ w with capture := some tap } : Worker σ).Keeps p []) :
    Twins { worker := { w with capture := none }, plane := p }
      { worker := { w with capture := some tap }, plane := p } := by
  refine ⟨⟨insular, ⟨⟨some tap, w.counters.captureDropped, w.reporter, w.backlog.pending⟩, rfl⟩, ?_, keeps,
    rfl⟩, rfl, rfl, rfl, rfl, fun _ => rfl⟩
  refine ⟨keeps.apart, keeps.atRest, keeps.held.mono ?_ (List.Subset.refl _)⟩
  -- Without the tap, no more packets are kept.
  exact ((List.sublist_append_right _ _).append_left _ |>.append_right _).subperm

/-- Take any worker whose output does not feed its input, who alone holds the packets on its input, and
whose processor goes by the packet under work. Let it run without a tap, and with one, side by side: with
others who do the same in both runs, and with the tap drained whenever anyone likes, into whatever sink. At
every step of both runs, the workers do the same next, their processors gave the same verdicts, their
outputs accepted packets that looked the same, and the packets on their outputs and in their backlogs, their
memories and their counters agree. So they do after every turn, and after the drain. -/
theorem tap_unseen {w : Worker σ} {p : Plane} {tap : Nat} (insular : w.process.Insular)
    (keeps : ({ w with capture := some tap } : Worker σ).Keeps p [])
    (run : Alongside { worker := { w with capture := none }, plane := p }
      { worker := { w with capture := some tap }, plane := p } a b) :
    b.point = a.point ∧ b.verdicts = a.verdicts ∧ b.sent = a.sent ∧
    a.worker.Agrees a.plane b.worker b.plane ∧
    (a.point = .ready →
      ((a.worker.turn a.plane).Agrees (b.worker.turn b.plane) ∧
        ∃ s t, Alongside { worker := { w with capture := none }, plane := p }
            { worker := { w with capture := some tap }, plane := p } s t ∧
          a.step.Walks s ∧ s.Ends (a.worker.turn a.plane) .ready ∧
          b.step.Walks t ∧ t.Ends (b.worker.turn b.plane) .ready) ∧
      ((a.worker.drain a.plane).Agrees (b.worker.drain b.plane) ∧
        ∃ s t, Alongside { worker := { w with capture := none }, plane := p }
            { worker := { w with capture := some tap }, plane := p } s t ∧
          a.stop.Walks s ∧ s.Ends (a.worker.drain a.plane) .finished ∧
          b.stop.Walks t ∧ t.Ends (b.worker.drain b.plane) .finished)) := by
  -- The two are twins at the start, and stay so wherever they come. What they do next in a whole turn
  -- or drain is walked alongside as well.
  have start := twins_tapped insular keeps
  have twins := run.twins start
  obtain ⟨comes, comes'⟩ := run.comes start
  refine ⟨twins.point, twins.verdicts, twins.sent, twins.mirrors.agrees, fun ready => ?_⟩
  have ready' := twins.point.trans ready
  obtain ⟨free, free'⟩ := twins.free (by rw [ready]; rfl)
  have rests : a.Rests a.worker a.plane .ready :=
    ⟨rfl, rfl, ready, free, comes.settled (fun _ => rfl) (by rw [ready]; rfl)⟩
  have rests' : b.Rests b.worker b.plane .ready :=
    ⟨rfl, rfl, ready', free', comes'.settled (fun _ => rfl) (by rw [ready']; rfl)⟩
  constructor
  · obtain ⟨s, walks, ends⟩ := walks_turn rests
    obtain ⟨t, walks', ends'⟩ := walks_turn rests'
    obtain ⟨along, agrees⟩ := run.step.ends start walks walks' ends ends' rfl fun _ => Point.noConfusion
    exact ⟨agrees, s, t, along, walks, ends, walks', ends'⟩
  · obtain ⟨s, walks, ends⟩ := walks_drain rests
    obtain ⟨t, walks', ends'⟩ := walks_drain rests'
    obtain ⟨along, agrees⟩ := (run.stop ready).ends start walks walks' ends ends' rfl
      fun _ => Point.noConfusion
    exact ⟨agrees, s, t, along, walks, ends, walks', ends'⟩

/-- Both packets of a pool. -/
def lentPair : Ledger :=
  (({} : Ledger).call (.make "pair" { capacity := 2 } Ledger.reserveAny)).call (.allocBulk 0 2)

/-- Both packets, with a byte in each. -/
def ladenPair : Ledger :=
  (lentPair.call (.edit ⟨0, 0⟩ (.copy [1]))).call (.edit ⟨0, 1⟩ (.copy [2]))

/-- A ring with two places. -/
def pairWide : Ring Packet :=
  { name := "pair", capacity := 2, capacity_valid := Ring.capacity_two }

/-- A ring with one place. -/
def narrowTap : Ring Packet :=
  { name := "tap", capacity := 1, capacity_valid := Ring.capacity_one }

/-- A plane with both packets on its first ring, nothing on the second one, and a tap with one place. -/
def ladenPlane : Plane where
  buffers := ladenPair.buffers
  clocks := #[{ hz := 1000 }]
  lives := #[.created]
  rings := #[{ value := (pairWide.enqueueBulk [⟨0, 0⟩, ⟨0, 1⟩]).ring }, { value := pairWide }]
  taps := #[{ value := { ring := narrowTap } }]

/-- A worker that writes over the first byte of each packet and forwards it from the first ring to the
second one. -/
def marking : Worker Nat where
  id := 0
  input := .ring 0
  output := .ring 1
  process := scripted [.set 7, .append [9]]
  memory := 0
  backlog := Backlog.make 2 .drop
  pacer := none
  clock := 0
  watch := none
  watched := []
  capture := none
  life := 0
  reporter := { label := "worker-0" }
  statsInterval := 0
  settings := {}

/-- With this tap, nothing else is held on that plane, and each packet on the input once. -/
theorem marking_keeps : ({ marking with capture := some 0 } : Worker Nat).Keeps ladenPlane [] := by
  -- Both packets are in the input ring and nowhere else, and the tap and the output ring are empty.
  have empty : pairWide.Holds [] := Ring.holds_make (rfl : Ring.make "pair" 2 = .ok pairWide)
  have full := empty.enqueueBulk_taken [⟨0, 0⟩, ⟨0, 1⟩]
  have unused : narrowTap.Holds [] := Ring.holds_make (rfl : Ring.make "tap" 1 = .ok narrowTap)
  have atRest : ladenPlane.AtRest := by
    intro place r found
    match place with
    | .ring 0 =>
      cases found
      exact ⟨_, full⟩
    | .ring 1 =>
      cases found
      exact ⟨_, empty⟩
    | .tap 0 =>
      cases found
      exact ⟨_, unused⟩
    | .ring (k + 2) | .received port | .sending port | .tap (k + 1) => cases found
  have lent : lentPair.Reachable :=
    (Ledger.Reachable.start.call (.make ..) trivial).call (.allocBulk 0 2) trivial
  have both : lentPair.packets = [⟨0, 0⟩, ⟨0, 1⟩] := by cbv
  have listed : ∀ packet ∈ [(⟨0, 0⟩ : Packet), ⟨0, 1⟩], packet ∈ lentPair.packets := by
    rw [both]
    exact fun packet member => member
  -- The packets were written to, each with a byte of its own.
  have run : ladenPair.Reachable :=
    (lent.call (.edit ⟨0, 0⟩ (.copy [1])) (listed _ (by decide))).call (.edit ⟨0, 1⟩ (.copy [2]))
      (listed ⟨0, 1⟩ (by decide))
  have live : lentPair.live = [⟨0, 0⟩, ⟨0, 1⟩] := by cbv
  have queued : ladenPlane.contents (.ring 0) = [⟨0, 0⟩, ⟨0, 1⟩] := by cbv
  have sending : ladenPlane.contents (.ring 1) = [] := by cbv
  have captured : ladenPlane.contents (.tap 0) = [] := by cbv
  refine ⟨by decide, atRest, ladenPair, run, rfl, ?_, ?_⟩
  · show (ladenPlane.contents (.ring 1) ++ (ladenPlane.contents (.tap 0) ++ []) ++
      ([] ++ ladenPlane.contents (.ring 0))).Subperm lentPair.packets
    rw [queued, sending, captured, both]
    exact List.Subperm.refl _
  · show ∀ packet ∈ ladenPlane.contents (.ring 0), lentPair.references packet = 1
    rw [queued]
    intro packet member
    rw [Ledger.references, live]
    revert packet
    decide

/-- This worker before its first turn, with or without the tap. -/
def markingReady (capture : Option Nat) : Station Nat :=
  { worker := { marking with capture }, plane := ladenPlane }

/-- The worker with the tap, once both packets were processed. -/
def markingAmid : Station Nat :=
  step^[3] (markingReady (some 0))

/-- The tap drained into memory, and the plane that it leaves. -/
def markingRecorded : Except Fault Nat × Plane × MemoryCapture :=
  markingAmid.plane.drainTap 0 MemoryCapture.write {} 4

/-- The tap of this worker is full after the first packet and drained before the burst is sent. It misses
the second packet, and nothing else tells the worker from one without a tap. -/
theorem tap_unseen_overfull :
    let a := step^[7] (markingReady none)
    let b := step^[4] { markingAmid with plane := markingRecorded.2.1 }
    Alongside (markingReady none) (markingReady (some 0)) a b ∧
    markingRecorded.2.2.packets = #[⟨noPort, 0, [7, 9]⟩] ∧
    a.worker.counters.captureDropped = 0 ∧ b.worker.counters.captureDropped = 1 ∧
    a.sent = [⟨noPort, 0, [7, 9]⟩, ⟨noPort, 0, [7, 9]⟩] ∧ b.sent = a.sent ∧ b.verdicts = a.verdicts ∧
    a.worker.Agrees a.plane b.worker b.plane ∧
    (a.worker.turn a.plane).Agrees (b.worker.turn b.plane) ∧
    (a.worker.drain a.plane).Agrees (b.worker.drain b.plane) := by
  -- Three steps put the burst before the tap, which is then drained. Four more send the burst and end
  -- the turn.
  have watched : markingAmid.worker.capture = some 0 := by cbv
  have begun : Alongside (markingReady none) (markingReady (some 0)) _ _ := .start
  have along := ((begun.steps 3).drain watched MemoryCapture.write {} 4).steps 4
  have ready : (step^[7] (markingReady none)).point = .ready := by cbv
  have insular : marking.process.Insular := scripted_insular [.set 7, .append [9]]
  obtain ⟨-, verdicts, sent, agrees, halts⟩ := tap_unseen insular marking_keeps along
  obtain ⟨⟨turns, -⟩, drains, -⟩ := halts ready
  exact ⟨along, by cbv, by cbv, by cbv, by cbv, sent, verdicts, agrees, turns, drains⟩

end Station

end PacketPlane
