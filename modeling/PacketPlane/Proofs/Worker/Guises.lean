import PacketPlane.Proofs.Worker.Bounds
import PacketPlane.Proofs.Worker.Scripts
import PacketPlane.Proofs.Worker.Views

/-! Guises: workers that differ in their taps alone, and what they have in common whatever their taps
hold. -/

namespace PacketPlane

/-- What a tap may change about a worker, and which packets stand for those that wait. -/
structure Guise where
  capture : Option Nat
  captureDropped : UInt64
  reporter : Reporter
  pending : List Packet

namespace Worker

variable {σ : Type}

/-- A worker in another guise. -/
def as (w : Worker σ) (g : Guise) : Worker σ :=
  -- Everything else stays as it is.
  { w with
    capture := g.capture
    counters := { w.counters with captureDropped := g.captureDropped }
    reporter := g.reporter
    backlog := { w.backlog with pending := g.pending } }

variable {w w' v v' : Worker σ} {g : Guise} {p p' q : Plane} {hand hand' packets rest rest' : List Packet}
  {packet twin : Packet}

/-- What became of packets is counted in any guise. -/
theorem as_recordOutcome (w : Worker σ) (g : Guise) (outcome : Outcome) :
    (w.as g).recordOutcome outcome = (w.recordOutcome outcome).as g := by
  -- What is counted is no part of the guise.
  simp only [recordOutcome]
  split_ifs <;> rfl

/-- A tally is counted in any guise. -/
theorem as_recordTally (w : Worker σ) (g : Guise) (tally : Tally) :
    (w.as g).recordTally tally = (w.recordTally tally).as g := by
  -- What is counted is no part of the guise.
  simp only [recordTally, recordOutcome]
  split_ifs <;> rfl

/-- As many packets may be pulled in any guise in which as many wait. -/
theorem as_allowance (same : g.pending.length = w.backlog.pending.length) (now : UInt64) :
    (w.as g).allowance now = ((w.allowance now).1, (w.allowance now).2.as g) := by
  -- Only how many packets wait is looked at.
  have appetite : (w.as g).appetite = w.appetite := by
    rw [Worker.appetite, Worker.appetite, Backlog.len, Backlog.len, ← same]
    rfl
  have pacer : (w.as g).pacer = w.pacer := rfl
  rw [allowance, allowance, appetite, pacer]
  cases w.pacer <;> rfl

/-- A look for errors depends on the error counts that it reads. -/
theorem checkDevices_eq (w : Worker σ) (p : Plane) : w.checkDevices p =
    match w.readings p with
    | none => w
    | some fresh =>
      if fresh != w.watched then
        let streak := countStreak w.errorStreak
        let c := w.counters.recordDeviceError
        let c := if streak = w.settings.alarmThreshold then c.recordAlarm else c
        { w with watched := fresh, errorStreak := streak, counters := c }
      else { w with errorStreak := 0 } := by
  -- A device that is not watched or not there is not read.
  rw [checkDevices, readings]
  cases w.watch.bind p.device? with
  | none => rfl
  | some device =>
    simp only [refreshWatched, Option.map_some]
    split
    · rename_i same
      simp only [Prod.mk.injEq] at same
      rw [if_neg (by rw [same.1]; exact Bool.false_ne_true)]
    · rename_i changed
      simp only [Prod.mk.injEq] at changed
      rw [if_pos changed.1, changed.2]

/-- The same errors are found in any guise. -/
theorem as_checkDevices (same : (w.as g).readings q = w.readings p) :
    (w.as g).checkDevices q = (w.checkDevices p).as g := by
  -- What is read decides everything, and none of it is part of the guise.
  rw [checkDevices_eq, checkDevices_eq, same]
  cases w.readings p with
  | none => rfl
  | some fresh =>
    have watched : (w.as g).watched = w.watched := rfl
    have threshold : (w.as g).settings.alarmThreshold = w.settings.alarmThreshold := rfl
    have streak : (w.as g).errorStreak = w.errorStreak := rfl
    simp only [watched, threshold, streak]
    split_ifs <;> rfl

/-- A look for errors leaves the ports that are watched. -/
theorem readings_checkDevices (w : Worker σ) (p : Plane) :
    (w.checkDevices p).readings p = w.readings p := by
  -- What is watched and where are not changed by looking.
  rw [checkDevices_eq]
  cases found : w.readings p with
  | none => exact found
  | some fresh =>
    dsimp only
    split
    · -- The same ports are read once more.
      rw [readings, Option.map_eq_some_iff] at found
      obtain ⟨device, there, rfl⟩ := found
      simp only [readings, there, Option.map_some, refreshWatched, List.map_map]
      rfl
    · exact found

/-- A worker with the same ends, the same tap and the same packets waiting, that reads the same error
counts, makes the same of the plane. -/
theorem Keeps.stays (keeps : w.Keeps p hand) (input : v.input = w.input) (output : v.output = w.output)
    (capture : v.capture = w.capture) (pending : v.backlog.pending = w.backlog.pending)
    (readings : v.readings p = w.readings p) : v.Keeps p hand ∧ v.view p hand = w.view p hand := by
  -- The view is made of these parts alone.
  have target : v.target? = w.target? := by
    rw [target?, target?, input, output]
  have outgoing : v.outgoing p = w.outgoing p := by
    rw [Worker.outgoing, Worker.outgoing, target]
  have tapped : v.tapped p = w.tapped p := by
    rw [Worker.tapped, Worker.tapped, capture]
  refine ⟨⟨?_, keeps.atRest, ?_⟩, ?_⟩
  · rw [target, input]
    exact keeps.apart
  · rw [outgoing, tapped, pending, input]
    exact keeps.held
  · simp only [view, input, target, outgoing, pending, readings]

/-- A report changes nothing that a worker makes of the plane. -/
theorem Keeps.reports (keeps : w.Keeps p hand) (now : UInt64) :
    let reported := w.reportAt p now
    reported.1.Keeps reported.2 hand ∧ reported.1.view reported.2 hand = w.view p hand := by
  -- A report changes the published metrics, which are not part of the view.
  simp only [reportAt]
  split
  · have same := view_congr w w p { p with metrics := (w.reporter.report w.counters p.metrics).2 }
      hand hand rfl rfl rfl rfl rfl rfl fun _ _ => rfl
    exact ⟨⟨keeps.apart, atRest_congr keeps.atRest rfl rfl rfl, keeps.held⟩, same⟩
  · exact ⟨keeps, rfl⟩

/-- Two workers on two planes, each with packets in its hands, of which the second is the first one in
another guise. Both keep to their own packets and make the same of their planes. -/
structure Mirrors (w : Worker σ) (p : Plane) (hand : List Packet) (w' : Worker σ) (p' : Plane)
    (hand' : List Packet) : Prop where
  insular : w.process.Insular
  guise : ∃ g, w' = w.as g
  keeps : w.Keeps p hand
  keeps' : w'.Keeps p' hand'
  view : w'.view p' hand' = w.view p hand

namespace Mirrors

/-- The clocks show the same. -/
theorem clock (m : Mirrors w p hand w' p' hand') (number : Nat) : p'.clock number = p.clock number := by
  -- Clocks are part of the view.
  rw [Plane.clock, Plane.clock, show p'.clocks = p.clocks from congrArg View.clocks m.view]

/-- The packets that wait look the same. -/
theorem waiting (m : Mirrors w p hand w' p' hand') :
    p'.buffers.looks w'.backlog.pending = p.buffers.looks w.backlog.pending :=
  congrArg View.waiting m.view

/-- The packets in hand look the same. -/
theorem hands (m : Mirrors w p hand w' p' hand') : p'.buffers.looks hand' = p.buffers.looks hand :=
  congrArg View.hand m.view

/-- As many packets wait. -/
theorem length_waiting (m : Mirrors w p hand w' p' hand') :
    w'.backlog.pending.length = w.backlog.pending.length := by
  -- Packets are as many as their looks.
  rw [← Buffers.length_looks, m.waiting, Buffers.length_looks]

/-- As many packets are in hand. -/
theorem length_hand (m : Mirrors w p hand w' p' hand') : hand'.length = hand.length := by
  -- Packets are as many as their looks.
  rw [← Buffers.length_looks p'.buffers, m.hands, Buffers.length_looks]

/-- The outputs are the same. -/
theorem target (m : Mirrors w p hand w' p' hand') : w'.target? = w.target? := by
  -- A guise leaves the ends.
  obtain ⟨g, rfl⟩ := m.guise
  rfl

/-- The inputs are the same. -/
theorem input (m : Mirrors w p hand w' p' hand') : w'.input = w.input := by
  -- A guise leaves the ends.
  obtain ⟨g, rfl⟩ := m.guise
  rfl

/-- The settings are the same. -/
theorem settings (m : Mirrors w p hand w' p' hand') : w'.settings = w.settings := by
  -- A guise leaves the settings.
  obtain ⟨g, rfl⟩ := m.guise
  rfl

/-- Both workers read the same clock, and it shows the same. -/
theorem reading (m : Mirrors w p hand w' p' hand') : p'.clock w'.clock = p.clock w.clock := by
  -- A guise leaves which clock is read.
  obtain ⟨g, rfl⟩ := m.guise
  exact m.clock w.clock

/-- Workers with the same ends, taps and packets waiting take the places of two others. -/
theorem renew (m : Mirrors w p hand w' p' hand') (process : v.process = w.process)
    (guise : ∃ g, v' = v.as g)
    (like : v.Keeps p hand ∧ v.view p hand = w.view p hand)
    (like' : v'.Keeps p' hand' ∧ v'.view p' hand' = w'.view p' hand') :
    Mirrors v p hand v' p' hand' :=
  ⟨process ▸ m.insular, guise, like.1, like'.1, by rw [like.2, like'.2, m.view]⟩

/-- The packets under work may be edited as long as they look the same afterwards. -/
theorem edits (m : Mirrors w p (packet :: rest) w' p' (twin :: rest')) {s s' : Surroundings}
    {edits edits' : List Edit} (edited : s.buffers = p.buffers.performAll packet edits)
    (edited' : s'.buffers = p'.buffers.performAll twin edits') (clocks : s'.clocks = s.clocks)
    (look : s'.buffers.look twin = s.buffers.look packet) :
    Mirrors w { p with toSurroundings := s } (packet :: rest) w' { p' with toSurroundings := s' }
      (twin :: rest') := by
  -- Both views change in the packet under work alone, which looks the same in both.
  obtain ⟨keeps, view⟩ := m.keeps.edits edited
  obtain ⟨keeps', view'⟩ := m.keeps'.edits edited'
  exact ⟨m.insular, m.guise, keeps, keeps', by rw [view, view', m.view, clocks, look]⟩

/-- As many packets may be given back out of both hands. -/
theorem handsBack (gone gone' : List Packet)
    (m : Mirrors w p (gone ++ rest) w' p' (gone' ++ rest')) (same : gone'.length = gone.length) :
    Mirrors w (p.releaseAll gone) rest w' (p'.releaseAll gone') rest' := by
  -- Both views lose as many packets from the hand.
  obtain ⟨keeps, view⟩ := m.keeps.handsBack
  obtain ⟨keeps', view'⟩ := m.keeps'.handsBack
  exact ⟨m.insular, m.guise, keeps, keeps', by rw [view, view', m.view, same]⟩

/-- As many packets may be given back out of both backlogs. -/
theorem givesUp (m : Mirrors w p hand w' p' hand') {kept kept' gone gone' : List Packet}
    (waiting : w.backlog.pending = kept ++ gone) (waiting' : w'.backlog.pending = kept' ++ gone')
    (same : kept'.length = kept.length) (backlog backlog' : Backlog) (left : backlog.pending = kept)
    (left' : backlog'.pending = kept') (like : backlog' = { backlog with pending := kept' }) :
    Mirrors { w with backlog } (p.releaseAll gone) hand { w' with backlog := backlog' }
      (p'.releaseAll gone') hand' := by
  -- Both views lose as many packets that wait, from behind.
  obtain ⟨keeps, view⟩ := m.keeps.givesUp waiting left
  obtain ⟨keeps', view'⟩ := m.keeps'.givesUp waiting' left'
  obtain ⟨g, rfl⟩ := m.guise
  refine ⟨m.insular, ⟨{ g with pending := kept' }, ?_⟩, keeps, keeps', by rw [view, view', m.view, same]⟩
  rw [like]
  rfl

/-- The packets under work may be shown to the taps, and wait for the outputs then. -/
theorem shows (m : Mirrors w p (packet :: rest) w' p' (twin :: rest')) {q q' : Plane}
    (shown : w.capturePacket packet p = (v, q)) (shown' : w'.capturePacket twin p' = (v', q')) :
    (∃ count, v = w.missing count) ∧ (∃ count, v' = w'.missing count) ∧
      Mirrors { v with backlog := { v.backlog with pending := v.backlog.pending ++ [packet] } } q rest
        { v' with backlog := { v'.backlog with pending := v'.backlog.pending ++ [twin] } } q' rest' := by
  -- Whatever either tap makes of it, what shows of the packets stays.
  obtain ⟨⟨count, rfl⟩, waits⟩ := m.keeps.shows shown
  obtain ⟨⟨count', rfl⟩, waits'⟩ := m.keeps'.shows shown'
  obtain ⟨keeps, view⟩ := waits { w.backlog with pending := w.backlog.pending ++ [packet] } rfl
  obtain ⟨keeps', view'⟩ := waits' { w'.backlog with pending := w'.backlog.pending ++ [twin] } rfl
  rw [m.view] at view'
  obtain ⟨g, rfl⟩ := m.guise
  exact ⟨⟨count, rfl⟩, ⟨count', rfl⟩, m.insular,
    ⟨{ g with captureDropped := count', pending := g.pending ++ [twin] }, rfl⟩, keeps, keeps',
    view'.trans view.symm⟩

/-- Processors come to the same decision about packets that look the same, and leave them looking the
same. -/
theorem decides (m : Mirrors w p (packet :: rest) w' p' (twin :: rest')) (context : Context) :
    let decision := w.process context packet w.memory p.toSurroundings
    let other := w'.process context twin w'.memory p'.toSurroundings
    other.verdict = decision.verdict ∧
      Mirrors { w with memory := decision.memory } { p with toSurroundings := decision.surroundings }
        (packet :: rest) { w' with memory := other.memory }
        { p' with toSurroundings := other.surroundings } (twin :: rest') := by
  -- An insular processor sees what both packets show, which is the same.
  have fits := m.keeps.held.fits
  have fits' := m.keeps'.held.fits
  have alone := m.keeps.held.alone List.mem_cons_self
  have alone' := m.keeps'.held.alone List.mem_cons_self
  obtain ⟨edits, edited⟩ := m.insular.edits context packet w.memory p.toSurroundings fits alone
  obtain ⟨edits', edited'⟩ := m.insular.edits context twin w.memory p'.toSurroundings fits' alone'
  have hands := m.hands
  rw [Buffers.looks, Buffers.looks, List.map_cons, List.map_cons, List.cons.injEq] at hands
  have clocks : p'.clocks = p.clocks := congrArg View.clocks m.view
  obtain ⟨verdict, memory, clocks, look⟩ := m.insular.alike context w.memory fits fits' alone alone'
    clocks hands.1
  obtain ⟨g, rfl⟩ := m.guise
  refine ⟨verdict, (m.edits edited edited' clocks look).renew rfl ⟨g, ?_⟩
    (Keeps.stays (m.edits edited edited' clocks look).keeps rfl rfl rfl rfl rfl)
    (Keeps.stays (m.edits edited edited' clocks look).keeps' rfl rfl rfl rfl rfl)⟩
  show ({ w.as g with memory := _ } : Worker σ) = _
  rw [show (w.as g).process context twin (w.as g).memory p'.toSurroundings =
    w.process context twin w.memory p'.toSurroundings from rfl, memory]
  rfl

/-- Processors are told the same. -/
theorem context (m : Mirrors w p hand w' p' hand') (now : UInt64) :
    w'.context p' now = w.context p now := by
  -- What the processor is told is no part of the guise.
  have clock := m.clock w.clock
  obtain ⟨g, rfl⟩ := m.guise
  show (⟨w.id, w.core, now, (p'.clock w.clock).hz, w.clock, w.life⟩ : Context) = _
  rw [clock]
  rfl

/-- Both workers may pull as many packets. -/
theorem allowance (m : Mirrors w p hand w' p' hand') (now : UInt64) :
    (w'.allowance now).1 = (w.allowance now).1 ∧
      Mirrors (w.allowance now).2 p hand (w'.allowance now).2 p' hand' := by
  -- As many packets wait, so the pacers are asked the same.
  have count := m.length_waiting
  have stays : ∀ (w : Worker σ) (p : Plane) (hand : List Packet), w.Keeps p hand →
      (w.allowance now).2.Keeps p hand ∧ (w.allowance now).2.view p hand = w.view p hand := by
    intro w p hand keeps
    rw [Worker.allowance]
    split <;> exact keeps.stays rfl rfl rfl rfl rfl
  have process : (w.allowance now).2.process = w.process :=
    congrArg Fixture.process (w.allowance_leads now p).fixed
  obtain ⟨g, worn⟩ := m.guise
  have granted : w'.allowance now = ((w.allowance now).1, (w.allowance now).2.as g) := by
    rw [worn] at count ⊢
    exact as_allowance count now
  exact ⟨by rw [granted], m.renew process ⟨g, by rw [granted]⟩ (stays w p hand m.keeps)
    (stays w' p' hand' m.keeps')⟩

/-- Tokens are spent the same. -/
theorem spend (m : Mirrors w p hand w' p' hand') (count : Nat) :
    Mirrors (w.spend count) p hand (w'.spend count) p' hand' := by
  -- Tokens are no part of the guise.
  refine m.renew rfl ?_ (m.keeps.stays rfl rfl rfl rfl rfl) (m.keeps'.stays rfl rfl rfl rfl rfl)
  obtain ⟨g, rfl⟩ := m.guise
  exact ⟨g, rfl⟩

/-- Whatever is counted beside the packets that a tap had no room for is counted the same. -/
theorem counts (m : Mirrors w p hand w' p' hand') {counters counters' : Counters}
    (same : counters' = { counters with captureDropped := counters'.captureDropped }) :
    Mirrors { w with counters } p hand { w' with counters := counters' } p' hand' := by
  -- Only the count of packets that a tap had no room for is part of the guise.
  refine m.renew rfl ?_ (m.keeps.stays rfl rfl rfl rfl rfl) (m.keeps'.stays rfl rfl rfl rfl rfl)
  obtain ⟨g, rfl⟩ := m.guise
  exact ⟨{ g with captureDropped := counters'.captureDropped }, by rw [same]; rfl⟩

/-- As many packets may be fetched from both inputs. -/
theorem fetches (m : Mirrors w p [] w' p' []) {q q' : Plane} {packets packets' : List Packet}
    (fetched : p.Fetches q w.input.place packets) (fetched' : p'.Fetches q' w'.input.place packets')
    (gives : p.Gives q) (gives' : p'.Gives q') (same : packets'.length = packets.length) :
    Mirrors w q packets w' q' packets' := by
  -- What fetching does to a view depends on the view and on how many packets came.
  obtain ⟨keeps, view⟩ := m.keeps.fetches fetched gives
  obtain ⟨keeps', view'⟩ := m.keeps'.fetches fetched' gives'
  exact ⟨m.insular, m.guise, keeps, keeps', by rw [view, view', m.view, same]⟩

/-- As many packets wait on the inputs. -/
theorem length_supply (m : Mirrors w p hand w' p' hand') :
    (p'.contents w'.input.place).length = (p.contents w.input.place).length := by
  -- Packets are as many as their looks.
  have supply : p'.buffers.looks (p'.contents w'.input.place) =
      p.buffers.looks (p.contents w.input.place) := congrArg View.supply m.view
  rw [← Buffers.length_looks p'.buffers, supply, Buffers.length_looks]

/-- Both workers pull as many packets. -/
theorem pulls (m : Mirrors w p [] w' p' []) (want : Nat) :
    Mirrors w (w.pull p want).2 (w.pull p want).1 w' (w'.pull p' want).2 (w'.pull p' want).1 := by
  -- How many come is decided by whether the input listens and by how many wait, which both views
  -- show.
  have listens : p'.listens w'.input = p.listens w.input := congrArg View.listens m.view
  refine m.fetches (w.pull_fetches p want) (w'.pull_fetches p' want) (w.pull_gives p want)
    (w'.pull_gives p' want) ?_
  rw [length_pull w' m.keeps'.atRest, length_pull w m.keeps.atRest, listens, m.length_supply]

/-- Both outputs accept as many of the packets that wait, and they look the same. -/
theorem offers (m : Mirrors w p hand w' p' hand') {target : Target} (output : w.target? = some target) :
    ∃ outcome q q' left left',
      w.backlog.tryFlush target.sender p = (outcome, { w.backlog with pending := left }, q) ∧
      w'.backlog.tryFlush target.sender p' = (outcome, { w'.backlog with pending := left' }, q') ∧
      (w'.backlog.pending.take outcome.sent).map p'.buffers.capture =
        (w.backlog.pending.take outcome.sent).map p.buffers.capture ∧
      Mirrors { w with backlog := { w.backlog with pending := left } } q hand
        { w' with backlog := { w'.backlog with pending := left' } } q' hand' := by
  -- What an output accepts is read off the view. What is left and what was sent are parts of two
  -- lists that look the same.
  obtain ⟨q, tried, after⟩ := m.keeps.offers output
  obtain ⟨q', tried', after'⟩ := m.keeps'.offers (m.target.trans output)
  obtain ⟨keeps, view⟩ := after { w.backlog with pending := _ } rfl
  obtain ⟨keeps', view'⟩ := after' { w'.backlog with pending := _ } rfl
  rw [m.view] at tried' keeps' view'
  have looks : p'.buffers.looks (w'.backlog.pending.take (w.view p hand).accepts) =
      p.buffers.looks (w.backlog.pending.take (w.view p hand).accepts) := by
    rw [Buffers.looks_take, Buffers.looks_take, m.waiting]
  rw [m.length_waiting, Buffers.totalLen_looks looks] at tried'
  obtain ⟨g, rfl⟩ := m.guise
  exact ⟨_, q, q', _, _, tried, tried', Buffers.capture_looks looks,
    m.insular, ⟨{ g with pending := _ }, rfl⟩, keeps, keeps', by rw [view, view']; rfl⟩

/-- Backlogs in which as many packets wait are empty together. -/
theorem isEmpty (m : Mirrors w p hand w' p' hand') : w'.backlog.isEmpty = w.backlog.isEmpty := by
  -- A list is empty when it has no length.
  have count := m.length_waiting
  rw [Backlog.isEmpty, Backlog.isEmpty, Bool.eq_iff_iff, List.isEmpty_iff, List.isEmpty_iff,
    ← List.length_eq_zero_iff, count, List.length_eq_zero_iff]

/-- Other backlogs with the same packets waiting take the places of two. -/
theorem rewait (m : Mirrors w p hand w' p' hand') {backlog backlog' : Backlog}
    (same : backlog.pending = w.backlog.pending) (same' : backlog'.pending = w'.backlog.pending)
    (like : backlog' = { backlog with pending := w'.backlog.pending }) :
    Mirrors { w with backlog } p hand { w' with backlog := backlog' } p' hand' := by
  -- Nothing of the view is touched, and the guise takes whatever else the backlog holds.
  refine m.renew rfl ?_ (m.keeps.stays rfl rfl rfl same rfl) (m.keeps'.stays rfl rfl rfl same' rfl)
  obtain ⟨g, rfl⟩ := m.guise
  exact ⟨g, by rw [like]; rfl⟩

/-- Everything that waits may be given back. -/
theorem empties (m : Mirrors w p hand w' p' hand') {backlog backlog' : Backlog}
    (none : backlog.pending = []) (like : backlog' = backlog) :
    Mirrors { w with backlog } (p.releaseAll w.backlog.pending) hand { w' with backlog := backlog' }
      (p'.releaseAll w'.backlog.pending) hand' := by
  -- Giving up all that waits is giving up a suffix of it, with nothing in front.
  have all : w.backlog.pending = [] ++ w.backlog.pending := rfl
  have all' : w'.backlog.pending = [] ++ w'.backlog.pending := rfl
  refine m.givesUp all all' rfl backlog backlog' none (by rw [like, none]) ?_
  rw [like, ← none]

/-- Both workers empty their backlogs to the same effect. -/
theorem flush (m : Mirrors w p hand w' p' hand') {target : Target} (output : w.target? = some target) :
    let flushed := w.backlog.flush target.sender p
    let flushed' := w'.backlog.flush target.sender p'
    flushed'.1 = flushed.1 ∧ Mirrors { w with backlog := flushed.2.1 } flushed.2.2 hand
      { w' with backlog := flushed'.2.1 } flushed'.2.2 hand' := by
  -- After the attempt both backlogs are empty or not together, and both give up or not together.
  obtain ⟨outcome, q, q', left, left', tried, tried', -, after⟩ := m.offers output
  obtain ⟨g, rfl⟩ := m.guise
  have empty : ({ (w.as g).backlog with pending := left' } : Backlog).isEmpty =
      ({ w.backlog with pending := left } : Backlog).isEmpty := after.isEmpty
  have policy : ({ (w.as g).backlog with pending := left' } : Backlog).giveUp =
      ({ w.backlog with pending := left } : Backlog).giveUp := rfl
  have count : left'.length = left.length := after.length_waiting
  simp only [Backlog.flush, tried, tried', empty, policy]
  by_cases none : ({ w.backlog with pending := left } : Backlog).isEmpty = true
  · simp only [none, if_true, true_and]
    exact after.rewait rfl rfl rfl
  · simp only [none, if_false, Bool.false_eq_true]
    by_cases up : ({ w.backlog with pending := left } : Backlog).giveUp.1 = true
    · simp only [up, if_true, Backlog.dropPending, Backlog.len, count, true_and]
      exact after.empties rfl rfl
    · simp only [up, if_false, Bool.false_eq_true, true_and]
      exact after.rewait rfl rfl rfl

/-- What became of packets is counted the same. -/
theorem recordOutcome (m : Mirrors w p hand w' p' hand') (outcome : Outcome) :
    Mirrors (w.recordOutcome outcome) p hand (w'.recordOutcome outcome) p' hand' := by
  -- The view has no counters, and counting is the same in any guise.
  refine m.renew rfl ?_ (m.keeps.stays rfl rfl rfl rfl rfl) (m.keeps'.stays rfl rfl rfl rfl rfl)
  obtain ⟨g, rfl⟩ := m.guise
  exact ⟨g, as_recordOutcome w g outcome⟩

/-- Without an output, everything that waits is given back to the same effect. -/
theorem discard (m : Mirrors w p hand w' p' hand') :
    let discarded := w.backlog.discard p
    let discarded' := w'.backlog.discard p'
    discarded'.1 = discarded.1 ∧ Mirrors { w with backlog := discarded.2.1 } discarded.2.2 hand
      { w' with backlog := discarded'.2.1 } discarded'.2.2 hand' := by
  -- As many packets of the same length wait.
  simp only [Backlog.discard, Backlog.len, m.length_waiting, Buffers.totalLen_looks m.waiting, true_and]
  obtain ⟨g, rfl⟩ := m.guise
  exact m.empties rfl rfl

/-- Everything that waits is dropped to the same effect. -/
theorem dropPending (m : Mirrors w p hand w' p' hand') :
    let dropped := w.backlog.dropPending p
    let dropped' := w'.backlog.dropPending p'
    dropped'.1 = dropped.1 ∧ Mirrors { w with backlog := dropped.2.1 } dropped.2.2 hand
      { w' with backlog := dropped'.2.1 } dropped'.2.2 hand' := by
  -- As many packets wait.
  simp only [Backlog.dropPending, Backlog.len, m.length_waiting, true_and]
  obtain ⟨g, rfl⟩ := m.guise
  exact m.empties rfl rfl

/-- What waits at the end of a turn is pushed out to the same effect. -/
theorem push (m : Mirrors w p hand w' p' hand') :
    Mirrors (w.push p).1 (w.push p).2 hand (w'.push p').1 (w'.push p').2 hand' := by
  -- The outcomes agree, with an output or without, so the counts do.
  simp only [Worker.push, m.target]
  cases output : w.target? with
  | none =>
    obtain ⟨same, after⟩ := m.discard
    simp only [same]
    exact after.recordOutcome _
  | some target =>
    obtain ⟨same, after⟩ := m.flush output
    simp only [same]
    exact after.recordOutcome _

/-- An attempt to push out what waits has the same effect. -/
theorem attempt (m : Mirrors w p hand w' p' hand') :
    Mirrors (w.attempt p).1 (w.attempt p).2 hand (w'.attempt p').1 (w'.attempt p').2 hand' := by
  -- As for a whole flush, with the one attempt alone.
  simp only [Worker.attempt, m.target]
  cases output : w.target? with
  | none =>
    obtain ⟨same, after⟩ := m.discard
    simp only [same]
    exact after.recordOutcome _
  | some target =>
    obtain ⟨outcome, q, q', left, left', tried, tried', -, after⟩ := m.offers output
    simp only [tried, tried']
    exact after.recordOutcome _

/-- What became of a burst is counted the same. -/
theorem recordTally (m : Mirrors w p hand w' p' hand') (tally : Tally) :
    Mirrors (w.recordTally tally) p hand (w'.recordTally tally) p' hand' := by
  -- Only counters change, by the same numbers.
  have stays : ∀ (w : Worker σ) (p : Plane) (hand : List Packet), w.Keeps p hand →
      (w.recordTally tally).Keeps p hand ∧ (w.recordTally tally).view p hand = w.view p hand := by
    intro w p hand keeps
    rw [recordTally_eq]
    exact keeps.stays rfl rfl rfl rfl rfl
  refine m.renew (by rw [recordTally_eq]) ?_ (stays w p hand m.keeps) (stays w' p' hand' m.keeps')
  obtain ⟨g, rfl⟩ := m.guise
  exact ⟨g, as_recordTally w g tally⟩

/-- The same errors are found. -/
theorem checkDevices (m : Mirrors w p hand w' p' hand') :
    Mirrors (w.checkDevices p) p hand (w'.checkDevices p') p' hand' := by
  -- The errors that are read are part of the view. What is done about them touches counters and
  -- alarms alone.
  have stays : ∀ (w : Worker σ) (p : Plane) (hand : List Packet), w.Keeps p hand →
      (w.checkDevices p).Keeps p hand ∧ (w.checkDevices p).view p hand = w.view p hand := by
    intro w p hand keeps
    have ends : (w.checkDevices p).input = w.input ∧ (w.checkDevices p).output = w.output ∧
        (w.checkDevices p).capture = w.capture := by
      rw [checkDevices_eq]
      split
      · exact ⟨rfl, rfl, rfl⟩
      · split <;> exact ⟨rfl, rfl, rfl⟩
    exact keeps.stays ends.1 ends.2.1 ends.2.2 (congrArg Backlog.pending (w.backlog_checkDevices p))
      (w.readings_checkDevices p)
  have errors : w'.readings p' = w.readings p := congrArg View.errors m.view
  have process := congrArg Fixture.process (w.checkDevices_leads p).fixed
  refine m.renew process ?_ (stays w p hand m.keeps) (stays w' p' hand' m.keeps')
  obtain ⟨g, rfl⟩ := m.guise
  exact ⟨g, as_checkDevices errors⟩

/-- Reports are due at the same time. -/
theorem reportAt (m : Mirrors w p hand w' p' hand') (now : UInt64) :
    Mirrors (w.reportAt p now).1 (w.reportAt p now).2 hand (w'.reportAt p' now).1
      (w'.reportAt p' now).2 hand' := by
  -- When the next report is due is no part of the guise. The reporter is, as it was told other
  -- counts.
  obtain ⟨keeps, view⟩ := m.keeps.reports now
  obtain ⟨keeps', view'⟩ := m.keeps'.reports now
  have process : (w.reportAt p now).1.process = w.process :=
    congrArg Fixture.process (w.reportAt_leads p now).fixed
  refine ⟨process ▸ m.insular, ?_, keeps, keeps', by rw [view, view', m.view]⟩
  obtain ⟨g, rfl⟩ := m.guise
  have due : (w.as g).nextReport = w.nextReport := rfl
  simp only [Worker.reportAt, due]
  split
  · let reported := g.reporter.report (w.as g).counters p'.metrics
    exact ⟨{ g with reporter := reported.1 }, rfl⟩
  · exact ⟨g, rfl⟩

end Mirrors

end Worker

end PacketPlane
