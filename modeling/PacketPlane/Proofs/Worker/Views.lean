import PacketPlane.Proofs.Buffer.Keeping
import PacketPlane.Proofs.Plane.Room
import PacketPlane.Proofs.Worker.Amid

/-! Views: what a worker makes of the plane around it, and what each of its moves changes about that. -/

namespace PacketPlane

/-- What a worker makes of the plane around it: the clocks, whether its input hands out packets, how many
its output is ready to accept and whether offering some is an error, the error counts that it watches,
and what can be seen of the packets on its output, in its backlog, in its hands and on its input. -/
@[ext]
structure View where
  clocks : Array Clock
  listens : Bool
  room : Option Nat
  severed : Option Bool
  errors : Option (List (UInt16 × UInt64))
  output : List Look
  waiting : List Look
  hand : List Look
  supply : List Look

/-- A view in which time has passed, and packets were processed or given back. -/
def View.turned (v : View) (clocks : Array Clock) (waiting hand : List Look) : View :=
  -- Nothing was pulled and nothing was handed to the output.
  { v with clocks, waiting, hand }

/-- How many of the packets that wait the output accepts. -/
def View.accepts (v : View) : Nat :=
  -- Without an output, there is no room.
  min v.waiting.length (v.room.getD 0)

/-- A view after what waits was handed to the output, which may have an error to report. -/
def View.offered (v : View) (blame : List (UInt16 × UInt64) → List (UInt16 × UInt64)) : View :=
  -- The first packets go, and the others go on waiting.
  { v with
    room := v.room.map (· - v.accepts)
    errors := if 0 < v.waiting.length ∧ v.severed = some true then v.errors.map blame else v.errors
    output := v.output ++ v.waiting.take v.accepts
    waiting := v.waiting.drop v.accepts }

/-- A view after a number of packets was pulled. -/
def View.fetched (v : View) (count : Nat) : View :=
  -- They are the first ones on the input.
  { v with hand := v.supply.take count, supply := v.supply.drop count }

/-- What others change about a view: the clocks, the state of the ends and the error counts are new, and
packets are taken off the front of the output and of the input, and others are put behind them. -/
structure View.Change where
  clocks : Array Clock
  listens : Bool
  room : Option Nat
  severed : Option Bool
  errors : Option (List (UInt16 × UInt64))
  collected : Nat
  joined : List Look
  withdrawn : Nat
  supplied : List Look

/-- A view after others were at work. -/
def View.after (v : View) (c : View.Change) : View where
  -- What waits and what is in hand is nobody else's business.
  clocks := c.clocks
  listens := c.listens
  room := c.room
  severed := c.severed
  errors := c.errors
  output := v.output.drop c.collected ++ c.joined
  waiting := v.waiting
  hand := v.hand
  supply := v.supply.drop c.withdrawn ++ c.supplied

namespace Worker

variable {σ : Type}

/-- A worker that counts another number of packets that its tap had no room for. -/
def missing (w : Worker σ) (captureDropped : UInt64) : Worker σ :=
  { w with counters := { w.counters with captureDropped } }

/-- The packets on a worker's output, if it has one. -/
def outgoing (w : Worker σ) (p : Plane) : List Packet :=
  (w.target?.map fun target => p.contents target.place).getD []

/-- The packets on a worker's tap, if it has one. -/
def tapped (w : Worker σ) (p : Plane) : List Packet :=
  (w.capture.map fun number => p.contents (.tap number)).getD []

/-- The error counts that a worker watches, read again. -/
def readings (w : Worker σ) (p : Plane) : Option (List (UInt16 × UInt64)) :=
  -- A worker whose device is not there reads nothing.
  (w.watch.bind p.device?).map fun device => (refreshWatched device w.watched).2

/-- What a worker makes of a plane, with some packets in its hands. -/
def view (w : Worker σ) (p : Plane) (hand : List Packet) : View where
  clocks := p.clocks
  listens := p.listens w.input
  room := w.target?.map p.room
  severed := w.target?.map p.severed
  errors := w.readings p
  output := p.buffers.looks (w.outgoing p)
  waiting := p.buffers.looks w.backlog.pending
  hand := p.buffers.looks hand
  supply := p.buffers.looks (p.contents w.input.place)

/-- A worker whose output does not feed its input, and who holds all packets around it, those in its hands
and on its input alone. -/
structure Keeps (w : Worker σ) (p : Plane) (hand : List Packet) : Prop where
  apart : w.target?.map Target.place ≠ some w.input.place
  atRest : p.AtRest
  held : p.buffers.Keeps (w.outgoing p ++ (w.tapped p ++ w.backlog.pending))
    (hand ++ p.contents w.input.place)

variable {w w' : Worker σ} {p p' : Plane} {packet : Packet} {hand rest packets : List Packet}

/-- No input is a tap. -/
theorem input_ne_tap (w : Worker σ) (number : Nat) : w.input.place ≠ .tap number := by
  -- An input is a port or a ring.
  cases w.input <;> exact Place.noConfusion

/-- The packets on a worker's output stay there when rings and devices stay. -/
theorem outgoing_congr (rings : p'.rings = p.rings) (devices : p'.devices = p.devices) :
    w.outgoing p' = w.outgoing p := by
  -- An output is no tap either, so rings and devices have all of it.
  rw [outgoing, outgoing]
  cases w.target? with
  | none => rfl
  | some target => exact Plane.contents_congr rings devices (Flow.target_ne_tap target)

/-- The error counts stay when the devices do. -/
theorem readings_congr (devices : p'.devices = p.devices) : w.readings p' = w.readings p := by
  -- A reading is of a device.
  have same : p'.device? = p.device? := by
    funext number
    rw [Plane.device?, Plane.device?, devices]
  rw [readings, readings, same]

/-- A worker that moves no packet on any ring makes the same of the plane, but for the clocks and what it
can see of the packets that wait and of those in its hands. -/
theorem view_congr (w w' : Worker σ) (p p' : Plane) (hand hand' : List Packet)
    (input : w'.input = w.input) (output : w'.output = w.output) (watch : w'.watch = w.watch)
    (watched : w'.watched = w.watched) (rings : p'.rings = p.rings) (devices : p'.devices = p.devices)
    (seen : ∀ packet ∈ w.outgoing p ++ p.contents w.input.place,
      p'.buffers.look packet = p.buffers.look packet) :
    w'.view p' hand' = (w.view p hand).turned p'.clocks (p'.buffers.looks w'.backlog.pending)
      (p'.buffers.looks hand') := by
  -- Part by part. What is told about the ends lies in rings and devices, what is seen of the packets
  -- there is given.
  have like := Plane.Gives.congr rings devices
  have target : w'.target? = w.target? := by
    rw [target?, target?, input, output]
  have supply : p'.contents w.input.place = p.contents w.input.place :=
    Plane.contents_congr rings devices w.input_ne_tap
  have outgoing : w'.outgoing p' = w.outgoing p := by
    rw [← outgoing_congr rings devices, Worker.outgoing, Worker.outgoing, target]
  have readings : w'.readings p' = w.readings p := by
    rw [← readings_congr devices, Worker.readings, Worker.readings, watch, watched]
  -- With the ends known to agree, the parts are compared.
  rw [view, input, target, like.listens, outgoing, supply, readings]
  apply View.ext
  · rfl
  · rfl
  · show w.target?.map p'.room = w.target?.map p.room
    cases w.target? with
    | none => rfl
    | some target =>
      exact congrArg some (like.room_congr
        (Plane.contents_congr rings devices (Flow.target_ne_tap target)))
  · show w.target?.map p'.severed = w.target?.map p.severed
    cases w.target? with
    | none => rfl
    | some target => exact congrArg some (like.severed target)
  · rfl
  · exact Buffers.looks_congr fun packet member => seen packet (List.mem_append_left _ member)
  · rfl
  · rfl
  · exact Buffers.looks_congr fun packet member => seen packet (List.mem_append_right _ member)

/-- Planes with the same rings and devices are at rest together. -/
theorem atRest_congr (atRest : p.AtRest) (rings : p'.rings = p.rings)
    (devices : p'.devices = p.devices) (taps : p'.taps = p.taps) : p'.AtRest :=
  -- The same rings hold the same contents.
  ((Plane.SameRings.congr rings devices taps).contents atRest).1

/-- Packets in hand may be given back, front first: nothing else shows it. -/
theorem Keeps.handsBack {gone : List Packet} (keeps : w.Keeps p (gone ++ rest)) :
    let v := w.view p (gone ++ rest)
    w.Keeps (p.releaseAll gone) rest ∧
      w.view (p.releaseAll gone) rest = v.turned v.clocks v.waiting (v.hand.drop gone.length) := by
  -- Those given back join the ones whose looks do not matter. The rest is held as before, so its
  -- looks stay.
  have held := keeps.held
  rw [List.append_assoc] at held
  generalize shared : w.outgoing p ++ (w.tapped p ++ w.backlog.pending) = others at held
  have moved : p.buffers.Keeps (gone ++ others) (rest ++ p.contents w.input.place) := by
    apply held.mono
    · rw [← List.append_assoc others]
      exact (List.perm_append_comm.append_right _).subperm
    · exact List.subset_append_right gone _
  obtain ⟨left, seen⟩ := moved.releasedAll
  rw [← shared] at seen left
  refine ⟨⟨keeps.apart, atRest_congr keeps.atRest rfl rfl rfl, left⟩, ?_⟩
  have waiting : (p.releaseAll gone).buffers.looks w.backlog.pending =
      p.buffers.looks w.backlog.pending :=
    Buffers.looks_congr fun packet member => seen packet (by simp [member])
  have hand : (p.releaseAll gone).buffers.looks rest = (p.buffers.looks (gone ++ rest)).drop gone.length := by
    rw [Buffers.looks_append, List.drop_left' (p.buffers.length_looks gone)]
    exact Buffers.looks_congr fun packet member => seen packet (by simp [member])
  rw [view_congr w w p (p.releaseAll gone) (gone ++ rest) rest rfl rfl rfl rfl rfl rfl
    fun packet member => seen packet (by grind), waiting, hand]
  rfl

/-- The packet under work may be edited: the others do not show it. -/
theorem Keeps.edits (keeps : w.Keeps p (packet :: rest)) {s : Surroundings} {edits : List Edit}
    (edited : s.buffers = p.buffers.performAll packet edits) :
    let v := w.view p (packet :: rest)
    let q : Plane := { p with toSurroundings := s }
    w.Keeps q (packet :: rest) ∧
      w.view q (packet :: rest) =
        v.turned s.clocks v.waiting (s.buffers.look packet :: v.hand.tail) := by
  -- The packet under work is held by the worker alone, so no other packet shows the edit.
  intro v q
  have held : p.buffers.Keeps (w.outgoing p ++ (w.tapped p ++ w.backlog.pending))
    (packet :: (rest ++ p.contents w.input.place)) := keeps.held
  obtain ⟨held, seen⟩ := held.edited edits
  rw [← edited] at held seen
  refine ⟨⟨keeps.apart, atRest_congr keeps.atRest rfl rfl rfl, held⟩, ?_⟩
  have waiting : s.buffers.looks w.backlog.pending = p.buffers.looks w.backlog.pending :=
    Buffers.looks_congr fun other member => seen other (by simp [member])
  have hand : s.buffers.looks rest = p.buffers.looks rest :=
    Buffers.looks_congr fun other member => seen other (by simp [member])
  rw [view_congr w w p q (packet :: rest) (packet :: rest) rfl rfl rfl rfl rfl rfl
    fun other member => seen other (by grind)]
  show v.turned s.clocks (s.buffers.looks w.backlog.pending)
    (s.buffers.look packet :: s.buffers.looks rest) = _
  rw [waiting, hand]
  rfl

/-- Packets at the end of a backlog may be given back: nothing else shows it. -/
theorem Keeps.givesUp (keeps : w.Keeps p hand) {kept gone : List Packet}
    (waiting : w.backlog.pending = kept ++ gone) {backlog : Backlog} (left : backlog.pending = kept) :
    let v := w.view p hand
    ({ w with backlog } : Worker σ).Keeps (p.releaseAll gone) hand ∧
      ({ w with backlog } : Worker σ).view (p.releaseAll gone) hand =
        v.turned v.clocks (v.waiting.take kept.length) v.hand := by
  -- The same packets in another order: those given up in front, where they are released.
  have held := keeps.held
  rw [waiting] at held
  generalize own : hand ++ p.contents w.input.place = mine at held
  have moved : p.buffers.Keeps (gone ++ (w.outgoing p ++ (w.tapped p ++ kept))) mine := by
    refine held.mono (List.Perm.subperm ?_) (List.Subset.refl _)
    rw [List.perm_iff_count]
    intro other
    simp only [List.count_append]
    omega
  obtain ⟨owned, seen⟩ := moved.releasedAll
  rw [← left] at owned
  refine ⟨⟨keeps.apart, atRest_congr keeps.atRest rfl rfl rfl, own ▸ owned⟩, ?_⟩
  have first : (p.releaseAll gone).buffers.looks kept =
      (p.buffers.looks w.backlog.pending).take kept.length := by
    rw [waiting, Buffers.looks_append, List.take_left' (p.buffers.length_looks kept)]
    exact Buffers.looks_congr fun packet member => seen packet (by simp [member])
  have same : (p.releaseAll gone).buffers.looks hand = p.buffers.looks hand :=
    Buffers.looks_congr fun packet member => seen packet (by simp [← own, member])
  rw [view_congr w { w with backlog } p (p.releaseAll gone) hand hand rfl rfl rfl rfl rfl rfl
    fun packet member => seen packet (by grind), same]
  show (w.view p hand).turned _ ((p.releaseAll gone).buffers.looks backlog.pending) _ = _
  rw [left, first]
  rfl

/-- A packet shown to a tap is on the tap afterwards and shared with it, or left as it was. -/
theorem tapPacket_shares (atRest : p.AtRest) (held : 0 < p.buffers.refcount packet) (number : Nat) :
    let q := (p.tapPacket number packet).2
    q.clocks = p.clocks ∧ q.AtRest ∧ ∃ more, q.contents (.tap number) = p.contents (.tap number) ++ more ∧
      ((more = [] ∧ q.buffers = p.buffers) ∨
        (more = [packet] ∧ q.buffers = p.buffers.addRef packet)) := by
  rw [Plane.tapPacket]
  cases found : p.tap? number with
  | none => exact ⟨rfl, atRest, [], (List.append_nil _).symm, .inl ⟨rfl, rfl⟩⟩
  | some tap =>
    have here : p.ringAt? (.tap number) = some tap.ring := by simp [Plane.ringAt?, found]
    cases put : tap.ring.enqueue packet with
    | ok ring =>
      have replaced := Plane.setTap_replaces found { tap with ring, tapped := tap.tapped + 1 }
      obtain ⟨items, waiting⟩ := atRest _ _ here
      obtain ⟨still, after, -⟩ := replaced.contents (waiting.enqueue_holds put) atRest
      simp only [Tap.tap, put]
      refine ⟨rfl, atRest_congr still rfl rfl rfl, [packet], ?_, .inr ⟨rfl, trivial⟩⟩
      rw [Plane.contents_eq here waiting]
      exact after
    | error refused =>
      -- The reference is given back at once, and the ring stays as it was.
      obtain rfl := Ring.enqueue_error put
      have replaced := Plane.setTap_replaces found { tap with dropped := tap.dropped + 1 }
      obtain ⟨still, same⟩ := (replaced.same here).contents atRest
      simp only [Tap.tap, put, Buffers.release_addRef held]
      refine ⟨rfl, atRest_congr still rfl rfl rfl, [], ?_, .inl ⟨rfl, trivial⟩⟩
      rw [List.append_nil]
      exact same _

/-- A packet shown to a worker's tap may be held by the tap as well, and nothing else changes. -/
theorem capturePacket_shares (shown : w.capturePacket packet p = (w', p')) (atRest : p.AtRest)
    (held : 0 < p.buffers.refcount packet) :
    (∃ count, w' = w.missing count) ∧
      p'.rings = p.rings ∧ p'.devices = p.devices ∧ p'.clocks = p.clocks ∧ p'.AtRest ∧
      ∃ more, w'.tapped p' = w.tapped p ++ more ∧
        ((more = [] ∧ p'.buffers = p.buffers) ∨
          (more = [packet] ∧ p'.buffers = p.buffers.addRef packet)) := by
  -- Without a tap nothing is held. With one, the tap takes a reference to the packet or misses it.
  rw [capturePacket] at shown
  split at shown
  · simp only [Prod.mk.injEq] at shown
    obtain ⟨rfl, rfl⟩ := shown
    exact ⟨⟨w.counters.captureDropped, rfl⟩, rfl, rfl, rfl, atRest, [], (List.append_nil _).symm,
      .inl ⟨rfl, rfl⟩⟩
  · rename_i number watched
    obtain ⟨clocks, still, more, tapped, shares⟩ := tapPacket_shares atRest held number
    obtain ⟨rings, devices⟩ := p.tapPacket_apart number packet
    have outcome : (∃ count, w' = w.missing count) ∧ p' = (p.tapPacket number packet).2 := by
      split at shown
      all_goals
        rename_i told
        simp only [Prod.mk.injEq] at shown
        obtain ⟨rfl, rfl⟩ := shown
        rw [told]
      · exact ⟨⟨w.counters.captureDropped, rfl⟩, rfl⟩
      · exact ⟨⟨w.counters.captureDropped + 1, rfl⟩, rfl⟩
    obtain ⟨⟨count, rfl⟩, rfl⟩ := outcome
    have same : ∀ q : Plane, (w.missing count).tapped q = q.contents (.tap number) := by
      intro q
      have watched : (w.missing count).capture = some number := watched
      rw [Worker.tapped, watched]
      rfl
    have before : w.tapped p = p.contents (.tap number) := same p
    refine ⟨⟨count, rfl⟩, rings, devices, clocks, still, more, ?_, shares⟩
    rw [same, before]
    exact tapped

/-- The packet under work may be shown to the tap and then wait for the output: the others do not show
it. -/
theorem Keeps.shows (keeps : w.Keeps p (packet :: rest))
    (shown : w.capturePacket packet p = (w', p')) :
    (∃ count, w' = w.missing count) ∧
      ∀ backlog : Backlog, backlog.pending = w.backlog.pending ++ [packet] →
        let v := w.view p (packet :: rest)
        ({ w' with backlog } : Worker σ).Keeps p' rest ∧
          ({ w' with backlog } : Worker σ).view p' rest =
            v.turned v.clocks (v.waiting ++ v.hand.take 1) v.hand.tail := by
  -- The packet moves from the hand to the backlog. When the tap holds it too, it waits among those
  -- that may be shared.
  have held : p.buffers.Keeps (w.outgoing p ++ (w.tapped p ++ w.backlog.pending))
    (packet :: (rest ++ p.contents w.input.place)) := keeps.held
  have once : 0 < p.buffers.refcount packet := by
    rw [held.alone List.mem_cons_self]
    exact Nat.one_pos
  obtain ⟨⟨missed, rfl⟩, rings, devices, clocks, still, more, tapped, shares⟩ :=
    capturePacket_shares shown keeps.atRest once
  refine ⟨⟨missed, rfl⟩, ?_⟩
  intro backlog waits
  generalize own : rest ++ p.contents w.input.place = mine at held
  have after : p'.buffers.Keeps (w.outgoing p ++ ((w.tapped p ++ more) ++ (w.backlog.pending ++ [packet])))
      mine ∧ ∀ other ∈ w.outgoing p ++ (w.backlog.pending ++ [packet]) ++ mine,
        p'.buffers.look other = p.buffers.look other := by
    -- A tap that missed the packet leaves it the worker's alone. One that holds it shares it.
    rcases shares with ⟨rfl, same⟩ | ⟨rfl, same⟩
    · rw [same]
      refine ⟨held.mono (List.Perm.subperm ?_) (List.subset_cons_self _ _), fun _ _ => rfl⟩
      rw [List.perm_iff_count]
      intro other
      simp only [List.count_append, List.count_cons, List.count_nil]
      omega
    · rw [same]
      obtain ⟨shared, seen⟩ := held.cloned
      refine ⟨shared.mono (List.Perm.subperm ?_) (List.Subset.refl _), fun other member => ?_⟩
      · rw [List.perm_iff_count]
        intro other
        simp only [List.count_append, List.count_cons, List.count_nil]
        omega
      · exact seen other (by grind)
  obtain ⟨owned, seen⟩ := after
  have supply : p'.contents w.input.place = p.contents w.input.place :=
    Plane.contents_congr rings devices w.input_ne_tap
  have outgoing : w.outgoing p' = w.outgoing p := outgoing_congr rings devices
  refine ⟨⟨keeps.apart, still, ?_⟩, ?_⟩
  · rw [← own, ← tapped, ← waits, ← outgoing, ← supply] at owned
    exact owned
  · rw [← own] at seen
    have waiting : p'.buffers.looks (w.backlog.pending ++ [packet]) =
        p.buffers.looks (w.backlog.pending ++ [packet]) :=
      Buffers.looks_congr fun other member => seen other (by grind)
    have hand : p'.buffers.looks rest = p.buffers.looks rest :=
      Buffers.looks_congr fun other member => seen other (by grind)
    rw [view_congr w { w.missing missed with backlog } p p' (packet :: rest) rest rfl rfl rfl rfl rings
      devices fun other member => seen other (by grind), clocks, hand]
    show (w.view p (packet :: rest)).turned _ (p'.buffers.looks backlog.pending) _ = _
    rw [waits, waiting, Buffers.looks_append]
    rfl

/-- A drain of the tap moves its first packets out and gives them back: nothing else shows it. -/
theorem Keeps.drains (keeps : w.Keeps p hand) {number : Nat} (watched : w.capture = some number)
    {ρ : Type} (write : SinkWrite ρ) (sink : ρ) (limit : Nat) :
    let q := (p.drainTap number write sink limit).2.1
    w.Keeps q hand ∧ w.view q hand = w.view p hand := by
  -- The drained packets are the first of the tap's own, and their release shows on none of the
  -- others.
  simp only [Plane.drainTap]
  cases found : p.tap? number with
  | none => exact ⟨keeps, rfl⟩
  | some tap =>
    have drained : (tap.drainInto p.buffers write sink limit).2.1 =
          { tap with ring := (tap.ring.dequeueBulk limit).ring } ∧
        (tap.drainInto p.buffers write sink limit).2.2.1 =
          p.buffers.releaseAll (tap.ring.dequeueBulk limit).items := by
      simp only [Tap.drainInto]
      split <;> exact ⟨rfl, rfl⟩
    have here : p.ringAt? (.tap number) = some tap.ring := by simp [Plane.ringAt?, found]
    have pulls := Plane.Pulls.of_replaces
      (Plane.setTap_replaces found { tap with ring := (tap.ring.dequeueBulk limit).ring }) rfl here
      (Plane.removed_dequeueBulk tap.ring limit)
    obtain ⟨still, split, -⟩ := pulls.places keeps.atRest
    simp only [drained]
    generalize (tap.ring.dequeueBulk limit).items = gone at split ⊢
    have kept : ∀ tap : Tap, (p.setTap number tap).rings = p.rings ∧
        (p.setTap number tap).devices = p.devices ∧ (p.setTap number tap).clocks = p.clocks :=
      fun _ => ⟨rfl, rfl, rfl⟩
    obtain ⟨rings, devices, clocks⟩ := kept { tap with ring := (tap.ring.dequeueBulk limit).ring }
    generalize p.setTap number _ = r at *
    -- The tap's packets are split into those that go and those that stay.
    have held : p.buffers.Keeps (gone ++ (w.outgoing p ++ (r.contents (.tap number) ++ w.backlog.pending)))
        (hand ++ p.contents w.input.place) := by
      refine keeps.held.mono (List.Perm.subperm ?_) (List.Subset.refl _)
      rw [Worker.tapped, watched, Option.map_some, Option.getD_some, split, List.perm_iff_count]
      intro other
      simp only [List.count_append]
      omega
    obtain ⟨owned, seen⟩ := held.releasedAll
    have supply : r.contents w.input.place = p.contents w.input.place :=
      Plane.contents_congr rings devices w.input_ne_tap
    have outgoing : w.outgoing r = w.outgoing p := outgoing_congr rings devices
    have tapped : w.tapped r = r.contents (.tap number) := by
      rw [Worker.tapped, watched]
      rfl
    rw [← outgoing, ← tapped, ← supply] at owned
    refine ⟨⟨keeps.apart, atRest_congr still rfl rfl rfl, owned⟩, ?_⟩
    have waiting : (p.buffers.releaseAll gone).looks w.backlog.pending =
        p.buffers.looks w.backlog.pending :=
      Buffers.looks_congr fun packet member => seen packet (by simp [member])
    have hands : (p.buffers.releaseAll gone).looks hand = p.buffers.looks hand :=
      Buffers.looks_congr fun packet member => seen packet (by simp [member])
    rw [view_congr w w p { r with buffers := p.buffers.releaseAll gone } hand hand rfl rfl rfl rfl rings
      devices fun packet member => seen packet (by grind), waiting, hands, clocks]
    rfl

/-- The error counts that a worker watches are those of the plane. -/
theorem readings_eq (w : Worker σ) (p : Plane) : w.readings p = w.watch.bind fun source =>
    if (p.device? source).isSome then
      some (w.watched.map fun entry => (entry.1, p.errorCount source entry.1))
    else none := by
  -- Both ask the watched device for the same ports.
  rw [readings]
  cases w.watch with
  | none => rfl
  | some source =>
    rw [Option.bind_some, Option.bind_some]
    cases found : p.device? source with
    | none => rfl
    | some device =>
      have counts : ∀ port, p.errorCount source port = device.errorCount port := by
        intro port
        rw [Plane.errorCount, found]
      simp only [Option.map_some, Option.isSome_some, if_true, refreshWatched, counts]

/-- Packets on other places than the input stay there while some are fetched from it. -/
theorem Keeps.places_fetch (keeps : w.Keeps p hand)
    (fetched : p.Fetches p' w.input.place packets) :
    w.outgoing p' = w.outgoing p ∧ w.tapped p' = w.tapped p := by
  -- The input is neither the output nor a tap.
  obtain ⟨-, -, there⟩ := fetched.places keeps.atRest
  have apart := keeps.apart
  constructor
  · rw [outgoing, outgoing]
    cases output : w.target? with
    | none => rfl
    | some target =>
      rw [output, Option.map_some, ne_eq, Option.some.injEq] at apart
      exact there target.place apart
  · rw [tapped, tapped]
    cases w.capture with
    | none => rfl
    | some number => exact there (.tap number) (w.input_ne_tap number).symm

/-- Packets may be fetched from the input: they are in the worker's hands then. -/
theorem Keeps.fetches (keeps : w.Keeps p []) (fetched : p.Fetches p' w.input.place packets)
    (gives : p.Gives p') :
    w.Keeps p' packets ∧ w.view p' packets = (w.view p []).fetched packets.length := by
  -- Fetched packets change from the input to the hand, the other places and all looks stay.
  obtain ⟨still, here, there⟩ := fetched.places keeps.atRest
  obtain ⟨outgoing, tapped⟩ := keeps.places_fetch fetched
  have buffers : p'.buffers = p.buffers := congrArg Surroundings.buffers fetched.surroundings
  have clocks : p'.clocks = p.clocks := congrArg Surroundings.clocks fetched.surroundings
  have room : w.target?.map p'.room = w.target?.map p.room := by
    have apart := keeps.apart
    cases output : w.target? with
    | none => rfl
    | some target =>
      rw [output, Option.map_some, ne_eq, Option.some.injEq] at apart
      exact congrArg some (gives.room_congr (there target.place apart))
  have severed : w.target?.map p'.severed = w.target?.map p.severed := by
    cases w.target? with
    | none => rfl
    | some target => exact congrArg some (gives.severed target)
  have readings : w.readings p' = w.readings p := by
    simp only [readings_eq, gives.devices, gives.errors]
  have supply : p.buffers.looks (p.contents w.input.place) =
      p.buffers.looks packets ++ p.buffers.looks (p'.contents w.input.place) := by
    rw [here, Buffers.looks_append]
  have count := p.buffers.length_looks packets
  refine ⟨⟨keeps.apart, still, ?_⟩, ?_⟩
  · rw [outgoing, tapped, buffers, ← here]
    exact keeps.held
  · simp only [view, View.fetched, clocks, gives.listens, room, severed, readings, outgoing, buffers,
      supply, List.take_left' count, List.drop_left' count]

/-- How many packets a pull gives depends on what waits on the input and on how many are asked for. -/
theorem length_pull (w : Worker σ) (atRest : p.AtRest) (want : Nat) :
    (w.pull p want).1.length =
      if p.listens w.input then min want (p.contents w.input.place).length else 0 := by
  -- An input that does not listen and a pull for nothing give nothing.
  rw [pull]
  split
  · rename_i none
    rw [none, Nat.zero_min, ite_self]
    rfl
  · cases w.input with
    | port port => exact p.length_rxBurst atRest port want
    | ring number => exact p.length_dequeueBulk atRest number want

/-- Pulling changes nothing about the ends of a worker. -/
theorem pull_gives (w : Worker σ) (p : Plane) (want : Nat) : p.Gives (w.pull p want).2 := by
  -- By kind of input.
  rw [pull]
  split
  · exact .congr rfl rfl
  · cases w.input with
    | port port => exact p.rxBurst_gives port want
    | ring number => exact p.dequeueBulk_gives number want

/-- The error counts of a worker that has handed something to an output without link. -/
def blame (w : Worker σ) (target : Target) (readings : List (UInt16 × UInt64)) :
    List (UInt16 × UInt64) :=
  -- One network port counts one more.
  readings.map fun entry =>
    (entry.1, entry.2 + if w.watch.any (target.blames · entry.1) then 1 else 0)

/-- The error counts that a worker watches after it handed something to an output. -/
theorem readings_takes {target : Target} {offered accepted : Nat}
    (takes : p.Takes p' target offered accepted) : w.readings p' =
      if 0 < offered ∧ p.severed target = true then (w.readings p).map (w.blame target)
      else w.readings p := by
  -- An error is counted when something was offered to an output that was severed, at the port that is
  -- to blame.
  simp only [readings_eq, takes.devices, takes.errors]
  cases watching : w.watch with
  | none => simp
  | some source =>
    simp only [Option.bind_some]
    by_cases there : (p.device? source).isSome = true
    · simp only [there, if_true, Option.map_some, blame, watching, Option.any_some, List.map_map]
      by_cases error : 0 < offered ∧ p.severed target = true
      · simp only [error, true_and, if_true, Function.comp_def, and_self]
      · have none : ∀ port, ¬ (0 < offered ∧ p.severed target = true ∧
            target.blames source port = true) := fun port all => error ⟨all.1, all.2.1⟩
        simp only [error, none, if_false, UInt64.add_zero]
    · simp [there]

/-- What waits may be handed to the output: as many packets go as it has room for. -/
theorem Keeps.offers (keeps : w.Keeps p hand) {target : Target} (output : w.target? = some target) :
    let v := w.view p hand
    let left := w.backlog.pending.drop v.accepts
    ∃ q, w.backlog.tryFlush target.sender p =
        ({ sent := v.accepts, sentBytes := p.buffers.totalLen (w.backlog.pending.take v.accepts)
           rejected := decide (v.accepts < w.backlog.pending.length) },
          { w.backlog with pending := left }, q) ∧
      ∀ backlog : Backlog, backlog.pending = left → ({ w with backlog } : Worker σ).Keeps q hand ∧
        ({ w with backlog } : Worker σ).view q hand = v.offered (w.blame target) := by
  -- What was sent goes from the backlog to the output. Both are held together, so the packets and
  -- their looks stay, and only the errors may be others.
  intro v left
  have count : v.accepts = min w.backlog.pending.length (p.room target) := by
    simp only [v, View.accepts, view, output, Option.map_some, Option.getD_some,
      Buffers.length_looks]
  obtain ⟨q, takes, put, taps, tried⟩ := Backlog.tryFlush_takes keeps.atRest target w.backlog
  rw [← count] at takes put tried
  obtain ⟨still, here, there⟩ := put.places keeps.atRest
  refine ⟨q, tried, ?_⟩
  rintro backlog rest
  have apart := keeps.apart
  rw [output, Option.map_some, ne_eq, Option.some.injEq] at apart
  -- Only the output has gained, and what it gained is the front of the backlog.
  have outgoing : w.outgoing q = w.outgoing p ++ w.backlog.pending.take v.accepts := by
    simp only [Worker.outgoing, output, Option.map_some, Option.getD_some]
    exact here
  have tapped : w.tapped q = w.tapped p := by
    rw [Worker.tapped, Worker.tapped]
    cases w.capture with
    | none => rfl
    | some number => exact there (.tap number) (Flow.target_ne_tap target number).symm
  have supply : q.contents w.input.place = p.contents w.input.place :=
    there w.input.place (Ne.symm apart)
  have buffers : q.buffers = p.buffers := congrArg Surroundings.buffers put.surroundings
  have clocks : q.clocks = p.clocks := congrArg Surroundings.clocks put.surroundings
  refine ⟨⟨keeps.apart, still, ?_⟩, ?_⟩
  · -- The front of the backlog moves past the tap's packets, to those on the output.
    have held : p.buffers.Keeps (w.outgoing p ++ w.backlog.pending.take v.accepts ++
        (w.tapped p ++ w.backlog.pending.drop v.accepts)) (hand ++ p.contents w.input.place) := by
      refine keeps.held.mono (List.Perm.subperm ?_) (List.Subset.refl _)
      apply List.Perm.append_right
      conv_rhs => rw [← List.take_append_drop v.accepts w.backlog.pending]
      rw [List.perm_iff_count]
      intro other
      simp only [List.count_append]
      omega
    rw [← outgoing, ← tapped, ← supply, ← buffers] at held
    show q.buffers.Keeps (w.outgoing q ++ (w.tapped q ++ backlog.pending)) _
    rw [rest]
    exact held
  · apply View.ext
    · exact clocks
    · exact takes.listens w.input
    · show w.target?.map q.room = (w.target?.map p.room).map (· - v.accepts)
      rw [output]
      exact congrArg some takes.room
    · show w.target?.map q.severed = w.target?.map p.severed
      rw [output]
      exact congrArg some (takes.severed target)
    · show w.readings q = if 0 < (p.buffers.looks w.backlog.pending).length ∧
        w.target?.map p.severed = some true then (w.readings p).map (w.blame target) else w.readings p
      simp only [readings_takes takes, output, Buffers.length_looks, Option.map_some,
        Option.some.injEq]
    · show q.buffers.looks (w.outgoing q) = p.buffers.looks (w.outgoing p) ++ _
      rw [outgoing, buffers, Buffers.looks_append, Buffers.looks_take]
      rfl
    · show q.buffers.looks backlog.pending = _
      rw [rest, buffers, Buffers.looks_drop]
      rfl
    · show q.buffers.looks hand = _
      rw [buffers]
      rfl
    · show q.buffers.looks (q.contents w.input.place) = _
      rw [supply, buffers]
      rfl

end Worker

end PacketPlane
