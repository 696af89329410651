import PacketPlane.Proofs.Transmit.Delivery
import PacketPlane.Worker.Run

/-! Custody: between any two moments of a worker, every packet it pulled is accepted by its output,
given back, waiting in its backlog, or still in its hands, and the counters say how many. -/

namespace PacketPlane

/-- The packets that were counted as sent or dropped. -/
def Counters.settled (c : Counters) : UInt64 :=
  -- The sum wraps like its parts.
  c.txPackets + c.dropped + c.txDropped

/-- A processor that does not die on any packet. -/
def Processor.Survives (process : Processor σ) : Prop :=
  ∀ context packet memory (s : Surroundings), (process context packet memory s).verdict ≠ .crash

/-- Everything about a worker that stays as it is while it runs. -/
structure Fixture (σ : Type) where
  input : Input
  output : Output
  process : Processor σ
  capture : Option Nat
  clock : Nat
  life : Nat
  settings : WorkerSettings
  threshold : Nat
  policy : Backpressure

namespace Worker

variable {σ : Type}

/-- What stays of a worker. -/
def fixture (w : Worker σ) : Fixture σ := {
  input := w.input, output := w.output, process := w.process, capture := w.capture
  clock := w.clock, life := w.life, settings := w.settings
  threshold := w.backlog.threshold, policy := w.backlog.policy }

/-- What a worker's packets come from and go to. -/
def ends (w : Worker σ) : Ends where
  input := w.input
  target := w.target?
  tap := w.capture
  modest := w.process.KeepsNone

/-- A worker keeps its ends. -/
theorem ends_eq {w w' : Worker σ} (fixed : w'.fixture = w.fixture) : w'.ends = w.ends := by
  -- Both ends, the tap and the processor are parts of the fixture.
  simp only [fixture, Fixture.mk.injEq] at fixed
  obtain ⟨input, output, process, capture, -⟩ := fixed
  simp only [ends, target?, input, output, process, capture]

/-- A worker all of whose packets are sent, dropped or waiting, as its counters say. -/
def Balanced (w : Worker σ) : Prop :=
  -- All counters wrap at 64 bits.
  w.counters.rxPackets = w.counters.settled + UInt64.ofNat w.backlog.len

end Worker

/-- A worker in the middle of its work: the packets in its hands, how many packets it has pulled
without counting them yet, and how many it has sent or dropped without counting them yet. -/
structure Moment (σ : Type) where
  worker : Worker σ
  plane : Plane
  inHand : List Packet := []
  unreceived : Nat := 0
  uncounted : Nat := 0

namespace Moment

variable {σ : Type}

/-- The packets that a worker has to answer for. -/
def kept (m : Moment σ) : List Packet :=
  -- Those that wait came before those in hand.
  m.worker.backlog.pending ++ m.inHand

/-- The packets pulled so far, counted or not. -/
def received (m : Moment σ) : UInt64 :=
  m.worker.counters.rxPackets + UInt64.ofNat m.unreceived

/-- The packets sent or dropped so far, counted or not. -/
def settled (m : Moment σ) : UInt64 :=
  m.worker.counters.settled + UInt64.ofNat m.uncounted

/-- A moment at which every packet pulled is sent, dropped or kept. -/
def Balanced (m : Moment σ) : Prop :=
  m.received = m.settled + UInt64.ofNat m.kept.length

/-- A flow between two moments of a worker, with nothing lost, doubled or miscounted. -/
structure Carries (a b : Moment σ) (f : Flow) : Prop where
  fixed : b.worker.fixture = a.worker.fixture
  hauls : Plane.Hauls a.worker.ends a.plane b.plane f
  custody : (a.kept ++ f.pulled).Perm (f.accepted ++ f.released ++ b.kept)
  received : b.received = a.received + UInt64.ofNat f.pulled.length
  settled : b.settled = a.settled + UInt64.ofNat (f.accepted.length + f.released.length)

variable {a b c : Moment σ} {f g : Flow}

/-- Custody over two flows. -/
theorem custody_trans {start middle finish : List Packet}
    (first : (start ++ f.pulled).Perm (f.accepted ++ f.released ++ middle))
    (second : (middle ++ g.pulled).Perm (g.accepted ++ g.released ++ finish)) :
    (start ++ (f ++ g).pulled).Perm ((f ++ g).accepted ++ (f ++ g).released ++ finish) := by
  -- Packet by packet, what the first stretch left is what the second one starts with.
  rw [List.perm_iff_count]
  intro packet
  have one := first.count_eq packet
  have two := second.count_eq packet
  show (start ++ (f.pulled ++ g.pulled)).count packet =
    (f.accepted ++ g.accepted ++ (f.released ++ g.released) ++ finish).count packet
  simp only [List.count_append] at one two ⊢
  omega

/-- Standing still moves nothing. -/
theorem Carries.refl (a : Moment σ) : Carries a a {} where
  fixed := rfl
  hauls := Plane.Hauls.of_same (Plane.SameRings.refl a.plane) fun _ _ => rfl
  custody := by simp
  received := by simp
  settled := by simp

/-- One flow after another. -/
theorem Carries.trans (first : Carries a b f) (second : Carries b c g) :
    Carries a c (f ++ g) where
  -- Ends stay, so the second flow is one of the same ends.
  fixed := second.fixed.trans first.fixed
  hauls := first.hauls.trans (Worker.ends_eq first.fixed ▸ second.hauls)
  custody := custody_trans first.custody second.custody
  received := by
    show c.received = a.received + UInt64.ofNat (f.pulled ++ g.pulled).length
    rw [second.received, first.received, List.length_append, UInt64.ofNat_add, UInt64.add_assoc]
  settled := by
    show c.settled = a.settled + UInt64.ofNat ((f.accepted ++ g.accepted).length +
      (f.released ++ g.released).length)
    rw [second.settled, first.settled, UInt64.add_assoc, ← UInt64.ofNat_add]
    congr 2
    simp only [List.length_append]
    omega

/-- A flow keeps the balance. -/
theorem Carries.balanced (carries : Carries a b f) (balanced : a.Balanced) : b.Balanced := by
  -- What was pulled is settled or kept, so both sides gain as many.
  have length := carries.custody.length_eq
  simp only [List.length_append] at length
  rw [Moment.Balanced] at balanced ⊢
  rw [carries.received, carries.settled, balanced, UInt64.add_assoc, UInt64.add_assoc,
    ← UInt64.ofNat_add, ← UInt64.ofNat_add, length]

/-- A worker that moves no packet carries nothing. -/
theorem Carries.of_still (fixed : b.worker.fixture = a.worker.fixture)
    (rings : a.plane.SameRings b.plane)
    (references : a.worker.ends.modest → ∀ packet,
      b.plane.buffers.references packet = a.plane.buffers.references packet)
    (kept : b.kept = a.kept) (received : b.received = a.received)
    (settled : b.settled = a.settled) : Carries a b {} where
  -- Nothing is moved, so there is nothing to be counted.
  fixed := fixed
  hauls := Plane.Hauls.of_same rings references
  custody := by simp [kept]
  received := by simp [received]
  settled := by simp [settled]

/-- A worker that only changes itself, and counts no packet, carries nothing. -/
theorem Carries.of_worker {w w' : Worker σ} (plane : Plane) (inHand : List Packet)
    (unreceived uncounted : Nat) (fixed : w'.fixture = w.fixture)
    (pending : w'.backlog.pending = w.backlog.pending)
    (received : w'.counters.rxPackets = w.counters.rxPackets)
    (settled : w'.counters.settled = w.counters.settled) :
    Carries ⟨w, plane, inHand, unreceived, uncounted⟩ ⟨w', plane, inHand, unreceived, uncounted⟩
      {} := by
  -- The plane is the same one.
  apply Carries.of_still fixed
  · exact Plane.SameRings.refl plane
  · exact fun _ _ => rfl
  · rw [kept, kept, pending]
  · rw [Moment.received, Moment.received, received]
  · rw [Moment.settled, Moment.settled, settled]

end Moment

end PacketPlane
