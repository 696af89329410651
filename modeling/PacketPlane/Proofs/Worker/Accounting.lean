import PacketPlane.Fleet.Basic
import PacketPlane.Proofs.Worker.Drain

/-! Accounting: whatever others do between a worker's turns, every packet it pulls is accepted by
its output, waiting in its backlog, or given back, and its counters say so. -/

namespace PacketPlane

/-- Flows one after another, as one flow. -/
def Flow.total (flows : List Flow) : Flow :=
  flows.foldr (· ++ ·) {}

/-- The settings of a worker are without fault just if no number is zero that must not be. -/
theorem WorkerSettings.fault?_eq_none {s : WorkerSettings} :
    s.fault? = none ↔ s.burstSize ≠ 0 ∧ s.ratePps ≠ some 0 ∧ s.alarmThreshold ≠ 0 := by
  -- Each fault is one of these zeros, and they are looked for one after another.
  rw [fault?]
  split_ifs with burst rate threshold
  · simp [burst]
  · simp [rate]
  · simp [threshold]
  · exact iff_of_true rfl ⟨burst, rate, threshold⟩

/-- A plan that passes its check has an input, and settings without fault. -/
theorem WorkerPlan.check_ok {σ : Type} {plan : WorkerPlan σ} {input : Input}
    (checked : plan.check = .ok input) :
    plan.input = some input ∧ plan.settings.fault? = none := by
  -- The check looks at the settings first and at the input last.
  rw [check] at checked
  split at checked
  · cases checked
  · rename_i sane
    refine ⟨?_, sane⟩
    split at checked
    · cases checked
    · cases checked
    · rename_i there _
      cases checked
      exact there

namespace Worker

variable {σ : Type}

open Moment

/-- A worker after turns on planes that others may have changed in any way in between. There is none
when the processor died. -/
def polls (w : Worker σ) : List Plane → Option (Worker σ)
  -- Each turn finds its own plane.
  | [] => some w
  | plane :: rest =>
    let turn := w.turn plane
    if turn.crashed then none else turn.worker.polls rest

/-- Flows that account for the packets of one turn each. -/
def Accounts (w : Worker σ) : List Plane → List Flow → Prop
  -- There are as many flows as turns.
  | [], [] => True
  | plane :: rest, f :: flows =>
    let turn := w.turn plane
    Carries ⟨w, plane, [], 0, 0⟩ ⟨turn.worker, turn.plane, [], 0, 0⟩ f ∧
      f.pulled.length = turn.pulled ∧ turn.worker.Accounts rest flows
  | _, _ => False

/-- A worker that is built has the processor of its plan. It has counted nothing, and nothing waits
in its backlog. -/
theorem build_fresh {plan : WorkerPlan σ} {plane : Plane} {w : Worker σ}
    (built : (plan.build plane).1 = .ok w) :
    w.process = plan.process ∧ w.counters = {} ∧ w.backlog.pending = [] := by
  -- A plan that is refused makes no worker, and one that is not sets all of it.
  rw [WorkerPlan.build] at built
  split at built
  · cases built
  · cases built
    exact ⟨rfl, rfl, rfl⟩

/-- A worker without packets in its hands is balanced when its counters are. -/
theorem balanced_iff (w : Worker σ) (p : Plane) :
    (⟨w, p, [], 0, 0⟩ : Moment σ).Balanced ↔ w.Balanced := by
  -- Without packets in hand, nothing is added on either side.
  have zero : ∀ n : UInt64, n + UInt64.ofNat 0 = n := UInt64.add_zero
  rw [Moment.Balanced, Moment.received, Moment.settled, zero, zero, kept, List.append_nil]
  exact Iff.rfl

/-- A stretch of work keeps a worker balanced. -/
theorem Balanced.leads {w w' : Worker σ} {p q : Plane} {pulled : List Packet}
    (balanced : w.Balanced) (leads : Leads ⟨w, p, [], 0, 0⟩ ⟨w', q, [], 0, 0⟩ pulled) :
    w'.Balanced := by
  -- Whatever the stretch of work pulls, it settles or leaves waiting.
  obtain ⟨f, carries, -⟩ := leads
  rw [← balanced_iff w' q]
  exact carries.balanced ((balanced_iff w p).mpr balanced)

/-- A processor that survives every packet survives any number of turns. -/
theorem polls_alive (w : Worker σ) (planes : List Plane) (survives : w.process.Survives) :
    ∃ last, w.polls planes = some last := by
  -- Each turn leaves the processor as it was.
  induction planes generalizing w with
  | nil => exact ⟨w, rfl⟩
  | cons plane rest ih =>
    have living := w.turn_alive plane survives
    obtain ⟨pulled, -, turned⟩ := w.turn_leads plane living
    have kept := process_eq turned
    simp only [polls, living]
    exact ih _ (kept ▸ survives)

/-- Turns keep account of every packet, whatever happens in between. -/
theorem polls_account {w last : Worker σ} {planes : List Plane}
    (polled : w.polls planes = some last) (balanced : w.Balanced) :
    last.Balanced ∧ ∃ flows, w.Accounts planes flows ∧
      (w.backlog.pending ++ (Flow.total flows).pulled).Perm
        ((Flow.total flows).accepted ++ (Flow.total flows).released ++ last.backlog.pending) := by
  -- The flow of each turn comes before those of the turns after it.
  induction planes generalizing w with
  | nil =>
    cases polled
    exact ⟨balanced, [], trivial, by simp [Flow.total]⟩
  | cons plane rest ih =>
    simp only [polls] at polled
    split at polled
    · cases polled
    · rename_i living
      rw [Bool.not_eq_true] at living
      obtain ⟨pulled, count, f, carries, same⟩ := w.turn_leads plane living
      obtain ⟨after, flows, accounts, custody⟩ :=
        ih polled (balanced.leads ⟨f, carries, same⟩)
      refine ⟨after, f :: flows, ⟨carries, by rw [same, count], accounts⟩, ?_⟩
      have first := carries.custody
      simp only [kept, List.append_nil] at first
      exact custody_trans first custody

end Worker

namespace Member

variable {σ : Type}

open Moment

/-- A member after steps on planes that others may have changed in any way in between. -/
def steps (m : Member σ) : List Plane → Member σ
  -- Each step finds its own plane.
  | [] => m
  | plane :: rest => (m.step plane).1.steps rest

/-- The last step of a drain, before the worker gives back what it holds. -/
def close (m : Member σ) (plane : Plane) : Worker σ × Plane :=
  -- What still waits goes first.
  (m.worker.flushPending plane).1.finish (m.worker.flushPending plane).2

/-- The last step of a drain keeps account of every packet. Afterwards nothing waits and the
lifecycle is over. -/
theorem close_leads (m : Member σ) (plane : Plane) :
    Leads ⟨m.worker, plane, [], 0, 0⟩ ⟨(m.close plane).1, (m.close plane).2, [], 0, 0⟩ [] ∧
      (m.close plane).1.backlog.pending = [] ∧
      (m.close plane).2.life m.worker.life = .stopped := by
  -- The flush leaves nothing, and what comes after it touches no packet.
  obtain ⟨flushed, empty⟩ := m.worker.flushPending_leads plane
  obtain ⟨finished, concluded, backlog⟩ :=
    (m.worker.flushPending plane).1.finish_leads (m.worker.flushPending plane).2
  have life : (m.worker.flushPending plane).1.life = m.worker.life :=
    congrArg Fixture.life flushed.fixed
  rw [life] at concluded
  exact ⟨flushed.trans finished, (congrArg Backlog.pending backlog).trans empty, concluded⟩

/-- The last step of a drain ends the run. -/
theorem step_close {m : Member σ} (last : m.stage = .draining 0) (plane : Plane) :
    m.step plane = (⟨(m.close plane).1, .ended⟩, (m.close plane).2.dismiss (m.close plane).1) := by
  -- Nothing waits after the drain, so the worker that leaves is the one that closed.
  obtain ⟨-, empty, -⟩ := m.close_leads plane
  have whole : m.step plane =
      leave { m with worker := (m.close plane).1 } (m.close plane).2 := by
    rw [step, last]
    rfl
  have kept : ({ (m.close plane).1.backlog with pending := [] } : Backlog) =
      (m.close plane).1.backlog := by
    rw [← empty]
  rw [whole, leave, kept]

/-- A turn or batch after which the run goes on is one that the processor survived. -/
theorem after_alive {m : Member σ} {turn : Turn σ} {stage : Stage}
    (going : (m.after turn stage).1.stage ≠ .ended) :
    turn.crashed = false ∧ m.after turn stage = (⟨turn.worker, stage⟩, turn.plane) := by
  -- Only a processor that died ends the run here.
  rw [after] at going ⊢
  split at going
  · exact absurd rfl going
  · rename_i living
    rw [if_neg living]
    rw [Bool.not_eq_true] at living
    exact ⟨living, rfl⟩

/-- A step that does not end a run keeps account of every packet. -/
theorem step_leads {m : Member σ} {plane : Plane} (going : (m.step plane).1.stage ≠ .ended) :
    ∃ pulled, Leads ⟨m.worker, plane, [], 0, 0⟩
      ⟨(m.step plane).1.worker, (m.step plane).2, [], 0, 0⟩ pulled := by
  -- By cases on the stage, each of which is a turn, a batch, or moves no packet.
  have still : Leads ⟨m.worker, plane, [], 0, 0⟩ ⟨m.worker, plane, [], 0, 0⟩ [] :=
    Leads.refl _
  obtain ⟨w, stage⟩ := m
  cases stage with
  | idle => exact ⟨[], still⟩
  | ended => exact ⟨[], still⟩
  | starting =>
    have advanced : Leads ⟨w.begin plane, plane, [], 0, 0⟩
        ⟨w.begin plane, (plane.advanceLife w.life .created .running).2, [], 0, 0⟩ [] := by
      rw [Plane.advanceLife]
      exact (w.begin plane).setLife_leads plane _ _
    have both := (w.begin_leads plane).trans advanced
    have life : (w.begin plane).life = w.life := rfl
    simp only [step, life]
    generalize plane.advanceLife w.life .created .running = advance at both
    obtain ⟨taken, q⟩ := advance
    -- Whether the start was taken or too late, nothing has moved.
    cases taken with
    | true => exact ⟨[], both⟩
    | false => exact ⟨[], both⟩
  | polling =>
    simp only [step] at going ⊢
    split
    · rename_i running
      rw [if_pos running] at going
      obtain ⟨living, whole⟩ := after_alive going
      obtain ⟨pulled, -, turned⟩ := w.turn_leads plane living
      rw [whole]
      exact ⟨pulled, turned⟩
    · exact ⟨[], still⟩
  | draining left =>
    cases left with
    | zero =>
      -- The last step ends the worker, which was ruled out.
      rw [step_close rfl] at going
      exact absurd rfl going
    | succ left =>
      simp only [step] at going ⊢
      obtain ⟨living, whole⟩ := after_alive going
      obtain ⟨pulled, -, batch⟩ := w.drainBatch_leads plane (left + 1) living
      rw [whole]
      exact ⟨pulled, batch⟩

/-- A run that is over stays over. -/
theorem steps_ended {m : Member σ} (concluded : m.stage = .ended) (planes : List Plane) :
    (m.steps planes).stage = .ended := by
  -- By induction on the planes, none of which a run that is over looks at.
  induction planes generalizing m with
  | nil => exact concluded
  | cons plane rest ih =>
    apply ih
    rw [step, concluded]
    exact concluded

/-- Steps of a run that is not over keep the worker balanced. -/
theorem steps_balanced {m : Member σ} {planes : List Plane} (balanced : m.worker.Balanced)
    (going : (m.steps planes).stage ≠ .ended) : (m.steps planes).worker.Balanced := by
  -- No step before the last one ended the run.
  induction planes generalizing m with
  | nil => exact balanced
  | cons plane rest ih =>
    have first : (m.step plane).1.stage ≠ .ended := by
      intro concluded
      exact going (steps_ended concluded rest)
    obtain ⟨pulled, stepped⟩ := step_leads first
    exact ih (balanced.leads stepped) going

end Member

namespace Worker

variable {σ : Type}

/-- A worker that has nothing left to do: nothing waits in its backlog, and every packet it pulled
was sent or dropped. -/
structure Done (w : Worker σ) : Prop where
  empty : w.backlog.pending = []
  counted : w.counters.rxPackets =
    w.counters.txPackets + w.counters.dropped + w.counters.txDropped

/-- A balanced worker without backlog is done. -/
theorem Balanced.done {w : Worker σ} (balanced : w.Balanced) (empty : w.backlog.pending = []) :
    w.Done := by
  -- Nothing waits, so what was received is what was settled.
  refine ⟨empty, ?_⟩
  rw [Balanced, Backlog.len, empty] at balanced
  exact balanced.trans (UInt64.add_zero _)

/-- Take a worker made to any plan, and let it poll any number of times while others change its
plane in any way in between, as long as its processor survives. Its counters balance, and each poll
comes with a flow that says which packets left the input, reached the output, were given back or
kept by the tap, so that every packet pulled so far is in exactly one place. When it is then run, on
one thread or step by step with others at work in between, and stopped at any moment, it is done at
the end and its lifecycle is over. -/
theorem packets_accounted {plan : WorkerPlan σ} {start : Plane} {w last : Worker σ}
    {planes : List Plane} (built : (plan.build start).1 = .ok w)
    (polled : w.polls planes = some last) :
    last.counters.rxPackets = last.counters.txPackets + last.counters.dropped +
        last.counters.txDropped + UInt64.ofNat last.backlog.len ∧
      (∃ flows, w.Accounts planes flows ∧
        (Flow.total flows).pulled.Perm
          ((Flow.total flows).accepted ++ (Flow.total flows).released ++ last.backlog.pending)) ∧
      (∀ plane bound, (last.run plane bound).crashed = false →
        (last.run plane bound).worker.Done ∧
          (last.run plane bound).plane.life last.life = .stopped) ∧
      ∀ more, let m := (⟨last, .starting⟩ : Member σ).steps more
        (m.stage ≠ .ended → m.worker.Balanced) ∧
          ∀ plane, m.stage = .draining 0 →
            m.step plane =
                (⟨(m.close plane).1, .ended⟩, (m.close plane).2.dismiss (m.close plane).1) ∧
              (m.close plane).1.Done ∧ (m.close plane).2.life m.worker.life = .stopped := by
  -- Polls are followed by induction, and a run is one more stretch of work after them.
  obtain ⟨-, fresh, nothing⟩ := build_fresh built
  have balanced : w.Balanced := by
    rw [Balanced, Backlog.len, fresh, nothing]
    rfl
  obtain ⟨after, flows, accounts, custody⟩ := polls_account polled balanced
  rw [nothing, List.nil_append] at custody
  refine ⟨after, ⟨flows, accounts, custody⟩, ?_, ?_⟩
  · intro plane bound alive
    obtain ⟨⟨pulled, ran⟩, empty, concluded⟩ := last.run_leads plane bound alive
    exact ⟨(after.leads ran).done empty, concluded⟩
  · intro more
    refine ⟨Member.steps_balanced after, ?_⟩
    intro plane draining
    have going : ((⟨last, .starting⟩ : Member σ).steps more).stage ≠ .ended := by
      rw [draining]
      exact Stage.noConfusion
    obtain ⟨closed, empty, concluded⟩ := Member.close_leads _ plane
    have before := Member.steps_balanced (m := ⟨last, .starting⟩) after going
    exact ⟨Member.step_close draining plane, (before.leads closed).done empty, concluded⟩

/-- A worker that forwards everything from one ring to another keeps account however often it polls,
whatever it finds. -/
theorem packets_accounted_pass_through :
    ∃ w : Worker Unit,
      (({ id := 0, input := some (.ring 0), output := .ring 1, process := passThrough Unit,
          memory := () } : WorkerPlan Unit).build {}).1 = .ok w ∧
        ∀ planes, ∃ last, w.polls planes = some last ∧
          last.counters.rxPackets = last.counters.txPackets + last.counters.dropped +
            last.counters.txDropped + UInt64.ofNat last.backlog.len := by
  -- This processor survives every packet, so the worker polls on whatever plane it finds.
  let plan : WorkerPlan Unit :=
    { id := 0, input := some (.ring 0), output := .ring 1, process := passThrough Unit,
      memory := () }
  obtain ⟨w, built⟩ : ∃ w, (plan.build {}).1 = .ok w := ⟨_, rfl⟩
  obtain ⟨process, -, -⟩ := build_fresh built
  have survives : w.process.Survives := by
    rw [process]
    intro context packet memory s
    simp [plan, passThrough]
  refine ⟨w, built, ?_⟩
  intro planes
  obtain ⟨last, polled⟩ := polls_alive w planes survives
  exact ⟨last, polled, (packets_accounted built polled).1⟩

end Worker

end PacketPlane
