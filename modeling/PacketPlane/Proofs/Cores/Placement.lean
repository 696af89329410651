import Mathlib.Data.List.Perm.Basic
import PacketPlane.Fleet.Engine
import PacketPlane.Proofs.Cores.Accounts

/-! Placement: whatever is done to the cores of an engine, by the engine and by others, each core has
exactly the workers that live there. -/

namespace PacketPlane

namespace Cores

/-- The cores after a call that changes them unless it is refused. -/
def settle (c : Cores) : Except Fault Cores → Cores
  | .error _ => c
  | .ok c' => c'

end Cores

namespace Engine

variable {σ : Type}

/-- Stopping workers gives their claims back and does nothing else to an engine. -/
theorem stopEach_engine (e : Engine) (f : Fleet σ) (bound : Nat) (placed : List Placed) :
    (e.stopEach f bound placed).2.1 =
      { e with cores := (placed.map Placed.claim).foldl Cores.release e.cores } := by
  -- By induction on the workers, each of which gives one claim back.
  induction placed generalizing e f with
  | nil => rfl
  | cons first rest ih =>
    exact ih { e with cores := e.cores.release first.claim } (e.stopOne f first bound).2

/-- A worker that is started holds a claim on its core from then on, and one that is not leaves
nothing behind in the engine. -/
theorem spawnOn_cases (e : Engine) (f : Fleet σ) (member : Nat) (preference : CorePreference)
    (thread : Except Fault Unit) :
    let spawned := e.spawnOn f member preference thread
    (∃ core cores, spawned.1 = .ok core ∧ thread = .ok () ∧
      e.cores.assign preference e.dedicatedCores = .ok (⟨core, e.dedicatedCores⟩, cores) ∧
      spawned.2.1.cores = cores ∧ spawned.2.1.dedicatedCores = e.dedicatedCores ∧
      spawned.2.1.running = e.running ++ [⟨member, ⟨core, e.dedicatedCores⟩⟩] ∧
      spawned.2.1.registered = e.registered ++ [member]) ∨
    ∃ fault, spawned.1 = .error fault ∧ spawned.2.1 = e ∧
      (thread = .error fault ∨ e.cores.assign preference e.dedicatedCores = .error fault) := by
  simp only [spawnOn]
  cases placed : e.cores.assign preference e.dedicatedCores with
  | error fault => exact Or.inr ⟨fault, by simp [spawn, placed]⟩
  | ok given =>
    obtain ⟨⟨core, dedicated⟩, cores⟩ := given
    cases thread with
    | error fault =>
      -- The claim that was taken first is given back.
      refine Or.inr ⟨fault, rfl, ?_, Or.inl rfl⟩
      simp only [Cores.release_assign placed]
    | ok _ =>
      obtain rfl : dedicated = e.dedicatedCores := (Cores.assign_spec placed).1
      exact Or.inl ⟨core, cores, by simp [spawn, placed]⟩

end Engine

/-- The cores of an engine among others who place workers there too: their claims, the workers that
a stop still waits for, the cores that were disabled, and what the cores would be had the others
been alone. -/
structure Placement (σ : Type) where
  engine : Engine
  fleet : Fleet σ
  others : List CoreClaim := []
  stopping : List Placed := []
  disabled : List Nat := []
  alone : Cores

/-- One call that may change cores, by the engine or by others. The system decides whether there is a
thread for a worker, and a fleet does anything meanwhile. -/
inductive PlacementCall (σ : Type) where
  | assign (preference : CorePreference) (dedicated : Bool)
  | drop (number : Nat)
  | disable (core : Nat)
  | spawn (member : Nat) (preference : CorePreference) (thread : Except Fault Unit)
  | stop (bound : Nat)
  | beginStop
  | stopNext (bound : Nat)
  | meanwhile (fleet : Fleet σ)

namespace Placement

variable {σ : Type}

/-- What a call answers and leaves. Alone, the others would have placed their workers on the same
cores. -/
def perform (d : Placement σ) : PlacementCall σ → Except Fault Unit × Placement σ
  | .assign preference dedicated =>
    match d.engine.cores.assign preference dedicated with
    | .error fault => (.error fault, d)
    | .ok (claim, cores) =>
      (.ok (), { d with
        engine := { d.engine with cores }
        others := claim :: d.others
        alone := d.alone.settle ((d.alone.assign (.manual claim.core) dedicated).map Prod.snd) })
  | .drop number =>
    match d.others[number]? with
    | none => (.ok (), d)
    | some claim =>
      (.ok (), { d with
        engine := { d.engine with cores := d.engine.cores.release claim }
        others := d.others.eraseIdx number
        alone := d.alone.release claim })
  | .disable core =>
    match d.engine.cores.disable core with
    | .error fault => (.error fault, d)
    | .ok cores =>
      (.ok (), { d with
        engine := { d.engine with cores }
        disabled := core :: d.disabled
        alone := d.alone.settle (d.alone.disable core) })
  | .spawn member preference thread =>
    let (core, engine, fleet) := d.engine.spawnOn d.fleet member preference thread
    (core.map fun _ => (), { d with engine, fleet })
  | .stop bound =>
    let (_, engine, fleet) := d.engine.stop d.fleet bound
    (.ok (), { d with engine, fleet })
  | .beginStop =>
    -- The workers are stopped one after another, while others go on placing theirs.
    (.ok (), { d with
      engine := { d.engine with running := [] }
      stopping := d.stopping ++ d.engine.running })
  | .stopNext bound =>
    match d.stopping with
    | [] => (.ok (), d)
    | placed :: rest =>
      let (engine, fleet) := d.engine.stopOne d.fleet placed bound
      (.ok (), { d with engine, fleet, stopping := rest })
  | .meanwhile fleet => (.ok (), { d with fleet })

/-- A call that is refused changes nothing about cores or about the engine. -/
theorem perform_refused (d : Placement σ) (c : PlacementCall σ) {fault : Fault}
    (refused : (d.perform c).1 = .error fault) :
    (d.perform c).2 = { d with fleet := (d.perform c).2.fleet } := by
  -- By cases on the call, and only the fleet of a refused spawn is let go of.
  cases c with
  | assign preference dedicated =>
    simp only [perform] at refused ⊢
    split at refused
    · rfl
    · cases refused
  | drop number =>
    simp only [perform] at refused
    split at refused <;> cases refused
  | disable core =>
    simp only [perform] at refused ⊢
    split at refused
    · rfl
    · cases refused
  | spawn member preference thread =>
    simp only [perform] at refused ⊢
    obtain ⟨core, cores, started, -⟩ | ⟨_, -, kept, -⟩ :=
      d.engine.spawnOn_cases d.fleet member preference thread
    · rw [started] at refused
      cases refused
    · rw [kept]
  | stop bound => cases refused
  | beginStop => cases refused
  | stopNext bound =>
    simp only [perform] at refused
    split at refused <;> cases refused
  | meanwhile fleet => cases refused

/-- What calls lead to, starting with an engine without workers over any number of cores. -/
inductive Reachable : Placement σ → Prop
  | start (cores : Nat) (settings : Settings) (fleet : Fleet σ) :
    Reachable { engine := Engine.make cores settings, fleet, alone := Cores.make cores }
  | call {d : Placement σ} (run : Reachable d) (c : PlacementCall σ) : Reachable (d.perform c).2

/-- The claims that the engine's workers hold. -/
def own (d : Placement σ) : List CoreClaim :=
  (d.stopping ++ d.engine.running).map Placed.claim

/-- All claims that are held. -/
def live (d : Placement σ) : List CoreClaim :=
  d.own ++ d.others

/-- The claims that are held on a core. -/
def on (d : Placement σ) (core : Nat) : List CoreClaim :=
  d.live.filter fun claim => claim.core == core

/-- A core that may take another worker. -/
def Open (d : Placement σ) (dedicated : Bool) (core : Nat) : Prop :=
  Cores.Open d.engine.cores.count d.live d.disabled dedicated core

/-- Cores agree with the claims that are held on them and with what was disabled, and so they would
if the others had been alone. -/
structure Sound (d : Placement σ) : Prop where
  all : d.engine.cores.Accounts d.live d.disabled
  alone : d.alone.Accounts d.others d.disabled
  same : d.alone.count = d.engine.cores.count

variable {d : Placement σ}

/-- Nothing is held when an engine is new. -/
theorem sound_start (cores : Nat) (settings : Settings) (fleet : Fleet σ) :
    Sound { engine := Engine.make cores settings, fleet, alone := Cores.make cores } :=
  -- New cores are counted alike with and without the engine.
  ⟨Cores.make_accounts cores, Cores.make_accounts cores, rfl⟩

/-- A core that may take another worker may do so as well when only the others are there. -/
theorem Sound.takes_alone (sound : d.Sound) {dedicated : Bool} {core : Nat}
    (takes : d.engine.cores.Takes dedicated core) : d.alone.Takes dedicated core := by
  -- With fewer claims on a core, fewer of them mind.
  obtain ⟨inside, enabled, free⟩ := sound.all.takes_iff.mp takes
  refine sound.alone.takes_iff.mpr ⟨sound.same ▸ inside, enabled, fun claim there => ?_⟩
  exact free claim (List.mem_append_right d.own there)

/-- Others keep the cores sound when they place a worker. -/
theorem Sound.assign (sound : d.Sound) (preference : CorePreference) (dedicated : Bool) :
    (d.perform (.assign preference dedicated)).2.Sound := by
  simp only [perform]
  split
  · exact sound
  · rename_i claim cores placed
    -- Alone, the others find the core free as well, as fewer claims are in the way.
    obtain ⟨same, takes, -⟩ := Cores.assign_spec placed
    obtain ⟨alone, settled⟩ := (sound.takes_alone takes).assign
    obtain ⟨all, count⟩ := sound.all.assign placed
    obtain ⟨accounts, still⟩ := sound.alone.assign settled
    simp only [settled]
    refine ⟨all.perm List.perm_middle.symm, ?_, still.trans (sound.same.trans count.symm)⟩
    show alone.Accounts (claim :: d.others) d.disabled
    rwa [← same] at accounts

/-- Others keep the cores sound when they give a claim back. -/
theorem Sound.drop (sound : d.Sound) (number : Nat) : (d.perform (.drop number)).2.Sound := by
  simp only [perform]
  split
  · exact sound
  · rename_i claim found
    -- The claim is moved to the front of all claims, to be given back from there.
    obtain ⟨inside, rfl⟩ := List.getElem?_eq_some_iff.mp found
    have front : d.others.Perm (d.others[number] :: d.others.eraseIdx number) :=
      (List.getElem_cons_eraseIdx_perm inside).symm
    have moved : d.live.Perm (d.others[number] :: (d.own ++ d.others.eraseIdx number)) :=
      (front.append_left d.own).trans List.perm_middle
    obtain ⟨all, count⟩ := (sound.all.perm moved).release
    obtain ⟨alone, still⟩ := (sound.alone.perm front).release
    exact ⟨all, alone, still.trans (sound.same.trans count.symm)⟩

/-- Disabling a core keeps the cores sound. -/
theorem Sound.disable (sound : d.Sound) (core : Nat) : (d.perform (.disable core)).2.Sound := by
  -- What is disabled for all exists for the others as well, since both count the same cores.
  simp only [perform]
  split
  · exact sound
  · rename_i cores done
    obtain ⟨all, count, inside⟩ := sound.all.disable done
    obtain ⟨alone, settled⟩ := Cores.disable_of_lt (sound.same ▸ inside : core < d.alone.count)
    obtain ⟨accounts, still, -⟩ := sound.alone.disable settled
    simp only [settled]
    exact ⟨all, accounts, still.trans (sound.same.trans count.symm)⟩

/-- The engine keeps the cores sound when it starts a worker, or fails to. -/
theorem Sound.spawn (sound : d.Sound) (member : Nat) (preference : CorePreference)
    (thread : Except Fault Unit) : (d.perform (.spawn member preference thread)).2.Sound := by
  -- What the others hold is not touched, so that only the engine's own claims have to be looked at.
  simp only [perform]
  obtain ⟨core, cores, -, -, placed, now, -, running, -⟩ | ⟨fault, -, kept, -⟩ :=
    d.engine.spawnOn_cases d.fleet member preference thread
  · -- The new claim is one of the engine's own.
    obtain ⟨all, count⟩ := sound.all.assign placed
    refine ⟨?_, sound.alone, ?_⟩
    · show Cores.Accounts _ (((d.stopping ++ _).map Placed.claim) ++ d.others) d.disabled
      rw [now, running, ← List.append_assoc, List.map_append, List.append_assoc]
      exact all.perm List.perm_middle.symm
    · show d.alone.count = Cores.count _
      rw [now, count, sound.same]
  · refine ⟨?_, sound.alone, ?_⟩
    · show Cores.Accounts _ (((d.stopping ++ _).map Placed.claim) ++ d.others) d.disabled
      rw [kept]
      exact sound.all
    · show d.alone.count = Cores.count _
      rw [kept, sound.same]

/-- The engine keeps the cores sound when it stops its workers. -/
theorem Sound.stop (sound : d.Sound) (bound : Nat) : (d.perform (.stop bound)).2.Sound := by
  -- The claims of running workers are listed first, so that giving them back leaves the others.
  have claims : d.live.Perm
      (d.engine.running.map Placed.claim ++ (d.stopping.map Placed.claim ++ d.others)) := by
    rw [live, own, List.map_append, ← List.append_assoc]
    exact List.perm_append_comm.append_right d.others
  obtain ⟨all, count⟩ := (sound.all.perm claims).releaseAll
  simp only [perform, Engine.stop]
  refine ⟨?_, sound.alone, ?_⟩
  · show Cores.Accounts _ (((d.stopping ++ _).map Placed.claim) ++ d.others) d.disabled
    rw [Engine.stopEach_engine, List.append_nil]
    exact all
  · show d.alone.count = Cores.count _
    rw [Engine.stopEach_engine]
    exact sound.same.trans count.symm

/-- A stop that begins changes no claim. -/
theorem Sound.beginStop (sound : d.Sound) : (d.perform .beginStop).2.Sound := by
  -- Workers that are about to be stopped are still listed among those of the engine.
  have claims : (d.perform .beginStop).2.live = d.live := by
    simp [perform, live, own]
  refine ⟨?_, sound.alone, sound.same⟩
  rw [claims]
  exact sound.all

/-- The engine keeps the cores sound when it stops one worker. -/
theorem Sound.stopNext (sound : d.Sound) (bound : Nat) : (d.perform (.stopNext bound)).2.Sound := by
  -- The claim that is given back is the first of those that are waiting to be stopped.
  simp only [perform]
  split
  · exact sound
  · rename_i placed rest waiting
    have first : d.live =
        placed.claim :: ((rest ++ d.engine.running).map Placed.claim ++ d.others) := by
      rw [live, own, waiting]
      rfl
    obtain ⟨all, count⟩ := Cores.Accounts.release (first ▸ sound.all)
    exact ⟨all, sound.alone, sound.same.trans count.symm⟩

/-- Every call keeps the cores sound. -/
theorem Sound.perform (sound : d.Sound) (c : PlacementCall σ) : (d.perform c).2.Sound := by
  -- There is one lemma for each call, and what others do to the fleet touches no core.
  cases c with
  | assign preference dedicated => exact sound.assign preference dedicated
  | drop number => exact sound.drop number
  | disable core => exact sound.disable core
  | spawn member preference thread => exact sound.spawn member preference thread
  | stop bound => exact sound.stop bound
  | beginStop => exact sound.beginStop
  | stopNext bound => exact sound.stopNext bound
  | meanwhile fleet => exact ⟨sound.all, sound.alone, sound.same⟩

/-- The cores are sound after any calls. -/
theorem Reachable.sound (reached : d.Reachable) : d.Sound := by
  -- The induction is on the calls, each of which keeps the accounts.
  induction reached with
  | start cores settings fleet => exact sound_start cores settings fleet
  | call _ c ih => exact ih.perform c

/-- Without workers of its own an engine has the cores that the others alone would have. -/
theorem Sound.vacated (sound : d.Sound) (none : d.own = []) : d.engine.cores = d.alone := by
  -- Both hold the same claims on as many cores, and that is all there is to cores.
  have all := sound.all
  rw [live, none, List.nil_append] at all
  exact all.unique sound.alone sound.same.symm

/-- Each core has a worker for each claim that is held there, is dedicated when one of these claims
is, which is then the only one there, and keeps workers off when it was disabled. -/
structure Exact (d : Placement σ) : Prop where
  load : ∀ core, d.engine.cores.load core = (d.on core).length
  slot : ∀ core slot, d.engine.cores.cores[core]? = some slot →
    slot.workers = (d.on core).length ∧
    (slot.dedicated = true ↔ ∃ claim ∈ d.on core, claim.dedicated = true) ∧
    (slot.disabled = true ↔ core ∈ d.disabled)
  exclusive : ∀ core, ∀ claim ∈ d.on core, claim.dedicated = true → d.on core = [claim]

/-- Workers are placed on cores that may take them: on the one they name, or else on the first of
the least loaded ones, and they are refused only when there is none. -/
structure Places (d : Placement σ) (dedicated : Bool) : Prop where
  taken : ∀ preference claim cores,
    d.engine.cores.assign preference dedicated = .ok (claim, cores) →
    claim.dedicated = dedicated ∧ d.Open dedicated claim.core ∧
      ∀ core, preference = .manual core → claim.core = core
  named : ∀ core, (∃ cores, d.engine.cores.assign (.manual core) dedicated =
    .ok (⟨core, dedicated⟩, cores)) ↔ d.Open dedicated core
  refused : ∀ fault, d.engine.cores.assign .any dedicated = .error fault ↔
    fault = .noCores ∧ ∀ core, ¬ d.Open dedicated core
  least : ∀ claim cores, d.engine.cores.assign .any dedicated = .ok (claim, cores) →
    ∀ core, d.Open dedicated core → (d.on claim.core).length < (d.on core).length ∨
      (d.on claim.core).length = (d.on core).length ∧ claim.core ≤ core

/-- Sound cores are exact. -/
theorem Sound.exact (sound : d.Sound) : d.Exact := by
  refine ⟨sound.all.load, fun core slot found => ?_, fun core claim there dedicated => ?_⟩
  · obtain ⟨workers, whole, -⟩ := sound.all.held core slot found
    have disabled := sound.all.shut core
    rw [Cores.getElem?_shut found, Option.some.injEq] at disabled
    refine ⟨workers, ?_, disabled⟩
    rw [whole, List.any_eq_true]
    rfl
  · obtain ⟨listed, same⟩ := List.mem_filter.mp there
    have inside : core < d.engine.cores.cores.length := by
      rw [← beq_iff_eq.mp same]
      exact sound.all.inside claim listed
    obtain ⟨-, whole, alone⟩ := sound.all.held core _ (List.getElem?_eq_getElem inside)
    -- The flag is set because of this claim, and a dedicated core has at most one.
    have most := alone (whole.trans (List.any_eq_true.mpr ⟨claim, there, dedicated⟩))
    obtain ⟨only, single⟩ := List.length_eq_one_iff.mp
      (Nat.le_antisymm most (List.length_pos_of_mem there))
    have here : claim = only := List.mem_singleton.mp (single ▸ there)
    rw [here]
    exact single

/-- Sound cores place workers where they may be. -/
theorem Sound.places (sound : d.Sound) (dedicated : Bool) : d.Places dedicated := by
  -- Which cores take a worker and how loaded they are is read off the claims.
  have takes : ∀ core, d.engine.cores.Takes dedicated core ↔ d.Open dedicated core :=
    fun core => sound.all.takes_iff
  obtain ⟨refused, least⟩ := d.engine.cores.assign_any dedicated
  refine ⟨?_, fun core => ⟨?_, fun free => ((takes core).mpr free).assign⟩, fun fault => ?_, ?_⟩
  · intro preference claim cores placed
    obtain ⟨same, able, named⟩ := Cores.assign_spec placed
    exact ⟨same, (takes claim.core).mp able, named⟩
  · rintro ⟨cores, placed⟩
    exact (takes core).mp (Cores.assign_spec placed).2.1
  · rw [refused]
    simp only [takes]
  · intro claim cores placed core free
    have loads := least claim cores placed core ((takes core).mpr free)
    rwa [sound.all.load, sound.all.load] at loads

/-- Cores are exact after any calls, whoever made them, and place workers only where they may be,
also for the engine. Calls that are refused change nothing about them, and once the engine has
stopped its workers they are what they would be had there been only the others. -/
theorem cores_exact (reached : d.Reachable) :
    d.Exact ∧ (∀ dedicated, d.Places dedicated) ∧
    (∀ member preference thread core,
      (d.engine.spawnOn d.fleet member preference thread).1 = .ok core →
      ∃ cores, d.engine.cores.assign preference d.engine.dedicatedCores =
        .ok (⟨core, d.engine.dedicatedCores⟩, cores)) ∧
    (∀ c fault, (d.perform c).1 = .error fault →
      (d.perform c).2 = { d with fleet := (d.perform c).2.fleet }) ∧
    (∀ bound, d.stopping = [] → (d.engine.stop d.fleet bound).2.1 =
      { d.engine with cores := d.alone, running := [] }) ∧
    (d.own = [] → d.engine.cores = d.alone) ∧
    ∀ core, d.alone.load core = (d.others.filter fun claim => claim.core == core).length := by
  -- All of it is read off the accounts that every call keeps.
  have sound := reached.sound
  refine ⟨sound.exact, sound.places, ?_, fun c _ => d.perform_refused c, ?_, sound.vacated,
    sound.alone.load⟩
  · intro member preference thread core started
    obtain ⟨here, cores, same, -, placed, -⟩ | ⟨fault, refused, -⟩ :=
      d.engine.spawnOn_cases d.fleet member preference thread
    · cases started.symm.trans same
      exact ⟨cores, placed⟩
    · cases started.symm.trans refused
  · -- After the stop no worker of the engine is left, so that its cores are those of the others.
    intro bound settled
    have running : (d.engine.stop d.fleet bound).2.1.running = [] := by
      rw [Engine.stop, Engine.stopEach_engine]
    have vacated : (d.engine.stop d.fleet bound).2.1.cores = d.alone :=
      (sound.stop bound).vacated (by
        show (d.stopping ++ (d.engine.stop d.fleet bound).2.1.running).map Placed.claim = []
        rw [settled, running]
        rfl)
    rw [Engine.stop, Engine.stopEach_engine] at vacated ⊢
    simp only at vacated ⊢
    rw [vacated]

/-- A worker of the engine shares its core, another one has its core alone, the third core is
disabled, and a worker without a thread leaves nothing: once the engine has stopped, only the other
one's is left. -/
theorem cores_exact_shared : ∃ d : Placement Unit, d.Reachable ∧
    d.engine.cores.cores = [⟨1, false, false⟩, ⟨1, true, false⟩, ⟨0, false, true⟩] ∧ d.Exact ∧
    (d.engine.stop d.fleet 1).2.1.cores.cores =
      [⟨0, false, false⟩, ⟨1, true, false⟩, ⟨0, false, true⟩] := by
  -- The calls are made one after another, and the general theorem is read off at their end.
  have reached := ((((Reachable.start 3 {} ({} : Fleet Unit)).call (.spawn 0 .any (.ok ()))).call
    (.assign .any true)).call (.disable 2)).call
      (.spawn 1 .any (.error (.file (.stated "Resource temporarily unavailable"))))
  obtain ⟨exact, -, -, -, stopped, -⟩ := cores_exact reached
  refine ⟨_, reached, by rfl, exact, ?_⟩
  rw [stopped 1 rfl]
  rfl

end Placement

end PacketPlane
