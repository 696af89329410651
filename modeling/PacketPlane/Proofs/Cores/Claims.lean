import Mathlib.Logic.Basic
import PacketPlane.Cores.Basic

/-! Claims: cores count exactly the claims that are held on them, and a dedicated core has one. -/

namespace PacketPlane

/-- A core that counts the claims held on it, and that is dedicated when one of them asks for it. -/
structure Core.Serves (slot : Core) (claims : List CoreClaim) : Prop where
  workers : slot.workers = claims.length
  dedicated : slot.dedicated = claims.any CoreClaim.dedicated
  alone : slot.dedicated → claims.length ≤ 1

namespace Cores

/-- Cores on which exactly some claims are held. -/
def Holds (c : Cores) (claims : List CoreClaim) : Prop :=
  -- Each core sees its own claims only.
  ∀ (number : Nat) (slot : Core), c.cores[number]? = some slot →
    slot.Serves (claims.filter fun claim => claim.core == number)

/-- Nothing is claimed on new cores. -/
theorem make_holds (count : Nat) : (make count).Holds [] := by
  -- Every slot of new cores is empty, and so is the list of claims.
  intro number slot found
  rw [make] at found
  obtain ⟨-, rfl⟩ := List.mem_replicate.mp (List.mem_of_getElem? found)
  exact ⟨rfl, rfl, fun _ => Nat.zero_le _⟩

/-- Keeping workers off a core changes no claim. -/
theorem Holds.disable {c c' : Cores} {claims : List CoreClaim} (held : c.Holds claims)
    {core : Nat} (disabled : c.disable core = .ok c') : c'.Holds claims := by
  -- The slot of that core keeps its count and its claim, and the other slots stay.
  rw [Cores.disable] at disabled
  split at disabled
  · cases disabled
  · rename_i old present
    cases disabled
    intro number slot found
    rw [List.getElem?_set] at found
    by_cases same : core = number
    · subst same
      rw [if_pos rfl] at found
      split at found
      · cases found
        obtain ⟨workers, dedicated, alone⟩ := held core old present
        exact ⟨workers, dedicated, alone⟩
      · cases found
    · rw [if_neg same] at found
      exact held number slot found

/-- A core that can take another worker. -/
def Takes (c : Cores) (dedicated : Bool) (core : Nat) : Prop :=
  ∃ slot, c.cores[core]? = some slot ∧ eligible dedicated slot = true

/-- The choice among the cores below a number, with its load: none when no core there can take a
worker, and otherwise the first of those that can and that have the fewest workers. -/
def Least (c : Cores) (dedicated : Bool) (bound : Nat) : Option (Nat × Nat) → Prop
  | none => ∀ core, core < bound → ¬ c.Takes dedicated core
  | some (load, chosen) =>
    chosen < bound ∧ c.Takes dedicated chosen ∧ c.load chosen = load ∧
      ∀ core, core < bound → c.Takes dedicated core →
        load < c.load core ∨ load = c.load core ∧ chosen ≤ core

/-- The workers on a core that exists. -/
theorem load_eq {c : Cores} {core : Nat} {slot : Core} (found : c.cores[core]? = some slot) :
    c.load core = slot.workers := by
  -- The load of a core is read off its slot.
  rw [load, found]

/-- A choice among some cores becomes one among those and the next core when that is looked at. -/
theorem Least.next {c : Cores} {dedicated : Bool} {number : Nat} {best : Option (Nat × Nat)}
    {slot : Core} (found : c.cores[number]? = some slot) :
    c.Least dedicated number best → c.Least dedicated (number + 1)
      (if eligible dedicated slot && (match best with
          | none => true
          | some (load, _) => slot.workers < load) then some (slot.workers, number) else best) := by
  -- The next core joins the choice just if it is eligible and less loaded than the best one so far.
  intro least
  have takes : c.Takes dedicated number ↔ eligible dedicated slot = true := by
    simp [Takes, found]
  have before : ∀ core, core < number + 1 → core = number ∨ core < number := by omega
  cases free : eligible dedicated slot with
  | false =>
    -- A core that is not eligible leaves the choice as it is.
    have not : ¬ c.Takes dedicated number := by simp [takes, free]
    rw [Bool.false_and, if_neg Bool.false_ne_true]
    match best, least with
    | none, lacking =>
      intro core inside
      obtain rfl | inside := before core inside
      · exact not
      · exact lacking core inside
    | some (load, chosen), ⟨lower, here, loaded, others⟩ =>
      refine ⟨Nat.lt_succ_of_lt lower, here, loaded, fun core inside able => ?_⟩
      obtain rfl | inside := before core inside
      · exact absurd able not
      · exact others core inside able
  | true =>
    rw [Bool.true_and]
    match best, least with
    | none, lacking =>
      refine ⟨Nat.lt_succ_self _, takes.mpr free, load_eq found, fun core inside able => ?_⟩
      obtain rfl | inside := before core inside
      · exact Or.inr ⟨(load_eq found).symm, Nat.le_refl _⟩
      · exact absurd able (lacking core inside)
    | some (load, chosen), ⟨lower, here, loaded, others⟩ =>
      -- Between the best so far and this one, the lighter is taken, and the earlier when both weigh
      -- the same.
      by_cases better : slot.workers < load
      · rw [if_pos (decide_eq_true better)]
        refine ⟨Nat.lt_succ_self _, takes.mpr free, load_eq found, fun core inside able => ?_⟩
        obtain rfl | inside := before core inside
        · exact Or.inr ⟨(load_eq found).symm, Nat.le_refl _⟩
        · have worse := others core inside able
          omega
      · rw [if_neg (by simpa using better)]
        refine ⟨Nat.lt_succ_of_lt lower, here, loaded, fun core inside able => ?_⟩
        obtain rfl | inside := before core inside
        · rw [load_eq found]
          omega
        · exact others core inside able

/-- The search goes through all cores. -/
theorem leastLoaded_least {c : Cores} {dedicated : Bool} {slots : List Core} {number : Nat}
    {best : Option (Nat × Nat)} (behind : c.cores.drop number = slots)
    (least : c.Least dedicated number best) :
    ∃ found, leastLoaded dedicated number best slots = found.map (·.2) ∧
      c.Least dedicated c.count found := by
  -- Before every slot, the best core so far is the choice among those that were looked at.
  induction slots generalizing number best with
  | nil =>
    have all : c.count ≤ number := List.drop_eq_nil_iff.mp behind
    have inside : ∀ core, c.Takes dedicated core → core < c.count := by
      rintro core ⟨slot, found, -⟩
      exact (List.getElem?_eq_some_iff.mp found).1
    refine ⟨best, rfl, ?_⟩
    match best, least with
    | none, lacking => exact fun core inside => lacking core (by omega)
    | some (load, chosen), ⟨_, here, loaded, others⟩ =>
      exact ⟨inside chosen here, here, loaded, fun core below => others core (by omega)⟩
  | cons slot rest ih =>
    have found : c.cores[number]? = some slot := by
      rw [← List.head?_drop, behind, List.head?_cons]
    have later : c.cores.drop (number + 1) = rest := by
      rw [← List.tail_drop, behind, List.tail_cons]
    exact ih later (Least.next found least)

/-- The search for the least loaded core finds it. -/
theorem leastLoaded_spec (c : Cores) (dedicated : Bool) :
    ∃ found, leastLoaded dedicated 0 none c.cores = found.map (·.2) ∧
      c.Least dedicated c.count found :=
  -- Before the first core is looked at, there is nothing that the search could have missed.
  leastLoaded_least rfl fun core impossible => absurd impossible (Nat.not_lt_zero core)

/-- A worker is only ever placed on an eligible core. -/
theorem choose_eligible {c : Cores} {preference : CorePreference} {dedicated : Bool} {core : Nat}
    (chosen : c.choose preference dedicated = .ok core) :
    c.Takes dedicated core := by
  -- A core that is named is checked, and the search finds only cores that are eligible.
  cases preference with
  | manual wanted =>
    simp only [choose] at chosen
    split at chosen
    · cases chosen
    · rename_i slot present
      split at chosen
      · rename_i free
        cases chosen
        exact ⟨slot, present, free⟩
      · cases chosen
  | any =>
    obtain ⟨least, found, spec⟩ := c.leastLoaded_spec dedicated
    simp only [choose, found] at chosen
    match least, spec with
    | some (load, core), ⟨_, takes, _⟩ =>
      cases chosen
      exact takes

/-- A worker placed on a core holds one claim more there. -/
theorem Holds.assign {c c' : Cores} {claims : List CoreClaim} {claim : CoreClaim}
    {preference : CorePreference} {dedicated : Bool} (held : c.Holds claims)
    (placed : c.assign preference dedicated = .ok (claim, c')) :
    c'.Holds (claims ++ [claim]) := by
  -- On the chosen core there is one claim more, and an eligible core cannot have been dedicated.
  rw [Cores.assign] at placed
  split at placed
  · cases placed
  · rename_i core chosen
    cases placed
    obtain ⟨old, present, free⟩ := choose_eligible chosen
    simp only [eligible, Bool.and_eq_true, Bool.or_eq_true, Bool.not_eq_true', beq_iff_eq] at free
    obtain ⟨⟨-, shared⟩, room⟩ := free
    obtain ⟨workers, whole, alone⟩ := held core old present
    intro number slot found
    rw [List.getElem?_modify] at found
    by_cases same : core = number
    · subst same
      simp only [present, if_true, Option.map_eq_map, Option.map_some, Option.some.injEq] at found
      subst found
      -- An eligible core has no dedicated claim.
      have none : (claims.filter fun claim => claim.core == core).any CoreClaim.dedicated = false :=
        whole.symm.trans shared
      rw [List.filter_append, List.filter_cons_of_pos (by simp), List.filter_nil]
      refine ⟨?_, ?_, ?_⟩
      · rw [List.length_append, ← workers]
        rfl
      · rw [List.any_append, none]
        simp
      · intro given
        -- A dedicated claim takes only a core without workers, so it is alone there.
        rcases room with unwanted | empty
        · exact absurd (given.symm.trans unwanted) Bool.noConfusion
        · rw [List.length_append, ← workers, empty]
          exact Nat.le_refl 1
    · -- No other core is concerned.
      simp only [same, if_false, Option.map_eq_map, Option.map_id'] at found
      rw [List.filter_append, List.filter_cons_of_neg (by simpa using same), List.filter_nil,
        List.append_nil]
      exact held number slot found

/-- A claim given back is no longer held. -/
theorem Holds.release {c : Cores} {claim : CoreClaim} {claims : List CoreClaim}
    (held : c.Holds (claim :: claims)) : (c.release claim).Holds claims := by
  -- On the core of the claim there is one claim less, and the other cores stay.
  intro number slot found
  rw [Cores.release, List.getElem?_modify] at found
  cases present : c.cores[number]? with
  | none => simp [present] at found
  | some old =>
    simp only [present, Option.map_eq_map, Option.map_some, Option.some.injEq] at found
    obtain ⟨workers, dedicated, alone⟩ := held number old present
    by_cases same : claim.core = number
    · rw [if_pos same] at found
      subst found
      rw [List.filter_cons_of_pos (by simpa using same)] at workers dedicated alone
      refine ⟨?_, ?_, ?_⟩
      · rw [workers]
        rfl
      · -- A dedicated core had this claim alone.
        cases whole : old.dedicated with
        | true =>
          have last := alone whole
          have none : (claims.filter fun claim => claim.core == number) = [] :=
            List.eq_nil_of_length_eq_zero (by simpa using last)
          rw [whole, none] at dedicated
          rw [none]
          simpa using dedicated
        | false =>
          rw [whole, List.any_cons, eq_comm, Bool.or_eq_false_iff] at dedicated
          exact dedicated.2.symm
      · intro still
        rw [Bool.and_eq_true] at still
        have last := alone still.1
        rw [List.length_cons] at last
        omega
    · rw [if_neg same] at found
      subst found
      rw [List.filter_cons_of_neg (by simpa using same)] at workers dedicated alone
      exact ⟨workers, dedicated, alone⟩

/-- Cores on which nothing is claimed are free. -/
theorem Holds.free {c : Cores} (held : c.Holds []) :
    ∀ slot ∈ c.cores, slot.workers = 0 ∧ slot.dedicated = false := by
  -- A core has as many workers as claims, and there are none.
  intro slot there
  obtain ⟨number, found⟩ := List.mem_iff_getElem?.mp there
  obtain ⟨workers, dedicated, -⟩ := held number slot found
  exact ⟨workers, dedicated⟩

end Cores

end PacketPlane
