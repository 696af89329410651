import PacketPlane.Proofs.Cores.Claims

/-! Accounts: cores are settled by the claims that are held on them and by which of them are
disabled. -/

namespace PacketPlane

namespace Cores

/-- The order in which claims are listed does not matter. -/
theorem Holds.perm {c : Cores} {claims others : List CoreClaim} (held : c.Holds claims)
    (same : claims.Perm others) : c.Holds others := by
  -- Only how many claims there are on a core and whether one is dedicated is looked at.
  intro number slot found
  obtain ⟨workers, dedicated, alone⟩ := held number slot found
  have there := same.filter fun claim => claim.core == number
  refine ⟨workers.trans there.length_eq, dedicated.trans there.any_eq, ?_⟩
  rwa [← there.length_eq]

/-- Claims given back one after another are no longer held. -/
theorem Holds.releaseAll {c : Cores} {claims rest : List CoreClaim}
    (held : c.Holds (claims ++ rest)) : (claims.foldl Cores.release c).Holds rest := by
  -- By induction on the claims, each of which is first when its turn comes.
  induction claims generalizing c with
  | nil => exact held
  | cons claim claims ih => exact ih held.release

/-- Which cores workers are kept off. -/
def shut (c : Cores) : List Bool :=
  c.cores.map Core.disabled

/-- Whether workers are kept off a core that exists. -/
theorem getElem?_shut {c : Cores} {core : Nat} {slot : Core} (found : c.cores[core]? = some slot) :
    c.shut[core]? = some slot.disabled := by
  -- The flags are those of the slots, in the order of the slots.
  rw [shut, List.getElem?_map, found, Option.map_some]

/-- Changing other things about one core keeps workers off the same cores. -/
theorem shut_modify (c : Cores) (core : Nat) {change : Core → Core}
    (keeps : ∀ slot, (change slot).disabled = slot.disabled) :
    shut ⟨c.cores.modify core change⟩ = c.shut := by
  -- A core that is changed keeps its flag, and no other core is touched.
  refine List.ext_getElem? fun number => ?_
  rw [shut, shut, List.getElem?_map, List.getElem?_map, List.getElem?_modify]
  cases c.cores[number]? with
  | none => rfl
  | some slot =>
    by_cases same : core = number
    · simp [same, keeps]
    · simp [same]

/-- Giving a claim back keeps workers off the same cores. -/
theorem shut_release (c : Cores) (claim : CoreClaim) : (c.release claim).shut = c.shut :=
  -- Giving a claim back sets a count and whether the core is dedicated.
  c.shut_modify claim.core fun _ => rfl

/-- Giving claims back keeps workers off the same cores. -/
theorem shut_releaseAll (c : Cores) (claims : List CoreClaim) :
    (claims.foldl release c).shut = c.shut := by
  -- By induction on the claims, none of which touches a flag.
  induction claims generalizing c with
  | nil => rfl
  | cons claim claims ih => exact (ih (c.release claim)).trans (c.shut_release claim)

/-- Placing a worker keeps workers off the same cores. -/
theorem shut_assign {c c' : Cores} {claim : CoreClaim} {preference : CorePreference}
    {dedicated : Bool} (placed : c.assign preference dedicated = .ok (claim, c')) :
    c'.shut = c.shut := by
  -- A placement that succeeds changes one core, and not its flag.
  rw [Cores.assign] at placed
  split at placed
  · cases placed
  · cases placed
    exact c.shut_modify _ fun _ => rfl

/-- Workers are kept off a disabled core besides those that they were kept off before. -/
theorem shut_disable {c c' : Cores} {core : Nat} (disabled : c.disable core = .ok c') :
    c'.shut = c.shut.set core true := by
  -- A core that exists has its flag set, and one that does not is refused.
  rw [Cores.disable] at disabled
  split at disabled
  · cases disabled
  · cases disabled
    rw [shut, shut, List.map_set]

/-- A core can take another worker when workers are not kept off it and nobody there minds: neither
is to have the core alone. -/
theorem Holds.takes_iff {c : Cores} {claims : List CoreClaim} (held : c.Holds claims)
    {dedicated : Bool} {core : Nat} :
    c.Takes dedicated core ↔ c.shut[core]? = some false ∧
      ∀ claim ∈ claims, claim.core = core → dedicated = false ∧ claim.dedicated = false := by
  -- The slot says in a flag and a count what the claims on its core say in full.
  have there : ∀ claim ∈ claims, claim.core = core →
      claim ∈ claims.filter fun claim => claim.core == core := by
    intro claim listed same
    exact List.mem_filter.mpr ⟨listed, beq_iff_eq.mpr same⟩
  constructor
  · -- The slot's flag speaks for all claims there, and its count for whether there is one.
    rintro ⟨slot, found, free⟩
    simp only [eligible, Bool.and_eq_true, Bool.or_eq_true, Bool.not_eq_true', beq_iff_eq] at free
    obtain ⟨⟨admits, shared⟩, room⟩ := free
    obtain ⟨workers, whole, -⟩ := held core slot found
    refine ⟨(getElem?_shut found).trans (congrArg some admits), fun claim listed same => ⟨?_, ?_⟩⟩
    · rcases room with unwanted | empty
      · exact unwanted
      · have none := List.eq_nil_of_length_eq_zero (workers.symm.trans empty)
        exact absurd (none ▸ there claim listed same) List.not_mem_nil
    · have plain := List.any_eq_false.mp (whole.symm.trans shared) claim (there claim listed same)
      exact Bool.eq_false_iff.mpr plain
  · -- A claim that shares the core allows only workers that share it too.
    rintro ⟨admits, unclaimed⟩
    rw [shut, List.getElem?_map, Option.map_eq_some_iff] at admits
    obtain ⟨slot, found, admits⟩ := admits
    obtain ⟨workers, whole, -⟩ := held core slot found
    have listed : ∀ claim ∈ claims.filter (fun claim => claim.core == core),
        dedicated = false ∧ claim.dedicated = false := by
      intro claim here
      obtain ⟨here, same⟩ := List.mem_filter.mp here
      exact unclaimed claim here (beq_iff_eq.mp same)
    have shared : slot.dedicated = false := by
      rw [whole, List.any_eq_false]
      exact fun claim here => Bool.eq_false_iff.mp (listed claim here).2
    have room : dedicated = false ∨ slot.workers = 0 := by
      cases here : claims.filter fun claim => claim.core == core with
      | nil => exact Or.inr (by rw [workers, here, List.length_nil])
      | cons claim rest => exact Or.inl (listed claim (here ▸ List.mem_cons_self)).1
    refine ⟨slot, found, ?_⟩
    simp only [eligible, Bool.and_eq_true, Bool.or_eq_true, Bool.not_eq_true', beq_iff_eq]
    exact ⟨⟨admits, shared⟩, room⟩

/-- A worker is placed on a core that can take it, and on the core it names if it names one. -/
theorem assign_spec {c c' : Cores} {claim : CoreClaim} {preference : CorePreference}
    {dedicated : Bool} (placed : c.assign preference dedicated = .ok (claim, c')) :
    claim.dedicated = dedicated ∧ c.Takes dedicated claim.core ∧
      ∀ core, preference = .manual core → claim.core = core := by
  -- Only what was chosen is assigned, and a choice by name is that name or a refusal.
  rw [Cores.assign] at placed
  split at placed
  · cases placed
  · rename_i chosen choice
    cases placed
    refine ⟨rfl, choose_eligible choice, ?_⟩
    rintro core rfl
    simp only [choose] at choice
    split at choice
    · cases choice
    · split at choice
      · cases choice
        rfl
      · cases choice

/-- A worker is placed on the core it names when that can take it. -/
theorem Takes.assign {c : Cores} {dedicated : Bool} {core : Nat} (takes : c.Takes dedicated core) :
    ∃ c', c.assign (.manual core) dedicated = .ok (⟨core, dedicated⟩, c') := by
  -- A core that is named is chosen whenever it is eligible.
  obtain ⟨slot, found, free⟩ := takes
  have choice : c.choose (.manual core) dedicated = .ok core := by
    simp only [choose, found, free, if_true]
  rw [Cores.assign, choice]
  exact ⟨_, rfl⟩

/-- A worker that would run anywhere is refused when no core can take it, and is otherwise placed on
the first of the least loaded cores that can. -/
theorem assign_any (c : Cores) (dedicated : Bool) :
    (∀ fault, c.assign .any dedicated = .error fault ↔
      fault = .noCores ∧ ∀ core, ¬ c.Takes dedicated core) ∧
    ∀ claim c', c.assign .any dedicated = .ok (claim, c') → ∀ core, c.Takes dedicated core →
      c.load claim.core < c.load core ∨ c.load claim.core = c.load core ∧ claim.core ≤ core := by
  -- The search through all cores either finds the least loaded one or shows that there is none.
  have below : ∀ core, c.Takes dedicated core → core < c.count := by
    rintro core ⟨slot, found, -⟩
    exact (List.getElem?_eq_some_iff.mp found).1
  obtain ⟨least, found, spec⟩ := c.leastLoaded_spec dedicated
  rw [Cores.assign, choose, found]
  cases least with
  | none =>
    have never : ∀ core, ¬ c.Takes dedicated core :=
      fun core takes => spec core (below core takes) takes
    refine ⟨fun fault => ⟨?_, ?_⟩, ?_⟩
    · rintro ⟨⟩
      exact ⟨rfl, never⟩
    · rintro ⟨rfl, -⟩
      rfl
    · rintro claim c' ⟨⟩
  | some best =>
    obtain ⟨load, chosen⟩ := best
    obtain ⟨-, takes, loaded, others⟩ := spec
    refine ⟨fun fault => ⟨?_, ?_⟩, ?_⟩
    · rintro ⟨⟩
    · rintro ⟨-, never⟩
      exact absurd takes (never chosen)
    · rintro claim c' ⟨⟩ core able
      rw [loaded]
      exact others core (below core able) able

/-- Claims and the cores that workers are kept off say all there is to know about cores. -/
theorem Holds.unique {c c' : Cores} {claims : List CoreClaim} (held : c.Holds claims)
    (alike : c'.Holds claims) (same : c.shut = c'.shut) : c = c' := by
  have length : c.cores.length = c'.cores.length := by
    simpa [shut] using congrArg List.length same
  have slots : c.cores = c'.cores := by
    -- The three fields of a slot are its count of claims, whether one is dedicated, and its own flag.
    refine List.ext_getElem length fun core inside within => ?_
    have found := List.getElem?_eq_getElem inside
    have there := List.getElem?_eq_getElem within
    obtain ⟨workers, dedicated, -⟩ := held core _ found
    obtain ⟨workers', dedicated', -⟩ := alike core _ there
    have disabled := congrArg (·[core]?) same
    simp only [getElem?_shut found, getElem?_shut there, Option.some.injEq] at disabled
    generalize c.cores[core] = slot at *
    generalize c'.cores[core] = slot' at *
    cases slot
    cases slot'
    rw [Core.mk.injEq]
    exact ⟨workers.trans workers'.symm, dedicated.trans dedicated'.symm, disabled⟩
  cases c
  cases c'
  exact congrArg Cores.mk slots

/-- A worker that is placed and leaves at once was never there. -/
theorem release_assign {c c' : Cores} {claim : CoreClaim} {preference : CorePreference}
    {dedicated : Bool} (placed : c.assign preference dedicated = .ok (claim, c')) :
    c'.release claim = c := by
  -- What placing adds to one core is just what giving back takes off it.
  rw [Cores.assign] at placed
  split at placed
  · cases placed
  · rename_i core chosen
    cases placed
    obtain ⟨slot, present, free⟩ := choose_eligible chosen
    simp only [eligible, Bool.and_eq_true, Bool.not_eq_true'] at free
    cases c with
    | mk cores =>
      refine congrArg Cores.mk (List.ext_getElem? fun number => ?_)
      rw [List.getElem?_modify, List.getElem?_modify]
      by_cases same : core = number
      · -- The core was shared before, so that no flag is lost.
        subst same
        have shared := free.1.2
        simp only at present
        rw [present]
        cases slot
        simp at shared ⊢
        exact shared
      · simp [same]

/-- How many cores there are shows in which ones workers are kept off. -/
theorem length_shut (c : Cores) : c.shut.length = c.count :=
  -- There is one flag for each core.
  List.length_map _

/-- Cores on which exactly some claims are held, and exactly some cores are disabled. -/
structure Accounts (c : Cores) (live : List CoreClaim) (disabled : List Nat) : Prop where
  held : c.Holds live
  inside : ∀ claim ∈ live, claim.core < c.count
  shut : ∀ core, c.shut[core]? = some true ↔ core ∈ disabled

/-- A core, of a number of them, that may take another worker: it is not disabled, and neither the
worker nor one that is there is to have it alone. -/
def Open (count : Nat) (live : List CoreClaim) (disabled : List Nat) (dedicated : Bool)
    (core : Nat) : Prop :=
  -- A worker to itself wants a core on which there is nobody.
  core < count ∧ core ∉ disabled ∧
    ∀ claim ∈ live, claim.core = core → dedicated = false ∧ claim.dedicated = false

variable {c c' : Cores} {live claims : List CoreClaim} {disabled : List Nat} {claim : CoreClaim}
  {core : Nat} {dedicated : Bool}

/-- New cores have no claims, and none is disabled. -/
theorem make_accounts (count : Nat) : (make count).Accounts [] [] := by
  -- New cores are all alike, with nothing on them and open to everybody.
  refine ⟨make_holds count, fun claim there => absurd there List.not_mem_nil, fun core => ?_⟩
  rw [shut, make, List.map_replicate]
  constructor
  · intro found
    obtain ⟨-, same⟩ := List.mem_replicate.mp (List.mem_of_getElem? found)
    exact Bool.noConfusion same
  · exact fun there => absurd there List.not_mem_nil

/-- The cores that take a worker are those that may. -/
theorem Accounts.takes_iff (accounts : c.Accounts live disabled) :
    c.Takes dedicated core ↔ Open c.count live disabled dedicated core := by
  -- A core has a flag just if it exists, and the flag is set just if it is disabled.
  have admits : c.shut[core]? = some false ↔ core < c.count ∧ core ∉ disabled := by
    rw [← accounts.shut, ← length_shut]
    by_cases inside : core < c.shut.length
    · rw [List.getElem?_eq_getElem inside]
      cases c.shut[core] <;> simp [inside]
    · rw [List.getElem?_eq_none (Nat.le_of_not_lt inside)]
      simp [inside]
  rw [accounts.held.takes_iff, admits, and_assoc, Open]

/-- How many workers each core has. -/
theorem Accounts.load (accounts : c.Accounts live disabled) (core : Nat) :
    c.load core = (live.filter fun claim => claim.core == core).length := by
  cases found : c.cores[core]? with
  | some slot => rw [load_eq found, (accounts.held core slot found).workers]
  | none =>
    -- No claim is on a core that does not exist.
    have outside : c.count ≤ core := List.getElem?_eq_none_iff.mp found
    have none : live.filter (fun claim => claim.core == core) = [] := by
      refine List.filter_eq_nil_iff.mpr fun claim there same => ?_
      have inside := accounts.inside claim there
      rw [beq_iff_eq] at same
      omega
    rw [Cores.load, found, none, List.length_nil]

/-- The order in which claims are listed does not matter to accounts. -/
theorem Accounts.perm (accounts : c.Accounts live disabled) (same : live.Perm claims) :
    c.Accounts claims disabled :=
  -- None of the accounts depends on an order.
  ⟨accounts.held.perm same, fun claim there => accounts.inside claim (same.mem_iff.mpr there),
    accounts.shut⟩

/-- A worker that is placed adds its claim. -/
theorem Accounts.assign (accounts : c.Accounts live disabled) {preference : CorePreference}
    (placed : c.assign preference dedicated = .ok (claim, c')) :
    c'.Accounts (claim :: live) disabled ∧ c'.count = c.count := by
  -- The claim comes with a core that takes it, so it is inside, and no flag changes.
  have shut := shut_assign placed
  have count : c'.count = c.count := by rw [← length_shut, shut, length_shut]
  obtain ⟨-, ⟨slot, found, -⟩, -⟩ := assign_spec placed
  refine ⟨⟨?_, ?_, ?_⟩, count⟩
  · exact (accounts.held.assign placed).perm (List.perm_append_singleton claim live)
  · intro other there
    rw [count]
    rcases List.mem_cons.mp there with rfl | there
    · exact (List.getElem?_eq_some_iff.mp found).1
    · exact accounts.inside other there
  · rw [shut]
    exact accounts.shut

/-- Claims that are given back are gone. -/
theorem Accounts.releaseAll (accounts : c.Accounts (claims ++ live) disabled) :
    (claims.foldl release c).Accounts live disabled ∧
      (claims.foldl release c).count = c.count := by
  -- Counts follow the claims, and neither flags nor the number of cores change.
  have shut := c.shut_releaseAll claims
  have count : (claims.foldl release c).count = c.count := by
    rw [← length_shut, shut, length_shut]
  refine ⟨⟨accounts.held.releaseAll, ?_, ?_⟩, count⟩
  · intro claim there
    rw [count]
    exact accounts.inside claim (List.mem_append_right claims there)
  · rw [shut]
    exact accounts.shut

/-- A claim that is given back is gone. -/
theorem Accounts.release (accounts : c.Accounts (claim :: live) disabled) :
    (c.release claim).Accounts live disabled ∧ (c.release claim).count = c.count := by
  -- One claim is a list of one.
  have first : c.Accounts ([claim] ++ live) disabled := accounts
  exact first.releaseAll

/-- A core that is disabled is disabled besides the others. -/
theorem Accounts.disable (accounts : c.Accounts live disabled)
    (done : c.disable core = .ok c') :
    c'.Accounts live (core :: disabled) ∧ c'.count = c.count ∧ core < c.count := by
  -- No claim changes, and the flag that is set is that of a core that exists.
  have shut := shut_disable done
  have count : c'.count = c.count := by
    rw [← length_shut, shut, List.length_set, length_shut]
  have inside : core < c.count := by
    rw [Cores.disable] at done
    split at done
    · cases done
    · rename_i slot found
      exact (List.getElem?_eq_some_iff.mp found).1
  refine ⟨⟨accounts.held.disable done, ?_, fun number => ?_⟩, count, inside⟩
  · rw [count]
    exact accounts.inside
  · -- Only the flag of the core itself is set.
    rw [shut, List.getElem?_set, List.mem_cons, ← accounts.shut]
    by_cases same : core = number
    · simp [← same, length_shut, inside]
    · simp [same, Ne.symm same]

/-- A core can be disabled when it exists. -/
theorem disable_of_lt (inside : core < c.count) : ∃ c', c.disable core = .ok c' := by
  -- Only a core that does not exist is refused.
  rw [Cores.disable, List.getElem?_eq_getElem inside]
  exact ⟨_, rfl⟩

/-- Accounts say all there is to know about a number of cores. -/
theorem Accounts.unique (accounts : c.Accounts live disabled) (alike : c'.Accounts live disabled)
    (same : c.count = c'.count) : c = c' := by
  -- Claims determine the counts of a core, and the list of disabled cores its flag.
  refine accounts.held.unique alike.held (List.ext_getElem ?_ fun core inside within => ?_)
  · rw [length_shut, length_shut, same]
  · -- On a core that exists, workers are kept off or they are not.
    have found := List.getElem?_eq_getElem inside
    have there := List.getElem?_eq_getElem within
    have agree := (accounts.shut core).trans (alike.shut core).symm
    rw [found, there, Option.some.injEq, Option.some.injEq] at agree
    exact Bool.eq_iff_iff.mpr agree

end Cores

end PacketPlane
