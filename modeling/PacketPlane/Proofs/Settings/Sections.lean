import PacketPlane.Proofs.Json.Grammar
import PacketPlane.Proofs.Settings.RoundTrip

/-! Sections of settings: in whichever of its ways a section is written, its values are set and nothing
else. -/

namespace PacketPlane

open Json (Value Text)

section Sections

variable {α β : Type} {fields : List (Field α)} {present : String → Option Value}

/-- The values that entries have under a key, in their order. -/
def valuesUnder (key : String) (entries : List (Text × Value)) : List Value :=
  entries.filterMap fun entry => if entry.1 = some key then some entry.2 else none

/-- An entry counts under its own key. -/
theorem valuesUnder_cons (key other : String) (value : Value) (entries : List (Text × Value)) :
    valuesUnder key ((some other, value) :: entries) =
      if other = key then value :: valuesUnder key entries else valuesUnder key entries := by
  -- The keys are the same or not.
  by_cases same : other = key <;> simp [valuesUnder, same]

/-- The ways to write a section that has values under some of its keys: as a table, in any order, with
anything under other keys, or as a list that leaves out no value but the last ones. -/
inductive IsSection (keys : List String) (present : String → Option Value) : Value → Prop
  | table {entries : List (Text × Value)} (spelled : ∀ entry ∈ entries, entry.1.isSome)
    (each : ∀ key ∈ keys, valuesUnder key entries = (present key).toList) :
    IsSection keys present (.table entries)
  | list {items : List Value} (each : keys.map present =
      items.map some ++ List.replicate (keys.length - items.length) none) :
    IsSection keys present (.list items)

/-- Two fields that can be set in either order. -/
def Field.Commutes (f g : Field α) : Prop :=
  ∀ v w target, (f.set v target).bind (g.set w) = (g.set w target).bind (f.set v)

/-- Fields that replace different parts can be set in either order. -/
theorem Field.commutes_of {γ : Type} {key key' : String} {reading : Value → Option β}
    {reading' : Value → Option γ} {put : β → α → α} {put' : γ → α → α}
    (apart : ∀ b c target, put' c (put b target) = put b (put' c target)) :
    (Field.of key reading put).Commutes (.of key' reading' put') := by
  -- A value that one of them cannot read is refused in either order.
  intro v w target
  simp only [Field.of]
  cases reading v <;> cases reading' w <;> simp [apart]

/-- Fields with different keys that can be set in any order. -/
structure Separate (fields : List (Field α)) : Prop where
  distinct : (fields.map Field.key).Nodup
  commute : fields.Pairwise Field.Commutes

/-- The section that values under some keys make of another one, set in the order of the fields. -/
def setPresent (present : String → Option Value) : List (Field α) → α → Option α
  | [], target => some target
  | field :: fields, target =>
    match present field.key with
    | none => setPresent present fields target
    | some value => (field.set value target).bind (setPresent present fields)

/-- Only values under the keys of the fields count. -/
theorem setPresent_congr {present' : String → Option Value}
    (same : ∀ field ∈ fields, present field.key = present' field.key) :
    setPresent present fields = setPresent present' fields := by
  -- By induction on the fields.
  induction fields with
  | nil => rfl
  | cons field fields ih =>
    have later := ih fun other member => same other (List.mem_cons_of_mem _ member)
    funext target
    rw [setPresent, setPresent, same field List.mem_cons_self, later]

/-- Without values, nothing is set. -/
theorem setPresent_none (nothing : ∀ field ∈ fields, present field.key = none) (target : α) :
    setPresent present fields target = some target := by
  -- By induction on the fields, none of which has a value.
  induction fields with
  | nil => rfl
  | cons field fields ih =>
    rw [setPresent, nothing field List.mem_cons_self]
    exact ih fun other member => nothing other (List.mem_cons_of_mem _ member)

/-- Any of the values can be set first. -/
theorem setPresent_first (separate : Separate fields) {field : Field α} (member : field ∈ fields)
    {value : Value} (here : present field.key = some value) (target : α) :
    setPresent present fields target = (field.set value target).bind
      (setPresent (fun key => if key = field.key then none else present key) fields) := by
  -- By induction on the fields: a value further back is moved in front of the first one, which
  -- commutes.
  obtain ⟨distinct, commute⟩ := separate
  induction fields generalizing target with
  | nil => cases member
  | cons first fields ih =>
    obtain ⟨apart, distinct⟩ := List.nodup_cons.mp distinct
    obtain ⟨swap, commute⟩ := List.pairwise_cons.mp commute
    rcases List.mem_cons.mp member with rfl | later
    · -- The first field has this value, and the others do not see it.
      have rest : setPresent (fun key => if key = field.key then none else present key) fields =
          setPresent present fields := by
        apply setPresent_congr
        intro other among
        have unlike : other.key ≠ field.key := fun same =>
          apart (same ▸ List.mem_map_of_mem among)
        exact if_neg unlike
      simp only [setPresent, here, if_pos, rest]
    · have unlike : first.key ≠ field.key := fun same =>
        apart (same ▸ List.mem_map_of_mem later)
      simp only [setPresent, if_neg unlike]
      cases present first.key with
      | none => exact ih later target distinct commute
      | some early =>
        have inner : setPresent present fields = fun next => (field.set value next).bind
            (setPresent (fun key => if key = field.key then none else present key) fields) :=
          funext fun next => ih later next distinct commute
        calc (first.set early target).bind (setPresent present fields)
            = ((first.set early target).bind (field.set value)).bind _ := by
              rw [inner, Option.bind_assoc]
          _ = ((field.set value target).bind (first.set early)).bind _ := by
              rw [swap field later]
          _ = _ := Option.bind_assoc _ _ _

/-- The entries of a table are set as if they stood in the order of the fields. -/
theorem setEntries_present (separate : Separate fields) {seen : List String}
    {entries : List (Text × Value)} (spelled : ∀ entry ∈ entries, entry.1.isSome)
    (each : ∀ field ∈ fields, valuesUnder field.key entries = (present field.key).toList)
    (fresh : ∀ field ∈ fields, (present field.key).isSome → field.key ∉ seen) (target : α) :
    setEntries fields seen entries target = setPresent present fields target := by
  -- A value that was set is no longer among those to be set.
  induction entries generalizing seen present target with
  | nil =>
    refine (setPresent_none (fun field member => ?_) target).symm
    exact Option.toList_eq_nil_iff.mp (each field member).symm
  | cons entry entries ih =>
    obtain ⟨text, value⟩ := entry
    have later : ∀ entry ∈ entries, entry.1.isSome := fun entry member =>
      spelled entry (List.mem_cons_of_mem _ member)
    obtain ⟨key, rfl⟩ := Option.isSome_iff_exists.mp (spelled (text, value) List.mem_cons_self)
    have skips : ∀ other, other ≠ key →
        valuesUnder other ((some key, value) :: entries) = valuesUnder other entries := by
      intro other unlike
      rw [valuesUnder_cons, if_neg unlike.symm]
    cases found : fields.find? fun field => field.key == key with
    | none =>
      simp only [setEntries, found]
      refine ih later (fun field member => ?_) fresh target
      -- A key that no field has is passed over, and no field looks for its value.
      have unlike := List.find?_eq_none.mp found field member
      rw [← each field member, skips field.key (by simpa using unlike)]
    | some field =>
      have member := List.mem_of_find?_eq_some found
      obtain rfl : field.key = key := by simpa using List.find?_some found
      have here := each field member
      rw [valuesUnder_cons, if_pos rfl] at here
      have value_here : present field.key = some value :=
        Option.mem_toList.mp (here ▸ List.mem_cons_self)
      rw [value_here, Option.toList_some] at here
      -- A field that has its value to come was not set before.
      have unseen : seen.contains field.key = false := by
        rw [List.contains_eq_mem, decide_eq_false_iff_not]
        exact fresh field member (by rw [value_here]; rfl)
      rw [setPresent_first separate member value_here]
      simp only [setEntries, found, unseen]
      cases field.set value target with
      | none => rfl
      | some target =>
        refine ih later (fun other among => ?_) (fun other among some => ?_) target
        · -- From here on the field counts as seen, and its value as set.
          by_cases same : other.key = field.key
          · rw [if_pos same, same]
            exact (List.cons.inj here).2
          · rw [if_neg same, ← each other among, skips _ same]
        · by_cases same : other.key = field.key
          · rw [if_pos same] at some
            cases some
          · rw [if_neg same] at some
            intro old
            rcases List.mem_cons.mp old with first | old
            · exact same first
            · exact fresh other among some old

/-- The items of a list are set in the order of the fields. -/
theorem setItems_present {items : List Value} (each : (fields.map Field.key).map present =
      items.map some ++ List.replicate ((fields.map Field.key).length - items.length) none)
    (target : α) : setItems fields items target = setPresent present fields target := by
  -- By induction on the fields: an item is there for each, until the items run out.
  induction fields generalizing items target with
  | nil =>
    have short := congrArg List.length each
    simp at short
    cases items with
    | nil => rfl
    | cons item items => cases short
  | cons field fields ih =>
    cases items with
    | nil =>
      refine (setPresent_none (fun other member => ?_) target).symm
      have absent : present other.key ∈ List.replicate ((field :: fields).map Field.key).length none := by
        simp only [List.map_nil, List.nil_append, List.length_nil, Nat.sub_zero] at each
        rw [← each]
        exact List.mem_map_of_mem (List.mem_map_of_mem member)
      exact (List.mem_replicate.mp absent).2
    | cons item items =>
      simp only [List.map_cons, List.cons_append, List.length_cons, List.cons.injEq,
        Nat.add_sub_add_right] at each
      obtain ⟨first, rest⟩ := each
      simp only [setItems, setPresent, first]
      cases field.set item target with
      | none => rfl
      | some target => exact ih rest target

/-- However a section is written, its values are set and nothing else. -/
theorem setSection_present (separate : Separate fields) {v : Value}
    (written : IsSection (fields.map Field.key) present v) (target : α) :
    setSection fields target v = setPresent present fields target := by
  -- By cases on how it is written, as a table or as a list.
  cases written with
  | table spelled each =>
    exact setEntries_present separate spelled
      (fun field member => each field.key (List.mem_map_of_mem member))
      (fun _ _ _ => List.not_mem_nil) target
  | list each => exact setItems_present each target

/-- A field is set to the value under its key, and kept without one. -/
theorem setPresent_of {key : String} {reading : Value → Option β} {put : β → α → α}
    {choice : Option β} (read : Option.Rel (fun part value => reading value = some part) choice
      (present key)) (fields : List (Field α)) {target : α} {kept : β} (same : put kept target = target) :
    setPresent present (.of key reading put :: fields) target =
      setPresent present fields (put (choice.getD kept) target) := by
  -- Without value the part that is kept is put back, which changes nothing.
  simp only [setPresent, Field.of]
  generalize present key = found at read ⊢
  cases read with
  | none => rw [Option.getD_none, same]
  | some read => simp only [read, Option.map_some, Option.bind_some, Option.getD_some]

/-- A section is a table in any order. -/
theorem IsSection.perm {keys : List String} {entries entries' : List (Text × Value)}
    (written : IsSection keys present (.table entries)) (perm : entries.Perm entries') :
    IsSection keys present (.table entries') := by
  cases written with
  | table spelled each =>
    refine .table (fun entry member => spelled entry (perm.mem_iff.mpr member)) ?_
    intro key member
    have under : (valuesUnder key entries).Perm (valuesUnder key entries') := perm.filterMap _
    rw [each key member] at under
    -- There is one value at most, so no other order of it.
    cases there : present key with
    | none => rw [there] at under; exact (List.nil_perm.mp under)
    | some value => rw [there] at under; exact (List.singleton_perm.mp under).symm

/-- A section is a table with anything under other keys. -/
theorem IsSection.insert {keys : List String} {entries : List (Text × Value)}
    (written : IsSection keys present (.table entries)) {key : String} (other : key ∉ keys)
    (value : Value) : IsSection keys present (.table ((some key, value) :: entries)) := by
  -- The other key is none of the section, so it counts under none of its keys.
  cases written with
  | table spelled each =>
    refine .table (List.forall_mem_cons.mpr ⟨rfl, spelled⟩) ?_
    intro known member
    have unlike : key ≠ known := fun same => other (same ▸ member)
    rw [valuesUnder_cons, if_neg unlike, each known member]

end Sections

end PacketPlane
