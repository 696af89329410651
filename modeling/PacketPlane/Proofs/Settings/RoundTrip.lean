import PacketPlane.Proofs.Json.Words
import PacketPlane.Settings.Reader
import PacketPlane.Settings.Writer

/-! Round trip of settings: what is saved is loaded again, every field as it was. -/

namespace PacketPlane

open Json (Value)

section Sections

variable {α : Type}

/-- Entries under all keys of a section, each with its value. -/
def entriesOf (fields : List (Field α)) (values : List Value) : List (String × Value) :=
  (fields.zip values).map fun pair => (pair.1.key, pair.2)

/-- Fields whose keys differ from each other, and from those that were seen, are set in their order. -/
theorem setEntries_rest {all done rest : List (Field α)} (whole : all = done ++ rest)
    (distinct : (all.map Field.key).Nodup) {seen : List String}
    (known : ∀ key ∈ seen, ∃ field ∈ done, field.key = key) {values : List Value}
    (each : values.length = rest.length) (target : α) :
    setEntries all seen ((entriesOf rest values).map fun entry => (some entry.1, entry.2)) target =
      setItems rest values target := by
  -- A field that is set joins those whose keys were seen.
  induction rest generalizing done seen values target with
  | nil =>
    cases List.length_eq_zero_iff.mp each
    rfl
  | cons field rest ih =>
    cases values with
    | nil => cases each
    | cons value values =>
      subst whole
      rw [List.map_append, List.map_cons] at distinct
      -- No field done before has the same key, so the search passes over them.
      have unlike : ∀ other ∈ done, other.key ≠ field.key := by
        intro other member
        exact (List.nodup_append.mp distinct).2.2 _ (List.mem_map_of_mem member) _
          List.mem_cons_self
      have found : (done ++ field :: rest).find? (fun other => other.key == field.key) =
          some field := by
        rw [List.find?_append, List.find?_eq_none.mpr (by simpa using unlike), Option.none_or,
          List.find?_cons_of_pos (by simp)]
      have fresh : seen.contains field.key = false := by
        rw [List.contains_eq_mem, decide_eq_false_iff_not]
        intro member
        obtain ⟨other, listed, same⟩ := known field.key member
        exact unlike other listed same
      simp only [entriesOf, List.zip_cons_cons, List.map_cons, setEntries, found, fresh, setItems]
      cases field.set value target with
      | none => rfl
      | some target =>
        refine ih (List.append_cons done field rest) ?_ (by simpa using each) target
        intro key member
        rcases List.mem_cons.mp member with rfl | member
        · exact ⟨field, by simp, rfl⟩
        · obtain ⟨other, listed, same⟩ := known key member
          exact ⟨other, List.mem_append_left _ listed, same⟩

/-- A table of all fields of a section in their order reads like the list of their values. -/
theorem setSection_record (fields : List (Field α)) (values : List Value)
    (distinct : (fields.map Field.key).Nodup) (each : values.length = fields.length) (target : α) :
    setSection fields target (.record (entriesOf fields values)) = setItems fields values target :=
  setEntries_rest (List.nil_append fields).symm distinct (by simp) each target

/-- A field that reads its value is set, and the fields behind it follow. -/
theorem setItems_of {β : Type} {key : String} {reading : Value → Option β} {put : β → α → α}
    {value : Value} {part : β} (read : reading value = some part) (fields : List (Field α))
    (values : List Value) (target : α) :
    setItems (.of key reading put :: fields) (value :: values) target =
      setItems fields values (put part target) := by
  simp only [setItems, Field.of, read, Option.map_some]

end Sections

section Readings

/-- A number below a bound is read again. -/
theorem natBelow?_nat {bound n : Nat} (below : n < bound) :
    natBelow? bound (.nat n) = some n := by
  -- The number is read as it is, and passes the bound.
  simp only [natBelow?, Json.nat?_nat, if_pos below]

/-- A number of 16 bits is read again. -/
theorem uint16?_nat (n : UInt16) : uint16? (.nat n.toNat) = some n := by
  -- A word is below the bound that it is read with.
  rw [uint16?, natBelow?_nat n.toNat_lt, Option.map_some, UInt16.ofNat_toNat]

/-- A number of 32 bits is read again. -/
theorem uint32?_nat (n : UInt32) : uint32? (.nat n.toNat) = some n := by
  -- A word is below the bound that it is read with.
  rw [uint32?, natBelow?_nat n.toNat_lt, Option.map_some, UInt32.ofNat_toNat]

/-- A number of 64 bits is read again. -/
theorem uint64?_nat (n : UInt64) : uint64? (.nat n.toNat) = some n := by
  -- A word is below the bound that it is read with.
  rw [uint64?, natBelow?_nat n.toNat_lt, Option.map_some, UInt64.ofNat_toNat]

/-- A number that may be absent is read again, or its absence is. -/
theorem nullable?_optionalJson {β : Type} {reading : Value → Option β} {count : β → Nat}
    (read : ∀ n, reading (.nat (count n)) = some n) (value : Option β) :
    nullable? reading (optionalJson (value.map count)) = some value := by
  -- Absence is written as a word of its own, which no number is.
  cases value with
  | none => rfl
  | some n =>
    show (reading (.nat (count n))).map some = some (some n)
    rw [read, Option.map_some]

/-- A backpressure policy is read again. -/
theorem backpressure?_toJson (policy : Backpressure) : backpressure? policy.toJson = some policy := by
  -- By cases on the policy, of which retrying is a section with one field.
  cases policy with
  | drop => rfl
  | retry attempts =>
    have read : setSection Backpressure.fields none
        (.record [("max_attempts", .nat attempts.toNat)]) = some (some attempts) := by
      calc setSection Backpressure.fields none (.record [("max_attempts", .nat attempts.toNat)])
          = setItems Backpressure.fields [.nat attempts.toNat] none :=
            setSection_record Backpressure.fields [_] (by decide) rfl none
        _ = some (some attempts) := setItems_of (uint32?_nat attempts) [] [] none
    rw [Backpressure.toJson, Value.record, List.map_cons, List.map_nil, backpressure?, read]

/-- A pool's settings are read again. -/
theorem PoolSettings.ofJson?_toJson (s : PoolSettings) : PoolSettings.ofJson? s.toJson = some s := by
  -- All fields are given, so nothing of the defaults is left.
  calc PoolSettings.ofJson? s.toJson
      = setItems PoolSettings.fields [.nat s.capacity.toNat, .nat s.dataRoom.toNat,
          .nat s.headroom.toNat, optionalJson (s.numaNode.map UInt32.toNat)] {} :=
        setSection_record PoolSettings.fields [_, _, _, _] (by decide) rfl {}
    _ = some s := by
        rw [PoolSettings.fields, setItems_of (uint64?_nat _), setItems_of (uint64?_nat _),
          setItems_of (uint64?_nat _), setItems_of (nullable?_optionalJson uint32?_nat _)]
        rfl

/-- A device's settings are read again. -/
theorem DeviceSettings.ofJson?_toJson (s : DeviceSettings) :
    DeviceSettings.ofJson? s.toJson = some s := by
  -- All fields are given, so nothing of the defaults is left.
  calc DeviceSettings.ofJson? s.toJson
      = setItems DeviceSettings.fields [.nat s.ports.toNat, .nat s.rxQueues.toNat,
          .nat s.txQueues.toNat, .nat s.rxDescriptors.toNat, .nat s.txDescriptors.toNat] {} :=
        setSection_record DeviceSettings.fields [_, _, _, _, _] (by decide) rfl {}
    _ = some s := by
        rw [DeviceSettings.fields, setItems_of (uint16?_nat _), setItems_of (uint16?_nat _),
          setItems_of (uint16?_nat _), setItems_of (uint64?_nat _), setItems_of (uint64?_nat _)]
        rfl

/-- A worker's settings are read again. -/
theorem WorkerSettings.ofJson?_toJson (s : WorkerSettings) :
    WorkerSettings.ofJson? s.toJson = some s := by
  -- All fields are given, so nothing of the defaults is left.
  calc WorkerSettings.ofJson? s.toJson
      = setItems WorkerSettings.fields [.nat s.burstSize.toNat,
          optionalJson (s.ratePps.map UInt64.toNat), s.backpressure.toJson,
          .nat s.drainAttempts.toNat, .nat s.alarmThreshold.toNat, .nat s.statsIntervalMs.toNat]
          {} := setSection_record WorkerSettings.fields [_, _, _, _, _, _] (by decide) rfl {}
    _ = some s := by
        rw [WorkerSettings.fields, setItems_of (uint64?_nat _),
          setItems_of (nullable?_optionalJson uint64?_nat _),
          setItems_of (backpressure?_toJson _), setItems_of (uint32?_nat _),
          setItems_of (uint32?_nat _), setItems_of (uint64?_nat _)]
        rfl

/-- A whole set of settings is read again. -/
theorem Settings.ofJson?_toJson (s : Settings) : Settings.ofJson? s.toJson = some s := by
  -- All fields are given, so nothing of the defaults is left.
  have truth : ∀ b, bool? (.bool b) = some b := fun _ => rfl
  calc Settings.ofJson? s.toJson
      = setItems Settings.fields [s.pool.toJson, .nat s.ringCapacity.toNat, s.device.toJson,
          s.worker.toJson, .nat s.workers.toNat, .bool s.pinCores, .bool s.dedicatedCores] {} :=
        setSection_record Settings.fields [_, _, _, _, _, _, _] (by decide) rfl {}
    _ = some s := by
        rw [Settings.fields, setItems_of s.pool.ofJson?_toJson, setItems_of (uint64?_nat _),
          setItems_of s.device.ofJson?_toJson, setItems_of s.worker.ofJson?_toJson,
          setItems_of (uint64?_nat _), setItems_of (truth _), setItems_of (truth _)]
        rfl

end Readings

section Spellings

/-- A number that may be absent is found again. -/
theorem spelled_optionalJson (value : Option Nat) : (optionalJson value).Spelled := by
  -- Absence is a word that is found again like any other.
  cases value with
  | none =>
    intro word member
    rw [List.mem_singleton.mp member]
    trivial
  | some n => exact Json.spelled_nat n

/-- A backpressure policy is found again. -/
theorem Backpressure.spelled_toJson (policy : Backpressure) : policy.toJson.Spelled := by
  -- By cases on the policy, of which retrying is a table inside a table.
  cases policy with
  | drop => exact Json.spelled_str "drop"
  | retry attempts =>
    refine Json.spelled_record fun entry listed => ?_
    rw [List.mem_singleton.mp listed]
    refine Json.spelled_record fun entry listed => ?_
    rw [List.mem_singleton.mp listed]
    exact Json.spelled_nat _

/-- A pool's settings are found again. -/
theorem PoolSettings.spelled_toJson (s : PoolSettings) : s.toJson.Spelled := by
  -- Every field is a number, or its absence.
  apply Json.spelled_record
  simp [Json.spelled_nat, spelled_optionalJson]

/-- A device's settings are found again. -/
theorem DeviceSettings.spelled_toJson (s : DeviceSettings) : s.toJson.Spelled := by
  -- Every field is a number.
  apply Json.spelled_record
  simp [Json.spelled_nat]

/-- A worker's settings are found again. -/
theorem WorkerSettings.spelled_toJson (s : WorkerSettings) : s.toJson.Spelled := by
  -- Every field is a number, its absence or a policy.
  apply Json.spelled_record
  simp [Json.spelled_nat, spelled_optionalJson, Backpressure.spelled_toJson]

/-- A whole set of settings is found again. -/
theorem Settings.spelled_toJson (s : Settings) : s.toJson.Spelled := by
  -- Every field is a section, a number or a truth value.
  apply Json.spelled_record
  simp [Json.spelled_nat, Json.spelled_bool, PoolSettings.spelled_toJson,
    DeviceSettings.spelled_toJson, WorkerSettings.spelled_toJson]

end Spellings

namespace Settings

/-- Whatever settings are saved, what is read from the text are these settings. -/
theorem parse_save (s : Settings) : parse s.save = .ok s := by
  -- The text is indented, which makes no difference to reading it.
  have read : Json.read? s.save = some s.toJson :=
    Json.read?_chars (.indented 0) s.spelled_toJson
  simp only [parse, read, s.ofJson?_toJson]

/-- The bytes of a text are read as that text. -/
theorem loadBytes_toUTF8 (text : String) : loadBytes text.toUTF8 = load text := by
  -- The bytes of a text are valid.
  have read : String.fromUTF8? text.toUTF8 = some text := dif_pos text.isValidUTF8
  simp only [loadBytes, read]

/-- Loading what settings were saved as judges the settings themselves. -/
theorem loadBytes_save (s : Settings) : loadBytes s.save.toUTF8 = s.validate := by
  -- What is judged are the settings that are read, and these are the ones saved.
  rw [loadBytes_toUTF8, load, parse_save]

/-- Settings that were accepted are the ones that were judged. -/
theorem validate_eq_ok {s accepted : Settings} (usable : s.validate = .ok accepted) :
    accepted = s := by
  -- Judging gives back what it judged.
  rw [validate] at usable
  split at usable
  · cases usable
  · cases usable
    rfl

/-- Settings that were loaded are accepted again. -/
theorem validate_of_loadBytes {bytes : ByteArray} {s : Settings} (loaded : loadBytes bytes = .ok s) :
    s.validate = .ok s := by
  -- The last step of loading is to judge what was read.
  rw [loadBytes] at loaded
  split at loaded
  · cases loaded
  · rw [load] at loaded
    split at loaded
    · cases loaded
    · rename_i settings _
      obtain rfl := validate_eq_ok loaded
      exact loaded

/-- Settings that can be used are loaded from the file that they are saved in, every field as it was.
And whatever file settings were loaded from, saving and loading them again gives the same settings,
and whatever is loaded then is saved in the same bytes. -/
theorem saved_settings_load :
    (∀ s : Settings, s.validate = .ok s → loadBytes s.save.toUTF8 = .ok s) ∧
    ∀ (bytes : ByteArray) (s : Settings), loadBytes bytes = .ok s →
      loadBytes s.save.toUTF8 = .ok s ∧
        ∀ again, loadBytes s.save.toUTF8 = .ok again → again.save.toUTF8 = s.save.toUTF8 := by
  -- What was loaded can be used, so the second half follows from the first.
  have whole : ∀ s : Settings, s.validate = .ok s → loadBytes s.save.toUTF8 = .ok s := by
    intro s usable
    rw [loadBytes_save]
    exact usable
  refine ⟨whole, ?_⟩
  intro bytes s loaded
  have back := whole s (validate_of_loadBytes loaded)
  refine ⟨back, ?_⟩
  intro again reloaded
  rw [back] at reloaded
  rw [Except.ok.inj reloaded]

/-- Settings at the ends of their ranges, with a memory node, a rate and a policy that drops, are
loaded as they were saved. -/
theorem saved_settings_load_extreme :
    let s : Settings := {
      pool := { capacity := 0xffffffff, dataRoom := 0xffff, headroom := 0xfffe,
                numaNode := some 0xffffffff }
      ringCapacity := 0x10000000
      device := { ports := 0xffff, rxQueues := 0xffff, txQueues := 1,
                  rxDescriptors := 0x8000000000000000, txDescriptors := 1 }
      worker := { burstSize := 0xffffffffffffffff, ratePps := some 0xffffffffffffffff,
                  backpressure := .drop, drainAttempts := 0, alarmThreshold := 0xffffffff,
                  statsIntervalMs := 0 }
      workers := 0xffffffffffffffff, pinCores := true, dedicatedCores := true }
    s.validate = .ok s ∧ loadBytes s.save.toUTF8 = .ok s ∧
      ∀ again, loadBytes s.save.toUTF8 = .ok again → again.save.toUTF8 = s.save.toUTF8 := by
  -- That the settings can be used is computed, and that they are loaded is the theorem.
  intro s
  have faultless : s.fault? = none := by decide +kernel
  have usable : s.validate = .ok s := by rw [validate, faultless]
  have loaded := saved_settings_load.1 s usable
  exact ⟨usable, loaded, (saved_settings_load.2 s.save.toUTF8 s loaded).2⟩

end Settings

end PacketPlane
