import PacketPlane.Proofs.Settings.Sections

/-! Overlays of settings: a text that gives some of the settings loads as the defaults with these in their
places, in whichever way it is written. -/

namespace PacketPlane

open Json (Value)

/-- Some of a pool's settings. -/
structure PoolOverlay where
  capacity : Option UInt64 := none
  dataRoom : Option UInt64 := none
  headroom : Option UInt64 := none
  numaNode : Option (Option UInt32) := none

/-- Some of a device's settings. -/
structure DeviceOverlay where
  ports : Option UInt16 := none
  rxQueues : Option UInt16 := none
  txQueues : Option UInt16 := none
  rxDescriptors : Option UInt64 := none
  txDescriptors : Option UInt64 := none

/-- Some of a worker's settings. -/
structure WorkerOverlay where
  burstSize : Option UInt64 := none
  ratePps : Option (Option UInt64) := none
  backpressure : Option Backpressure := none
  drainAttempts : Option UInt32 := none
  alarmThreshold : Option UInt32 := none
  statsIntervalMs : Option UInt64 := none

/-- Some of a whole set of settings. -/
structure SettingsOverlay where
  pool : Option PoolOverlay := none
  ringCapacity : Option UInt64 := none
  device : Option DeviceOverlay := none
  worker : Option WorkerOverlay := none
  workers : Option UInt64 := none
  pinCores : Option Bool := none
  dedicatedCores : Option Bool := none

/-- A pool's settings with some of them in the places of others. -/
def PoolOverlay.onto (o : PoolOverlay) (s : PoolSettings) : PoolSettings where
  capacity := o.capacity.getD s.capacity
  dataRoom := o.dataRoom.getD s.dataRoom
  headroom := o.headroom.getD s.headroom
  numaNode := o.numaNode.getD s.numaNode

/-- A device's settings with some of them in the places of others. -/
def DeviceOverlay.onto (o : DeviceOverlay) (s : DeviceSettings) : DeviceSettings where
  ports := o.ports.getD s.ports
  rxQueues := o.rxQueues.getD s.rxQueues
  txQueues := o.txQueues.getD s.txQueues
  rxDescriptors := o.rxDescriptors.getD s.rxDescriptors
  txDescriptors := o.txDescriptors.getD s.txDescriptors

/-- A worker's settings with some of them in the places of others. -/
def WorkerOverlay.onto (o : WorkerOverlay) (s : WorkerSettings) : WorkerSettings where
  burstSize := o.burstSize.getD s.burstSize
  ratePps := o.ratePps.getD s.ratePps
  backpressure := o.backpressure.getD s.backpressure
  drainAttempts := o.drainAttempts.getD s.drainAttempts
  alarmThreshold := o.alarmThreshold.getD s.alarmThreshold
  statsIntervalMs := o.statsIntervalMs.getD s.statsIntervalMs

/-- A whole set of settings with some of them in the places of others, section by section. -/
def SettingsOverlay.onto (o : SettingsOverlay) (s : Settings) : Settings where
  pool := (o.pool.getD {}).onto s.pool
  ringCapacity := o.ringCapacity.getD s.ringCapacity
  device := (o.device.getD {}).onto s.device
  worker := (o.worker.getD {}).onto s.worker
  workers := o.workers.getD s.workers
  pinCores := o.pinCores.getD s.pinCores
  dedicatedCores := o.dedicatedCores.getD s.dedicatedCores

/-- The ways to write a backpressure policy: by its name, or as a table of its name alone. -/
def Backpressure.WrittenAs (policy : Backpressure) (v : Value) : Prop :=
  -- A policy that retries has a section of its own, with a single key.
  match policy with
  | .drop => v = .str "drop" ∨ v = .record [("drop", .null)]
  | .retry attempts => ∃ inner present, v = .record [("retry", inner)] ∧
      IsSection ["max_attempts"] present inner ∧ present "max_attempts" = some (.nat attempts.toNat)

/-- The ways to write some of a pool's settings. -/
def PoolOverlay.WrittenAs (o : PoolOverlay) (v : Value) : Prop :=
  ∃ present, IsSection ["capacity", "data_room", "headroom", "numa_node"] present v ∧
    present "capacity" = o.capacity.map (.nat ·.toNat) ∧
    present "data_room" = o.dataRoom.map (.nat ·.toNat) ∧
    present "headroom" = o.headroom.map (.nat ·.toNat) ∧
    present "numa_node" = o.numaNode.map fun node => optionalJson (node.map UInt32.toNat)

/-- The ways to write some of a device's settings. -/
def DeviceOverlay.WrittenAs (o : DeviceOverlay) (v : Value) : Prop :=
  ∃ present, IsSection ["ports", "rx_queues", "tx_queues", "rx_desc", "tx_desc"] present v ∧
    present "ports" = o.ports.map (.nat ·.toNat) ∧
    present "rx_queues" = o.rxQueues.map (.nat ·.toNat) ∧
    present "tx_queues" = o.txQueues.map (.nat ·.toNat) ∧
    present "rx_desc" = o.rxDescriptors.map (.nat ·.toNat) ∧
    present "tx_desc" = o.txDescriptors.map (.nat ·.toNat)

/-- The ways to write some of a worker's settings. -/
def WorkerOverlay.WrittenAs (o : WorkerOverlay) (v : Value) : Prop :=
  ∃ present, IsSection ["burst_size", "rate_pps", "backpressure", "drain_attempts", "alarm_threshold",
      "stats_interval_ms"] present v ∧
    present "burst_size" = o.burstSize.map (.nat ·.toNat) ∧
    present "rate_pps" = (o.ratePps.map fun rate => optionalJson (rate.map UInt64.toNat)) ∧
    Option.Rel Backpressure.WrittenAs o.backpressure (present "backpressure") ∧
    present "drain_attempts" = o.drainAttempts.map (.nat ·.toNat) ∧
    present "alarm_threshold" = o.alarmThreshold.map (.nat ·.toNat) ∧
    present "stats_interval_ms" = o.statsIntervalMs.map (.nat ·.toNat)

/-- The ways to write some of a whole set of settings. -/
def SettingsOverlay.WrittenAs (o : SettingsOverlay) (v : Value) : Prop :=
  ∃ present, IsSection ["pool", "ring_capacity", "device", "worker", "workers", "pin_cores",
      "dedicated_cores"] present v ∧
    Option.Rel PoolOverlay.WrittenAs o.pool (present "pool") ∧
    present "ring_capacity" = o.ringCapacity.map (.nat ·.toNat) ∧
    Option.Rel DeviceOverlay.WrittenAs o.device (present "device") ∧
    Option.Rel WorkerOverlay.WrittenAs o.worker (present "worker") ∧
    present "workers" = o.workers.map (.nat ·.toNat) ∧
    present "pin_cores" = o.pinCores.map Value.bool ∧
    present "dedicated_cores" = o.dedicatedCores.map Value.bool

section Readings

variable {β γ : Type}

/-- A value that is written in one way is read again. -/
theorem reads_map {reading : Value → Option β} {write : β → Value} (read : ∀ part, reading (write part) = some part)
    {choice : Option β} {found : Option Value} (same : found = choice.map write) :
    Option.Rel (fun part value => reading value = some part) choice found := by
  -- There is a value just if there is something to write.
  subst same
  cases choice with
  | none => exact .none
  | some part => exact .some (read part)

/-- A value that is written in several ways is read again. -/
theorem reads_rel (reading : Value → Option β) (make : γ → β) {written : γ → Value → Prop}
    (read : ∀ part value, written part value → reading value = some (make part))
    {choice : Option γ} {found : Option Value} (rel : Option.Rel written choice found) :
    Option.Rel (fun part value => reading value = some part) (choice.map make) found := by
  -- There is a value just if there is something written.
  cases rel with
  | none => exact .none
  | some rel => exact .some (read _ _ rel)

/-- The fields of a pool's settings are apart. -/
theorem PoolSettings.separate : Separate PoolSettings.fields := by
  -- Keys are told apart by looking at them, and each field sets a part of its own.
  refine ⟨by decide, ?_⟩
  simp only [PoolSettings.fields, List.pairwise_cons, List.forall_mem_cons]
  repeat' apply And.intro
  all_goals first | exact Field.commutes_of fun _ _ _ => rfl | simp

/-- The fields of a device's settings are apart. -/
theorem DeviceSettings.separate : Separate DeviceSettings.fields := by
  -- Keys are told apart by looking at them, and each field sets a part of its own.
  refine ⟨by decide, ?_⟩
  simp only [DeviceSettings.fields, List.pairwise_cons, List.forall_mem_cons]
  repeat' apply And.intro
  all_goals first | exact Field.commutes_of fun _ _ _ => rfl | simp

/-- The fields of a worker's settings are apart. -/
theorem WorkerSettings.separate : Separate WorkerSettings.fields := by
  -- Keys are told apart by looking at them, and each field sets a part of its own.
  refine ⟨by decide, ?_⟩
  simp only [WorkerSettings.fields, List.pairwise_cons, List.forall_mem_cons]
  repeat' apply And.intro
  all_goals first | exact Field.commutes_of fun _ _ _ => rfl | simp

/-- The fields of a whole set of settings are apart. -/
theorem Settings.separate : Separate Settings.fields := by
  -- Keys are told apart by looking at them, and each field sets a part of its own.
  refine ⟨by decide, ?_⟩
  simp only [Settings.fields, List.pairwise_cons, List.forall_mem_cons]
  repeat' apply And.intro
  all_goals first | exact Field.commutes_of fun _ _ _ => rfl | simp

/-- A backpressure policy is read from whichever way it is written in. -/
theorem Backpressure.read {policy : Backpressure} {v : Value} (written : policy.WrittenAs v) :
    backpressure? v = some policy := by
  -- By cases on the policy: dropping is a word in one of two places, and retrying is a section.
  cases policy with
  | drop => obtain rfl | rfl := written <;> rfl
  | retry attempts =>
    obtain ⟨inner, present, rfl, isSection, given⟩ := written
    have separate : Separate Backpressure.fields := ⟨by decide, List.pairwise_singleton _ _⟩
    have read : setSection Backpressure.fields none inner = some (some attempts) := by
      rw [setSection_present separate isSection]
      simp [setPresent, Backpressure.fields, Field.of, given, uint32?_nat]
    rw [Value.record, List.map_cons, List.map_nil, backpressure?, read]

/-- Some of a pool's settings are read into the places of others. -/
theorem PoolOverlay.read {o : PoolOverlay} {v : Value} (written : o.WrittenAs v) :
    PoolSettings.ofJson? v = some (o.onto {}) := by
  -- The section sets field after field, and those that are not given keep their defaults.
  obtain ⟨present, isSection, capacity, dataRoom, headroom, numaNode⟩ := written
  rw [PoolSettings.ofJson?, setSection_present PoolSettings.separate isSection, PoolSettings.fields,
    setPresent_of (reads_map uint64?_nat capacity) _ rfl,
    setPresent_of (reads_map uint64?_nat dataRoom) _ rfl,
    setPresent_of (reads_map uint64?_nat headroom) _ rfl,
    setPresent_of (reads_map (nullable?_optionalJson uint32?_nat) numaNode) _ rfl]
  rfl

/-- Some of a device's settings are read into the places of others. -/
theorem DeviceOverlay.read {o : DeviceOverlay} {v : Value} (written : o.WrittenAs v) :
    DeviceSettings.ofJson? v = some (o.onto {}) := by
  -- The section sets field after field, and those that are not given keep their defaults.
  obtain ⟨present, isSection, ports, rxQueues, txQueues, rxDescriptors, txDescriptors⟩ := written
  rw [DeviceSettings.ofJson?, setSection_present DeviceSettings.separate isSection,
    DeviceSettings.fields, setPresent_of (reads_map uint16?_nat ports) _ rfl,
    setPresent_of (reads_map uint16?_nat rxQueues) _ rfl,
    setPresent_of (reads_map uint16?_nat txQueues) _ rfl,
    setPresent_of (reads_map uint64?_nat rxDescriptors) _ rfl,
    setPresent_of (reads_map uint64?_nat txDescriptors) _ rfl]
  rfl

/-- Some of a worker's settings are read into the places of others. -/
theorem WorkerOverlay.read {o : WorkerOverlay} {v : Value} (written : o.WrittenAs v) :
    WorkerSettings.ofJson? v = some (o.onto {}) := by
  -- The section sets field after field, and those that are not given keep their defaults.
  obtain ⟨present, isSection, burstSize, ratePps, backpressure, drainAttempts, alarmThreshold,
    statsIntervalMs⟩ := written
  have policy := reads_rel backpressure? id (fun _ _ => Backpressure.read) backpressure
  rw [Option.map_id_fun, id] at policy
  rw [WorkerSettings.ofJson?, setSection_present WorkerSettings.separate isSection,
    WorkerSettings.fields, setPresent_of (reads_map uint64?_nat burstSize) _ rfl,
    setPresent_of (reads_map (nullable?_optionalJson uint64?_nat) ratePps) _ rfl,
    setPresent_of policy _ rfl, setPresent_of (reads_map uint32?_nat drainAttempts) _ rfl,
    setPresent_of (reads_map uint32?_nat alarmThreshold) _ rfl,
    setPresent_of (reads_map uint64?_nat statsIntervalMs) _ rfl]
  rfl

/-- Some of a whole set of settings are read into the places of the defaults. -/
theorem SettingsOverlay.read {o : SettingsOverlay} {v : Value} (written : o.WrittenAs v) :
    Settings.ofJson? v = some (o.onto {}) := by
  obtain ⟨present, isSection, pool, ringCapacity, device, worker, workers, pinCores,
    dedicatedCores⟩ := written
  have truth : ∀ b, bool? (.bool b) = some b := fun _ => rfl
  have pools := reads_rel PoolSettings.ofJson? (·.onto {}) (fun _ _ => PoolOverlay.read) pool
  have devices := reads_rel DeviceSettings.ofJson? (·.onto {}) (fun _ _ => DeviceOverlay.read) device
  have loops := reads_rel WorkerSettings.ofJson? (·.onto {}) (fun _ _ => WorkerOverlay.read) worker
  rw [Settings.ofJson?, setSection_present Settings.separate isSection, Settings.fields,
    setPresent_of pools _ rfl,
    setPresent_of (reads_map uint64?_nat ringCapacity) _ rfl,
    setPresent_of devices _ rfl,
    setPresent_of loops _ rfl,
    setPresent_of (reads_map uint64?_nat workers) _ rfl,
    setPresent_of (reads_map truth pinCores) _ rfl,
    setPresent_of (reads_map truth dedicatedCores) _ rfl]
  -- A section that is left out keeps its defaults.
  obtain ⟨p, _, d, w, _, _, _⟩ := o
  cases p <;> cases d <;> cases w <;> rfl

end Readings

namespace Settings

/-- Whatever settings a text gives, and in whichever way it is written, it loads as the defaults with these
in their places, if they can be used. And whatever is loaded from a file can be used. -/
theorem load_overlay :
    (∀ (o : SettingsOverlay) (v : Value) (text : String), o.WrittenAs v → v.WrittenAs text →
      load text = (o.onto {}).validate ∧ loadBytes text.toUTF8 = (o.onto {}).validate) ∧
    ∀ (bytes : ByteArray) (s : Settings), loadBytes bytes = .ok s → s.validate = .ok s := by
  -- The text is read as the value, and the value as the defaults with the given settings in place.
  refine ⟨?_, fun bytes s => validate_of_loadBytes⟩
  intro o v text given written
  have loaded : load text = (o.onto {}).validate := by
    simp only [load, parse, Json.read?_of_writtenAs written, SettingsOverlay.read given]
  exact ⟨loaded, (loadBytes_toUTF8 text).trans loaded⟩

/-- A pool of another capacity than the default. -/
def smallPool : SettingsOverlay :=
  { pool := some { capacity := some 64 } }

/-- It is written as a list, behind a key that is not known. -/
theorem smallPool_writtenAs : smallPool.WrittenAs
    (.table [(some "x", .list [.number "-1.5e3"]), (some "pool", .list [.nat 64])]) := by
  -- The section is written alone first, and the other key is put in front of it.
  have pool : PoolOverlay.WrittenAs { capacity := some 64 } (.list [.nat 64]) :=
    ⟨fun key => if key = "capacity" then some (.nat 64) else none, .list rfl, rfl, rfl, rfl, rfl⟩
  have alone : IsSection ["pool", "ring_capacity", "device", "worker", "workers", "pin_cores",
      "dedicated_cores"] (fun key => if key = "pool" then some (.list [.nat 64]) else none)
      (.table [(some "pool", .list [.nat 64])]) := .table (by decide) (by simp [valuesUnder])
  exact ⟨_, alone.insert (by decide) _, .some pool, rfl, .none, .none, rfl, rfl, rfl⟩

/-- The name of its section is written with an escape. -/
theorem spelling_escaped : Json.Token.Spelling (.text (some "pool"))
    ['"', 'p', '\\', 'u', '0', '0', '6', 'f', 'o', 'l', '"'] := by
  -- Its second character is written as a unit of four digits, and the others as they are.
  have first : Json.Piece.Spelling (.char 'p') ['p'] := .plain (by decide) (by decide) (by decide)
  have third : Json.Piece.Spelling (.char 'o') ['o'] := .plain (by decide) (by decide) (by decide)
  have last : Json.Piece.Spelling (.char 'l') ['l'] := .plain (by decide) (by decide) (by decide)
  have unit : Json.Piece.Spelling (.unit 0x6f) ['\\', 'u', '0', '0', '6', 'f'] :=
    .unit (a := 0) (b := 0) (c := 6) (d := 15) ⟨by decide, by decide⟩ ⟨by decide, by decide⟩
      ⟨by decide, by decide⟩ ⟨by decide, by decide⟩
  exact .text (.cons first (.cons unit (.cons third (.cons last .nil)))) (Json.joins_some rfl)

/-- A single digit. -/
theorem isDigits_singleton {c : Char} (digit : c.isDigit = true) : Json.IsDigits [c] :=
  ⟨List.cons_ne_nil c [], List.forall_mem_singleton.mpr digit⟩

/-- What is under the other key has a sign, a fraction and an exponent. -/
theorem spelling_signed : Json.Token.Spelling (.number "-1.5e3") ['-', '1', '.', '5', 'e', '3'] :=
  .number ⟨['-'], ['1'], ['.', '5'], ['e', '3'], rfl, .inr rfl,
    ⟨isDigits_singleton rfl, by decide⟩, .inr ⟨['5'], rfl, isDigits_singleton rfl⟩,
    .inr ⟨'e', [], ['3'], rfl, .inl rfl, .inl rfl, isDigits_singleton rfl⟩⟩

/-- The capacity has two digits. -/
theorem spelling_capacity :
    Json.Token.Spelling (.number (String.ofList (Json.decimal 64))) ['6', '4'] := by
  have digits : Json.decimal 64 = ['6', '4'] := by
    -- The quotient has a single digit.
    rw [Json.decimal, if_neg (by decide), Json.decimal, if_pos (by decide)]
    rfl
  rw [digits]
  have all : Json.IsDigits ['6', '4'] := digits ▸ Json.decimal_digits 64
  exact .number ⟨[], ['6', '4'], [], [], rfl, .inl rfl, ⟨all, by decide⟩, .inl rfl, .inl rfl⟩

/-- With blanks between some of these words and none between others, they load as that pool among the
defaults. -/
theorem load_overlay_respelled :
    let v : Value := .table [(some "x", .list [.number "-1.5e3"]), (some "pool", .list [.nat 64])]
    let text := "\x7b\"x\" : [-1.5e3],\n\"p\\u006fol\":[64]\x7d"
    smallPool.WrittenAs v ∧ v.WrittenAs text ∧ load text = .ok { pool := { capacity := 64 } } := by
  -- How the text is written is shown character by character, and the theorem then tells what it loads
  -- as.
  intro v text
  have key : Json.Token.Spelling (.text (some "x")) ['"', 'x', '"'] :=
    .text (.cons (.plain (by decide) (by decide) (by decide)) .nil) (Json.joins_some rfl)
  have written : v.WrittenAs text := by
    have chars : text.toList = ['\x7b'] ++ (['"', 'x', '"'] ++ ' ' :: ([':'] ++ ' ' :: (['['] ++
        (['-', '1', '.', '5', 'e', '3'] ++ ([']'] ++ ([','] ++ '\n' ::
          (['"', 'p', '\\', 'u', '0', '0', '6', 'f', 'o', 'l', '"'] ++ ([':'] ++ (['['] ++
            (['6', '4'] ++ ([']'] ++ (['\x7d'] ++ [])))))))))))) := by decide
    rw [Value.WrittenAs, chars]
    exact .word .openTable (.word key (.blank (by decide) (.word .colon (.blank (by decide)
      (.word .openList (.word spelling_signed (.word .closeList (.word .comma (.blank (by decide)
        (.word spelling_escaped (.word .colon (.word .openList (.word spelling_capacity
          (.word .closeList (.word .closeTable .done)))))))))))))))
  have usable : (smallPool.onto {}).fault? = none := by decide
  have loaded := (load_overlay.1 smallPool v text smallPool_writtenAs written).1
  rw [validate, usable] at loaded
  exact ⟨smallPool_writtenAs, written, loaded⟩

end Settings

end PacketPlane
