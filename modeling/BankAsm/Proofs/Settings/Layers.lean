import BankAsm.Proofs.LabelTable
import BankAsm.Settings

/-!
# Settings in layers

The settings of a configuration with the command line laid over it, setting by setting
(`Layers`): what the command line says is in effect, then what the configuration says, then what
holds otherwise. So it does not matter in which of the two layers something is said that the
other one leaves open.
-/

namespace BankAsm

/-- Which value is in effect: the one that is overridden with, else the configured one, else the
one that holds otherwise. -/
inductive InEffect {α : Type} (otherwise : α) : Option α → Option α → α → Prop where
  | overridden {value configured} : InEffect otherwise (some value) configured value
  | configured {value} : InEffect otherwise none (some value) value
  | otherwise : InEffect otherwise none none otherwise

theorem inEffect_iff {α : Type} {otherwise value : α} {overriding configured : Option α} :
    InEffect otherwise overriding configured value
      ↔ (overriding.or configured).getD otherwise = value := by
  constructor
  · rintro (_ | _ | _) <;> rfl
  · rintro rfl
    cases overriding with
    | some value => exact .overridden
    | none =>
      cases configured with
      | some value => exact .configured
      | none => exact .otherwise

/-- What a name stands for: the byte of its last definition, or the configured one if it has no
definition. -/
inductive StandsFor (labels : LabelTable) (definitions : List (String × UInt8)) (name : String)
    (value : UInt8) : Prop where
  | defined {earlier later}
      (whole : definitions = earlier ++ (name, value) :: later)
      (last : ∀ definition ∈ later, definition.1 ≠ name) : StandsFor labels definitions name value
  | configured
      (undefined : ∀ definition ∈ definitions, definition.1 ≠ name)
      (listed : (name, value) ∈ labels.entries) : StandsFor labels definitions name value

section Labels

variable {definitions : List (String × UInt8)} {name : String} {value : UInt8}

/-- The first entry of a name from the end is its last. -/
theorem lookup_reverse_eq_some_iff : definitions.reverse.lookup name = some value ↔
    ∃ earlier later, definitions = earlier ++ (name, value) :: later ∧
      ∀ definition ∈ later, definition.1 ≠ name := by
  rw [List.lookup_eq_some_iff]
  constructor
  · rintro ⟨later, earlier, whole, last⟩
    refine ⟨earlier.reverse, later.reverse, ?_, fun definition member => ?_⟩
    · rw [← List.reverse_reverse definitions, whole]
      simp
    · simpa using Ne.symm (by simpa using last definition (List.mem_reverse.mp member))
  · rintro ⟨earlier, later, rfl, last⟩
    refine ⟨later.reverse, earlier.reverse, by simp, fun definition member => ?_⟩
    simpa using Ne.symm (last definition (List.mem_reverse.mp member))

theorem lookup_reverse_eq_none_iff : definitions.reverse.lookup name = none ↔
    ∀ definition ∈ definitions, definition.1 ≠ name := by
  rw [List.lookup_eq_none_iff]
  simp only [List.mem_reverse, bne_iff_ne, ne_comm]

/-- A name has the byte of a table with definitions that it stands for. -/
theorem find?_insertAll_iff_standsFor {labels : LabelTable} (distinct : labels.names.Nodup) :
    (labels.insertAll definitions).find? name = some value
      ↔ StandsFor labels definitions name value := by
  rw [LabelTable.find?_insertAll]
  constructor
  · intro found
    cases last : definitions.reverse.lookup name with
    | some byte =>
      obtain ⟨earlier, later, whole, last⟩ := lookup_reverse_eq_some_iff.mp last
      simp only [‹definitions.reverse.lookup name = some byte›, Option.some_or,
        Option.some.injEq] at found
      exact .defined (found ▸ whole) last
    | none =>
      rw [last, Option.none_or] at found
      exact .configured (lookup_reverse_eq_none_iff.mp last) (LabelTable.mem_entries_of_find? found)
  · rintro (⟨whole, last⟩ | ⟨undefined, listed⟩)
    · rw [lookup_reverse_eq_some_iff.mpr ⟨_, _, whole, last⟩, Option.some_or]
    · obtain ⟨earlier, later, whole⟩ := List.append_of_mem listed
      rw [lookup_reverse_eq_none_iff.mpr undefined, Option.none_or]
      exact LabelTable.find?_of_entries whole distinct

end Labels

/-- How the settings come out of a configuration and the command line. -/
structure Layers (config : Config) (overrides : Overrides) : Prop where
  /-- There are settings exactly if the bank count that is in effect lies in its range. -/
  accepted : (∃ settings, config.override overrides = .ok settings) ↔
    ∃ banks, InEffect 1 overrides.banks config.banks banks ∧ 1 ≤ banks ∧ banks ≤ 256
  /-- A bank count is refused if it is in effect and out of its range. -/
  refused (fault : BankCountFault) : config.override overrides = .error fault ↔
    InEffect 1 overrides.banks config.banks fault.banks ∧ ¬(1 ≤ fault.banks ∧ fault.banks ≤ 256)
  /-- The bank count is the one in effect. -/
  banks (settings : Settings) (given : config.override overrides = .ok settings) :
    InEffect 1 overrides.banks config.banks settings.banks
  /-- The format is the one in effect. -/
  format (settings : Settings) (given : config.override overrides = .ok settings) :
    InEffect .flat overrides.format config.format settings.format
  /-- The fill is the configured one, or zero. -/
  fill (settings : Settings) (given : config.override overrides = .ok settings) :
    InEffect 0 none config.fill settings.fill
  /-- A label is its last definition, or what is configured. -/
  labels (settings : Settings) (given : config.override overrides = .ok settings)
    (name : String) (value : UInt8) :
    settings.labels.find? name = some value
      ↔ StandsFor config.labels overrides.definitions name value
  /-- The configured labels come first, then the others in the order of their first
  definitions. -/
  names (settings : Settings) (given : config.override overrides = .ok settings) :
    settings.labels.names = config.labels.names
      ++ ((overrides.definitions.map (·.1)).filter (· ∉ config.labels.names)).eraseDups
  /-- A bank count that the command line leaves open may be said there. -/
  moveBanks (unsaid : overrides.banks = none) :
    { config with banks := none }.override { overrides with banks := config.banks }
      = config.override overrides
  /-- A format that the command line leaves open may be said there. -/
  moveFormat (unsaid : overrides.format = none) :
    { config with format := none }.override { overrides with format := config.format }
      = config.override overrides
  /-- The last labels of a configuration may be defined in front of all definitions. -/
  moveLabels (front back : List (String × UInt8)) (whole : config.labels.entries = front ++ back) :
    { config with labels := ⟨front⟩ }.override
        { overrides with definitions := back ++ overrides.definitions }
      = config.override overrides

section Override

variable {config : Config} {overrides : Overrides}

/-- There are settings if the bank count that is in effect lies in its range, and they are laid
out of both layers one by one. -/
theorem Config.override_eq_ok_iff {settings : Settings} :
    config.override overrides = .ok settings ↔
      InEffect 1 overrides.banks config.banks settings.banks ∧
        (1 ≤ settings.banks ∧ settings.banks ≤ 256) ∧
        InEffect .flat overrides.format config.format settings.format ∧
        InEffect 0 none config.fill settings.fill ∧
        settings.labels = config.labels.insertAll overrides.definitions := by
  obtain ⟨banks, format, fill, labels⟩ := settings
  simp only [inEffect_iff, Option.none_or, override, maxBanks]
  generalize (overrides.banks.or config.banks).getD 1 = inEffect
  by_cases within : 1 ≤ inEffect ∧ inEffect ≤ 256
  · simp only [within, and_self, if_true, Except.ok.injEq, Settings.mk.injEq]
    constructor
    · rintro ⟨rfl, rfl, rfl, rfl⟩
      exact ⟨rfl, within, rfl, rfl, rfl⟩
    · rintro ⟨rfl, _, rfl, rfl, rfl⟩
      exact ⟨rfl, rfl, rfl, rfl⟩
  · simp only [within, if_false, reduceCtorEq, false_iff]
    rintro ⟨rfl, inside, _⟩
    exact within inside

/-- A bank count is refused if it is in effect and out of its range. -/
theorem Config.override_eq_error_iff {fault : BankCountFault} :
    config.override overrides = .error fault ↔
      InEffect 1 overrides.banks config.banks fault.banks ∧
        ¬(1 ≤ fault.banks ∧ fault.banks ≤ 256) := by
  obtain ⟨banks⟩ := fault
  simp only [inEffect_iff, override, maxBanks]
  generalize (overrides.banks.or config.banks).getD 1 = inEffect
  by_cases within : 1 ≤ inEffect ∧ inEffect ≤ 256
  · simp only [within, and_self, if_true, reduceCtorEq, false_iff]
    rintro ⟨rfl, outside⟩
    exact outside within
  · simp only [within, if_false, Except.error.injEq, BankCountFault.mk.injEq]
    constructor
    · rintro rfl
      exact ⟨rfl, within⟩
    · exact And.left

end Override

/-- Settings are laid over each other one by one: the command line goes before the configuration,
only the bank count that is in effect has to lie in its range, and labels keep the places in
which their names come first. What only one of the two layers says may as well be said in the
other. -/
theorem Config.layers_override {config : Config} (distinct : config.labels.names.Nodup)
    (overrides : Overrides) : Layers config overrides where
  accepted := by
    constructor
    · rintro ⟨settings, given⟩
      obtain ⟨banks, within, _⟩ := override_eq_ok_iff.mp given
      exact ⟨settings.banks, banks, within⟩
    · rintro ⟨banks, inEffect, within⟩
      cases given : config.override overrides with
      | ok settings => exact ⟨settings, rfl⟩
      | error fault =>
        obtain ⟨same, outside⟩ := override_eq_error_iff.mp given
        rw [inEffect_iff] at inEffect same
        rw [← same, inEffect] at outside
        exact absurd within outside
  refused _ := override_eq_error_iff
  banks _ given := (override_eq_ok_iff.mp given).1
  format _ given := (override_eq_ok_iff.mp given).2.2.1
  fill _ given := (override_eq_ok_iff.mp given).2.2.2.1
  labels settings given name value := by
    rw [(override_eq_ok_iff.mp given).2.2.2.2]
    exact find?_insertAll_iff_standsFor distinct
  names settings given := by
    rw [(override_eq_ok_iff.mp given).2.2.2.2]
    exact LabelTable.names_insertAll _ _
  moveBanks unsaid := by simp [override, unsaid]
  moveFormat unsaid := by simp [override, unsaid]
  moveLabels front back whole := by
    rw [LabelTable.names, whole] at distinct
    have inserted := LabelTable.insertAll_of_nodup distinct
    rw [← whole] at inserted
    simp only [override, LabelTable.insertAll_append, inserted]

/-- A bank count out of range that is overridden, and a configured label that is defined again
twice, around a new one. -/
theorem Config.layers_override_of_redefinition :
    ∃ config overrides settings,
      config.banks = some 300 ∧ overrides.banks = some 2 ∧
      config.labels.entries = [("screen", 0x10), ("mask", 0x0F)] ∧
      overrides.definitions = [("mask", 0x01), ("row", 0x02), ("mask", 0x03)] ∧
      Layers config overrides ∧ config.override overrides = .ok settings ∧
      settings.labels.entries = [("screen", 0x10), ("mask", 0x03), ("row", 0x02)] := by
  refine ⟨⟨some 300, none, some 0x2A, ⟨[("screen", 0x10), ("mask", 0x0F)]⟩⟩,
    ⟨some 2, some .banks, [("mask", 0x01), ("row", 0x02), ("mask", 0x03)]⟩, _, rfl, rfl, rfl, rfl,
    layers_override ?_ _, rfl, ?_⟩
  · decide
  · decide

end BankAsm
