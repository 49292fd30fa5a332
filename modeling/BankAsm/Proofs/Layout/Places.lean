import BankAsm.Layout
import BankAsm.Proofs.Outcome

/-!
# What placing does

`Places` says, with one case for each role, what a statement does to the layout
when nothing is reported, the conditions that had to hold included. Everything
known of placed statements is read off `places_of_place`.
-/

namespace BankAsm

namespace LabelTable

/-- A label, if there is one, is bound to a byte behind all the others. -/
structure Binds (before : LabelTable) (label : Option Label) (value : UInt8)
    (after : LabelTable) : Prop where
  fresh : ∀ name ∈ label.map (·.name), before.find? name = none
  entries : after.entries = before.entries ++ (label.map fun l => (l.name, value)).toList

/-- Without a label nothing is bound. -/
theorem Binds.none (table : LabelTable) (value : UInt8) : Binds table none value table where
  fresh := by simp
  entries := by simp

/-- A name without a byte takes the last place. -/
theorem Binds.insert {table : LabelTable} {label : Label} (value : UInt8)
    (absent : table.find? label.name = Option.none) :
    Binds table (some label) value (table.insert label.name value) where
  fresh := by simpa using absent
  entries := by simpa [LabelTable.insert] using insertEntry_of_lookup_eq_none absent

end LabelTable

namespace Layout

open LabelTable (Binds)

/-- What a statement does to the layout, by its role, when it finds its place. -/
inductive Places (before : Layout) (s : Statement) (code : List Octet) :
    Layout → Placed → Prop where
  | assign {octet value labels}
      (role : s.role = .assign)
      (spelled : code = [octet])
      (known : before.constant octet = .ok value)
      (bound : Binds before.labels s.label value labels) :
      Places before s code { before with labels } ⟨s, before.bank, before.address, []⟩
  | locate {mode octets values relocation moved labels}
      (role : s.role = .locate)
      (spelled : code = mode :: octets)
      (known : before.constants octets = .ok values)
      (relocates : Relocation.ofBytes? mode values = some relocation)
      (target : moved = before.move relocation)
      (populated : moved.bank < moved.banks)
      (room : s.label.isSome → moved.address < bankSize)
      (bound : Binds before.labels s.label (UInt8.ofNat moved.address) labels) :
      Places before s code { moved with labels } ⟨s, moved.bank, moved.address, []⟩
  | emit {labels}
      (role : s.role = .emit)
      (room : s.label.isSome → before.address < bankSize)
      (fits : before.address + code.length ≤ bankSize)
      (bound : Binds before.labels s.label (UInt8.ofNat before.address) labels) :
      Places before s code { before with address := before.address + code.length, labels }
        ⟨s, before.bank, before.address, code⟩

/-- What is placed is the statement. -/
theorem Places.statement_eq {before after : Layout} {s : Statement} {code : List Octet}
    {placed : Placed} (places : Places before s code after placed) : placed.statement = s := by
  cases places <;> rfl

@[simp] theorem move_labels (layout : Layout) (relocation : Relocation) :
    (layout.move relocation).labels = layout.labels := by
  cases relocation <;> rfl

@[simp] theorem move_banks (layout : Layout) (relocation : Relocation) :
    (layout.move relocation).banks = layout.banks := by
  cases relocation <;> rfl

/-- Binding changes the labels only, and only by an entry of a new name. -/
theorem binds_of_bind {layout after : Layout} {label : Label} {value : UInt8}
    (step : layout.bind label value = .ok after) :
    ∃ labels, after = { layout with labels } ∧ Binds layout.labels (some label) value labels := by
  unfold bind at step
  split at step
  case isTrue => cases step
  case isFalse absent =>
    cases step
    refine ⟨_, rfl, Binds.insert value ?_⟩
    simpa [LabelTable.contains] using absent

/-- A label that is bound to the address stands at an address within the bank. -/
theorem binds_of_bindHere {layout after : Layout} {s : Statement}
    (step : layout.bindHere s = .ok after) :
    (s.label.isSome → layout.address < bankSize) ∧
      ∃ labels, after = { layout with labels } ∧
        Binds layout.labels s.label (UInt8.ofNat layout.address) labels := by
  unfold bindHere at step
  split at step
  case h_1 unlabelled =>
    cases step
    refine ⟨by simp [unlabelled], layout.labels, rfl, ?_⟩
    rw [unlabelled]
    exact Binds.none _ _
  case h_2 label labelled =>
    split at step
    case isTrue room =>
      refine ⟨fun _ => room, ?_⟩
      rw [labelled]
      exact binds_of_bind step
    case isFalse => cases step

/-- The cases of an assignment that is placed. -/
theorem places_of_placeAssign {layout after : Layout} {s : Statement} {code : List Octet}
    {placed : Placed} (role : s.role = .assign)
    (step : layout.placeAssign s code = ⟨after, .ok placed⟩) :
    Places layout s code after placed := by
  unfold placeAssign at step
  split at step
  case h_2 => cases step
  case h_1 reached assigned =>
    cases step
    unfold assign at assigned
    split at assigned
    case h_2 => cases assigned
    case h_1 octet =>
      obtain ⟨value, known, boundHere⟩ := Outcome.bind_eq_ok_iff.mp assigned
      split at boundHere
      case h_1 unlabelled =>
        cases boundHere
        refine .assign role rfl known ?_
        rw [unlabelled]
        exact Binds.none _ _
      case h_2 label labelled =>
        obtain ⟨labels, rfl, bound⟩ := binds_of_bind boundHere
        exact .assign role rfl known (labelled ▸ bound)

/-- The relocation that an encoding spells, with the constants it is spelled by. -/
theorem relocation_of_relocate {layout moved : Layout} {s : Statement} {code : List Octet}
    (step : layout.relocate s code = .ok moved) :
    ∃ mode octets values relocation, code = mode :: octets ∧
      layout.constants octets = .ok values ∧
      Relocation.ofBytes? mode values = some relocation ∧ moved = layout.move relocation := by
  unfold relocate at step
  split at step
  case h_1 => cases step
  case h_2 mode octets =>
    obtain ⟨values, known, moves⟩ := Outcome.bind_eq_ok_iff.mp step
    split at moves
    case h_2 => cases moves
    case h_1 relocation spelled =>
      cases moves
      exact ⟨mode, octets, values, relocation, rfl, known, spelled, rfl⟩

/-- The cases of a relocation that is placed. -/
theorem places_of_placeLocate {layout after : Layout} {s : Statement} {code : List Octet}
    {placed : Placed} (role : s.role = .locate)
    (step : layout.placeLocate s code = ⟨after, .ok placed⟩) :
    Places layout s code after placed := by
  unfold placeLocate at step
  split at step
  case h_1 => cases step
  case h_2 moved relocated =>
    split at step
    case isFalse => cases step
    case isTrue populated =>
      split at step
      case h_2 => cases step
      case h_1 reached boundHere =>
        cases step
        obtain ⟨mode, octets, values, relocation, spelled, known, relocates, target⟩ :=
          relocation_of_relocate relocated
        obtain ⟨room, labels, rfl, bound⟩ := binds_of_bindHere boundHere
        have sameLabels : moved.labels = layout.labels := by rw [target, move_labels]
        rw [sameLabels] at bound
        exact .locate role spelled known relocates target populated room bound

/-- The cases of a statement whose octets are placed. -/
theorem places_of_placeOctets {layout after : Layout} {s : Statement} {code : List Octet}
    {placed : Placed} (role : s.role = .emit)
    (step : layout.placeOctets s code = ⟨after, .ok placed⟩) :
    Places layout s code after placed := by
  unfold placeOctets at step
  split at step
  case h_1 => cases step
  case h_2 reached boundHere =>
    obtain ⟨room, labels, rfl, bound⟩ := binds_of_bindHere boundHere
    simp only at step
    split at step
    case isFalse => cases step
    case isTrue fits =>
      cases step
      exact .emit role room fits bound

/-- A statement that is placed did what its role says. -/
theorem places_of_place {layout after : Layout} {s : Statement} {code : List Octet}
    {placed : Placed} (step : layout.place s code = ⟨after, .ok placed⟩) :
    Places layout s code after placed := by
  unfold place at step
  cases role : s.role with
  | assign => exact places_of_placeAssign role (by simpa [role] using step)
  | locate => exact places_of_placeLocate role (by simpa [role] using step)
  | emit => exact places_of_placeOctets role (by simpa [role] using step)

end Layout

end BankAsm
