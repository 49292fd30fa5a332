import BankAsm.Proofs.LabelTable
import BankAsm.Proofs.Layout.Places

/-!
# Labels and places

What a placed statement does to the labels: it keeps every entry of the table, and
if it has a label it adds one behind them all, whose byte is its address or, for an
assignment, the byte of its octet (`Labels`). What an assignment or a relocation
reads of the table is there to be read (`Places.reads`).
-/

namespace BankAsm

/-- The names that statements bind, in order. -/
def Statement.labelNames (statements : List Statement) : List String :=
  statements.filterMap fun s => s.label.map (·.name)

@[simp] theorem Statement.labelNames_nil : Statement.labelNames [] = [] := rfl

@[simp] theorem Statement.labelNames_append (front back : List Statement) :
    Statement.labelNames (front ++ back)
      = Statement.labelNames front ++ Statement.labelNames back :=
  List.filterMap_append

@[simp] theorem Statement.labelNames_singleton (s : Statement) :
    Statement.labelNames [s] = (s.label.map (·.name)).toList := by
  cases label : s.label with
  | none => simp [labelNames, label]
  | some l => simp [labelNames, label]

namespace Layout

open LabelTable (Binds Grows)

/-- The byte that a placed statement with these octets gives its label, when the
table has these entries in front. -/
inductive Labels (earlier : List (String × UInt8)) (code : List Octet) (placed : Placed)
    (value : UInt8) : Prop where
  /-- The address of the statement, which is a byte. -/
  | address
      (role : placed.statement.role ≠ .assign)
      (room : placed.address < bankSize)
      (exact : value.toNat = placed.address)
  /-- The byte that an assignment names. -/
  | byte
      (role : placed.statement.role = .assign)
      (spelled : code = [.byte value])
  /-- The byte of an earlier entry that an assignment names. -/
  | entry {name position}
      (role : placed.statement.role = .assign)
      (spelled : code = [.label name position])
      (known : (name, value) ∈ earlier)

variable {before after : Layout} {s : Statement} {code : List Octet} {placed : Placed}

/-- An address within a bank is the byte that it is cut down to. -/
theorem toNat_ofNat_of_lt_bankSize {address : Nat} (room : address < bankSize) :
    (UInt8.ofNat address).toNat = address := by
  unfold bankSize at room
  simp only [UInt8.toNat_ofNat']
  omega

/-- A constant that is known is a byte, or the byte of an entry of the table. -/
theorem constant_cases {layout : Layout} {octet : Octet} {value : UInt8}
    (known : layout.constant octet = .ok value) :
    octet = .byte value ∨
      ∃ name position, octet = .label name position ∧ layout.labels.find? name = some value := by
  unfold constant at known
  split at known
  case h_1 =>
    cases known
    exact .inl rfl
  case h_2 name position =>
    split at known
    case h_1 found =>
      cases known
      exact .inr ⟨name, position, rfl, found⟩
    case h_2 => cases known
  case h_3 => cases known

/-- Among constants that are known, each of them is. -/
theorem exists_constant_of_constants {layout : Layout} {octets : List Octet}
    {values : List UInt8} (known : layout.constants octets = .ok values) :
    ∀ octet ∈ octets, ∃ value, layout.constant octet = .ok value := by
  induction octets generalizing values with
  | nil => simp
  | cons first others inductionHypothesis =>
    obtain ⟨value, here, behind⟩ := Outcome.bind_eq_ok_iff.mp known
    obtain ⟨rest, knownRest, _⟩ := Outcome.bind_eq_ok_iff.mp behind
    intro octet member
    rcases List.mem_cons.mp member with rfl | later
    · exact ⟨value, here⟩
    · exact inductionHypothesis knownRest octet later

/-- The mode of a relocation is a byte. -/
theorem mode_of_ofBytes? {mode : Octet} {values : List UInt8} {relocation : Relocation}
    (relocates : Relocation.ofBytes? mode values = some relocation) :
    ∃ byte, mode = .byte byte := by
  cases mode with
  | byte value => exact ⟨value, rfl⟩
  | label name position => simp [Relocation.ofBytes?] at relocates
  | vector direction steps position => simp [Relocation.ofBytes?] at relocates

/-- A label that an assignment or a relocation names is known to it. -/
theorem Places.reads {name : String} {position : Position}
    (places : Places before s code after placed) (role : s.role ≠ .emit)
    (member : .label name position ∈ code) :
    ∃ value, before.constant (.label name position) = .ok value := by
  cases places with
  | @assign octet value _ _ spelled known _ =>
    rw [spelled] at member
    rw [List.mem_singleton.mp member]
    exact ⟨value, known⟩
  | locate _ spelled known relocates _ _ _ _ =>
    rw [spelled] at member
    rcases List.mem_cons.mp member with first | later
    · obtain ⟨byte, isByte⟩ := mode_of_ofBytes? relocates
      rw [isByte] at first
      cases first
    · exact exists_constant_of_constants known _ later
  | emit emits _ _ _ => exact absurd emits role

/-- A placed statement binds its label to its address, or to what it assigns. -/
theorem Places.binds (places : Places before s code after placed) :
    ∃ value, Binds before.labels s.label value after.labels ∧
      (s.label.isSome → Labels before.labels.entries code placed value) := by
  cases places with
  | @assign octet value _ role spelled known bound =>
    refine ⟨value, bound, fun _ => ?_⟩
    rcases constant_cases known with rfl | ⟨name, position, rfl, found⟩
    · exact .byte role spelled
    · exact .entry role spelled (LabelTable.mem_entries_of_find? found)
  | @locate _ _ _ _ moved _ role _ _ _ _ _ room bound =>
    refine ⟨UInt8.ofNat moved.address, bound, fun labelled => ?_⟩
    exact .address (by simp [role]) (room labelled)
      (toNat_ofNat_of_lt_bankSize (room labelled))
  | @emit _ role room _ bound =>
    refine ⟨UInt8.ofNat before.address, bound, fun labelled => ?_⟩
    exact .address (by simp [role]) (room labelled)
      (toNat_ofNat_of_lt_bankSize (room labelled))

end Layout

namespace LabelTable

variable {before after : LabelTable} {label : Option Label} {value : UInt8}

/-- A table grows when a label is bound. -/
theorem Binds.grows (bound : Binds before label value after) : Grows before after :=
  ⟨_, bound.entries.symm⟩

/-- The name of a label that is bound comes last. -/
theorem Binds.names_eq (bound : Binds before label value after) :
    after.names = before.names ++ (label.map (·.name)).toList := by
  unfold names
  rw [bound.entries, List.map_append]
  cases label <;> rfl

/-- Binding a label keeps the names distinct. -/
theorem Binds.nodup (bound : Binds before label value after) (distinct : before.names.Nodup) :
    after.names.Nodup := by
  rw [bound.names_eq]
  cases label with
  | none => simpa using distinct
  | some label =>
    have fresh := find?_eq_none_iff.mp (bound.fresh label.name (by simp))
    refine List.nodup_append.mpr ⟨distinct, by simp, ?_⟩
    rintro name member _ last rfl
    rw [List.mem_singleton.mp last] at member
    exact fresh member

end LabelTable

end BankAsm
