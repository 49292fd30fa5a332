import BankAsm.Proofs.Layout.Labels

/-!
# When statements find their place

A statement finds its place exactly when `Places` holds of it (`place_eq_ok_iff`): what it
lists of the labels, the constants and the room is all that placing asks for.
-/

namespace BankAsm

namespace LabelTable

variable {before after : LabelTable} {label other : Option Label} {value : UInt8}

/-- What is bound without a label. -/
theorem Binds.eq_of_none (bound : Binds before Option.none value after) :
    after = before := by
  obtain ⟨entries⟩ := after
  have same := bound.entries
  simp only [Option.map_none, Option.toList_none, List.append_nil] at same
  rw [same]

/-- What is bound with a label is its name. -/
theorem Binds.congr (bound : Binds before label value after)
    (names : other.map (·.name) = label.map (·.name)) : Binds before other value after where
  fresh := by
    rw [names]
    exact bound.fresh
  entries := by
    have pairs (l : Option Label) :
        l.map (fun l => (l.name, value)) = (l.map (·.name)).map fun name => (name, value) := by
      rw [Option.map_map]
      rfl
    rw [bound.entries, pairs, pairs, names]

end LabelTable

namespace Layout

open LabelTable (Binds)

variable {before after : Layout} {s : Statement} {code : List Octet} {placed : Placed}
  {labels : LabelTable} {value : UInt8}

/-- A label that is not bound yet can be bound. -/
theorem bind_of_binds {label : Label} (bound : Binds before.labels (some label) value labels) :
    before.bind label value = .ok { before with labels } := by
  have absent : before.labels.find? label.name = none := bound.fresh _ (by simp)
  have inserted : before.labels.insert label.name value = labels := by
    obtain ⟨entries⟩ := labels
    have whole : entries = before.labels.entries ++ [(label.name, value)] := bound.entries
    rw [whole]
    exact congrArg LabelTable.mk (LabelTable.insertEntry_of_lookup_eq_none absent)
  simp [bind, LabelTable.contains, absent, inserted]

/-- A label that is not bound yet can be bound to an address within the bank. -/
theorem bindHere_of_binds (room : s.label.isSome → before.address < bankSize)
    (bound : Binds before.labels s.label (UInt8.ofNat before.address) labels) :
    before.bindHere s = .ok { before with labels } := by
  unfold bindHere
  cases labelled : s.label with
  | none =>
    rw [labelled] at bound
    rw [bound.eq_of_none]
  | some label =>
    rw [labelled] at bound
    have inside : before.address < bankSize := room (by simp [labelled])
    simp only [inside, if_true, bind_of_binds bound]

/-- What `Places` says of a statement is enough for it to be placed. -/
theorem place_of_places (places : Places before s code after placed) :
    before.place s code = ⟨after, .ok placed⟩ := by
  cases places with
  | @assign octet value labels role spelled known bound =>
    have assigned : before.assign s code = .ok { before with labels } := by
      simp only [assign, spelled, known]
      cases labelled : s.label with
      | none =>
        rw [labelled] at bound
        rw [bound.eq_of_none]
        rfl
      | some label =>
        rw [labelled] at bound
        exact bind_of_binds bound
    simp only [place, role, placeAssign, assigned]
    rfl
  | @locate mode octets values relocation moved labels role spelled known relocates target
      populated room bound =>
    have relocated : before.relocate s code = .ok moved := by
      simp only [relocate, spelled, known, Bind.bind, Except.bind, relocates, target]
      rfl
    have sameLabels : moved.labels = before.labels := by rw [target, move_labels]
    rw [← sameLabels] at bound
    simp only [place, role, placeLocate, relocated, populated, if_true,
      bindHere_of_binds room bound]
    rfl
  | emit role room fits bound =>
    simp only [place, role, placeOctets, bindHere_of_binds room bound, fits, if_true]
    rfl

/-- A statement is placed exactly as `Places` says. -/
theorem place_eq_ok_iff :
    before.place s code = ⟨after, .ok placed⟩ ↔ Places before s code after placed := by
  constructor
  · exact places_of_place
  · exact place_of_places

end Layout

end BankAsm
