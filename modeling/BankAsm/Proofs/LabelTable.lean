import BankAsm.LabelTable
import Mathlib.Data.List.Induction

/-!
# Laws of label tables

A table made of entries has every name once, where it was first inserted, with the
byte it was last inserted with (`names_insertAll`, `find?_insertAll`). A table that
grows at its end keeps what its names stand for (`Grows.find?_eq`).
-/

namespace BankAsm.LabelTable

variable {table before after : LabelTable} {name : String} {value : UInt8}

/-- A name without a byte is no name of the table. -/
theorem find?_eq_none_iff : table.find? name = none ↔ name ∉ table.names := by
  unfold find? names
  rw [List.lookup_eq_none_iff]
  constructor
  · intro differ member
    obtain ⟨entry, here, equal⟩ := List.mem_map.mp member
    have differs := differ entry here
    simp [equal] at differs
  · intro absent entry here
    have differs : name ≠ entry.1 := by
      rintro rfl
      exact absent (List.mem_map_of_mem here)
    simpa using differs

/-- A name that has a byte stands in the table with it. -/
theorem mem_entries_of_find? (found : table.find? name = some value) :
    (name, value) ∈ table.entries := by
  obtain ⟨front, back, whole, _⟩ := List.lookup_eq_some_iff.mp found
  rw [whole]
  simp

/-- A name whose entry stands in a table without duplicates has its byte. -/
theorem find?_of_entries {earlier later : List (String × UInt8)}
    (whole : table.entries = earlier ++ (name, value) :: later)
    (distinct : table.names.Nodup) : table.find? name = some value := by
  refine List.lookup_eq_some_iff.mpr ⟨earlier, later, whole, ?_⟩
  intro entry member
  unfold names at distinct
  rw [whole, List.map_append] at distinct
  have apart := (List.nodup_append.mp distinct).2.2 entry.1 (List.mem_map_of_mem member) name
    (by simp)
  simpa using Ne.symm apart

/-- Inserting adds a name at the end unless the table has it already. -/
theorem names_insert (table : LabelTable) (name : String) (value : UInt8) :
    (table.insert name value).names
      = if name ∈ table.names then table.names else table.names ++ [name] := by
  obtain ⟨entries⟩ := table
  simp only [insert, names]
  induction entries with
  | nil => simp [insertEntry]
  | cons entry entries inductionHypothesis =>
    by_cases same : entry.1 = name
    · simp [insertEntry, same]
    · have differ : name ≠ entry.1 := fun equal => same equal.symm
      simp only [insertEntry, same, if_false, List.map_cons, List.mem_cons, differ, false_or]
      rw [inductionHypothesis]
      by_cases member : name ∈ entries.map (·.1)
      · simp only [member, if_true]
      · simp only [member, if_false, List.cons_append]

/-- Entries behind others are inserted after them. -/
theorem insertAll_append (table : LabelTable) (front back : List (String × UInt8)) :
    table.insertAll (front ++ back) = (table.insertAll front).insertAll back :=
  List.foldl_append

/-- The last of some entries is inserted after the others. -/
theorem insertAll_concat (table : LabelTable) (entries : List (String × UInt8)) (name : String)
    (value : UInt8) :
    table.insertAll (entries ++ [(name, value)]) = (table.insertAll entries).insert name value :=
  table.insertAll_append entries [(name, value)]

/-- The table of entries with one more is the table of the others with it inserted. -/
theorem ofList_concat (entries : List (String × UInt8)) (name : String) (value : UInt8) :
    ofList (entries ++ [(name, value)]) = (ofList entries).insert name value :=
  empty.insertAll_concat entries name value

/-- What stands behind other entries of a list is a duplicate if it is among them. -/
theorem eraseDups_concat {α : Type} [DecidableEq α] (front : List α) (last : α) :
    (front ++ [last]).eraseDups
      = if last ∈ front then front.eraseDups else front.eraseDups ++ [last] := by
  rw [List.eraseDups_append]
  by_cases member : last ∈ front
  · simp [List.removeAll, member]
  · simp [List.removeAll, member, List.eraseDups_cons]

/-- A list without its duplicates has distinct entries. -/
theorem nodup_eraseDups {α : Type} [DecidableEq α] (entries : List α) :
    entries.eraseDups.Nodup := by
  induction entries using List.reverseRecOn with
  | nil => simp
  | append_singleton front last inductionHypothesis =>
    rw [eraseDups_concat]
    split
    case isTrue => exact inductionHypothesis
    case isFalse absent =>
      refine List.nodup_append.mpr ⟨inductionHypothesis, by simp, ?_⟩
      rintro other member _ behind rfl
      obtain rfl := List.mem_singleton.mp behind
      exact absent (List.mem_eraseDups.mp member)

/-- The names of a table with further entries: those it had, and behind them the others, each
where it came first. -/
theorem names_insertAll (table : LabelTable) (entries : List (String × UInt8)) :
    (table.insertAll entries).names
      = table.names ++ ((entries.map (·.1)).filter (· ∉ table.names)).eraseDups := by
  induction entries using List.reverseRecOn with
  | nil => simp [insertAll]
  | append_singleton entries entry inductionHypothesis =>
    obtain ⟨name, value⟩ := entry
    rw [insertAll_concat, names_insert, inductionHypothesis, List.map_append, List.map_singleton,
      List.filter_append]
    by_cases had : name ∈ table.names
    · simp [had]
    · have kept : [name].filter (· ∉ table.names) = [name] := by simp [had]
      rw [kept, eraseDups_concat]
      simp only [List.mem_append, had, false_or, List.mem_eraseDups]
      split <;> simp

/-- The names of a table made of entries are theirs, each where it came first. -/
theorem names_ofList (entries : List (String × UInt8)) :
    (ofList entries).names = (entries.map (·.1)).eraseDups := by
  rw [ofList, names_insertAll, List.filter_eq_self.mpr (by simp [empty, names])]
  rfl

/-- What a table with further entries has for a name is what came last among them, or what it
had. -/
theorem find?_insertAll (table : LabelTable) (entries : List (String × UInt8)) (name : String) :
    (table.insertAll entries).find? name
      = (entries.reverse.lookup name).or (table.find? name) := by
  induction entries using List.reverseRecOn with
  | nil => rfl
  | append_singleton entries entry inductionHypothesis =>
    obtain ⟨other, value⟩ := entry
    rw [insertAll_concat, find?_insert, inductionHypothesis, List.reverse_append]
    simp only [List.reverse_singleton, List.singleton_append, List.lookup_cons]
    by_cases same : name = other
    · simp [same]
    · have differ : (name == other) = false := by simpa using same
      simp [same, differ]

/-- What a table made of entries has for a name is what came last. -/
theorem find?_ofList (entries : List (String × UInt8)) (name : String) :
    (ofList entries).find? name = entries.reverse.lookup name := by
  rw [ofList, find?_insertAll]
  exact Option.or_none

/-- Entries of other names are inserted behind those of a table as they are. -/
theorem insertAll_of_nodup {front back : List (String × UInt8)}
    (distinct : ((front ++ back).map (·.1)).Nodup) :
    (⟨front⟩ : LabelTable).insertAll back = ⟨front ++ back⟩ := by
  induction back generalizing front with
  | nil => simp [insertAll]
  | cons entry back inductionHypothesis =>
    obtain ⟨name, value⟩ := entry
    have absent : (⟨front⟩ : LabelTable).find? name = none := by
      refine find?_eq_none_iff.mpr fun member => ?_
      rw [List.map_append] at distinct
      exact (List.nodup_append.mp distinct).2.2 name member name (by simp) rfl
    have inserted : (⟨front⟩ : LabelTable).insertAll ((name, value) :: back)
        = (⟨front ++ [(name, value)]⟩ : LabelTable).insertAll back := by
      rw [← insertEntry_of_lookup_eq_none absent]
      rfl
    rw [List.append_cons] at distinct ⊢
    rw [inserted, inductionHypothesis distinct]

/-- A table that has more entries behind those it had. -/
def Grows (before after : LabelTable) : Prop := before.entries <+: after.entries

/-- A table that grows keeps the byte of every name it has. -/
theorem Grows.find?_eq (grows : Grows before after) (found : before.find? name = some value) :
    after.find? name = some value :=
  List.IsPrefix.lookup_eq_some grows found

end BankAsm.LabelTable
