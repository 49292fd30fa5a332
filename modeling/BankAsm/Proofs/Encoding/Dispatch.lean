import BankAsm.Proofs.Encoding.Table
import BankAsm.Proofs.LabelTable
import BankAsm.Proofs.Signature.Admission

/-!
# Dispatch

A table is filled with everything that the patterns of its rules stand for. To look a
signature up in it is to search the patterns themselves for the last one that fits the
signature (`EncodingTable.find?_registerAll`), however the patterns overlap.
-/

namespace BankAsm

/-- The patterns of rules with their encoders, in the order of their registration. -/
def declarations (rules : List Rule) : List (Signature × Encoder) :=
  rules.flatMap fun rule => rule.patterns.map fun pattern => (pattern, rule.encoder)

/-- A table answers as a search among the patterns of rules does. -/
structure Dispatches (rules : List Rule) (table : EncodingTable) : Prop where
  /-- A statement is encoded by what the last pattern that fits it is declared with. -/
  found (s : Statement) (encoder : Encoder) : table.lookup s = .ok encoder ↔
    ∃ front pattern back, declarations rules = front ++ (pattern, encoder) :: back ∧
      pattern.admits s.signature = true ∧ ∀ later ∈ back, later.1.admits s.signature = false
  /-- A statement that no pattern fits is refused where it stands, and no other is. -/
  refused (s : Statement) (d : Diagnostic) : table.lookup s = .error d ↔
    d = ⟨.unknownForm s.signature, s.position⟩ ∧
      ∀ declared ∈ declarations rules, declared.1.admits s.signature = false
  /-- A statement that fits a rule for one code, and nothing behind it, is that code. -/
  opcode (s : Statement) (before after : List Rule) (patterns : List Signature) (code : UInt8)
    (whole : rules = before ++ Rule.opcode patterns code :: after)
    (fits : ∃ pattern ∈ patterns, pattern.admits s.signature = true)
    (last : ∀ later ∈ declarations after, later.1.admits s.signature = false) :
    table.encode s = .ok [.byte code]
  /-- Nothing is found for a signature with a class. -/
  nothing (s : Signature) (abstract : s.isConcrete = false) : table.find? s = none
  /-- The table has as many signatures as there are without a class that a pattern
  fits. -/
  size : ∃ signatures : List Signature, signatures.Nodup ∧ table.size = signatures.length ∧
    ∀ s, s ∈ signatures ↔
      s.isConcrete = true ∧ ∃ declared ∈ declarations rules, declared.1.admits s = true

theorem declarations_append (front back : List Rule) :
    declarations (front ++ back) = declarations front ++ declarations back :=
  List.flatMap_append

theorem declarations_singleton (rule : Rule) :
    declarations [rule] = rule.patterns.map fun pattern => (pattern, rule.encoder) :=
  List.flatMap_singleton _ _

section Search

variable {declared : List (Signature × Encoder)} {s : Signature}

/-- The last pattern that fits a signature, with what it is declared with. -/
def lastFit (declared : List (Signature × Encoder)) (s : Signature) :
    Option (Signature × Encoder) :=
  declared.reverse.find? fun entry => entry.1.admits s

theorem lastFit_append (front back : List (Signature × Encoder)) :
    lastFit (front ++ back) s = (lastFit back s).or (lastFit front s) := by
  rw [lastFit, List.reverse_append, List.find?_append]
  rfl

theorem lastFit_eq_none_iff :
    lastFit declared s = none ↔ ∀ entry ∈ declared, entry.1.admits s = false := by
  rw [lastFit, List.find?_eq_none]
  simp only [List.mem_reverse, Bool.not_eq_true]

/-- A pattern is the last that fits if it fits and none behind it does. -/
theorem lastFit_eq_some_iff {entry : Signature × Encoder} :
    lastFit declared s = some entry ↔
      ∃ front back, declared = front ++ entry :: back ∧ entry.1.admits s = true ∧
        ∀ later ∈ back, later.1.admits s = false := by
  rw [lastFit, List.find?_eq_some_iff_append]
  constructor
  · rintro ⟨fits, back, front, whole, unfit⟩
    refine ⟨front.reverse, back.reverse, ?_, fits, ?_⟩
    · rw [← List.reverse_reverse declared, whole]
      simp
    · intro later member
      simpa using unfit later (List.mem_reverse.mp member)
  · rintro ⟨front, back, rfl, fits, unfit⟩
    refine ⟨fits, back.reverse, front.reverse, by simp, ?_⟩
    intro later member
    simpa using unfit later (List.mem_reverse.mp member)

/-- Among patterns with one encoder, a search finds it if one of them fits. -/
theorem map_lastFit_patterns (patterns : List Signature) (encoder : Encoder) :
    (lastFit (patterns.map fun pattern => (pattern, encoder)) s).map (·.2) =
      if s ∈ patterns.flatMap Signature.expand then some encoder else none := by
  simp only [List.mem_flatMap, Signature.mem_expand_iff_admits]
  cases search : lastFit (patterns.map fun pattern => (pattern, encoder)) s with
  | none =>
    have unfit : ¬∃ pattern ∈ patterns, pattern.admits s = true := by
      rintro ⟨pattern, listed, fits⟩
      have other := lastFit_eq_none_iff.mp search _ (List.mem_map_of_mem listed)
      rw [fits] at other
      cases other
    rw [if_neg unfit]
    rfl
  | some entry =>
    obtain ⟨front, back, whole, fits, _⟩ := lastFit_eq_some_iff.mp search
    have member : entry ∈ patterns.map fun pattern => (pattern, encoder) := by simp [whole]
    obtain ⟨pattern, listed, rfl⟩ := List.mem_map.mp member
    rw [if_pos ⟨pattern, listed, fits⟩]
    rfl

end Search

namespace EncodingTable

/-- One more rule: its patterns are searched before those of the table. -/
theorem find?_register_eq_search (table : EncodingTable) (rule : Rule) (s : Signature) :
    (table.register rule).find? s =
      ((lastFit (declarations [rule]) s).map (·.2)).or (table.find? s) := by
  rw [find?_register, declarations_singleton, map_lastFit_patterns]
  split
  · rfl
  · rfl

/-- A table made of rules finds what a search of their patterns from the end finds. -/
theorem find?_registerAll (rules : List Rule) (s : Signature) :
    (empty.registerAll rules).find? s = (lastFit (declarations rules) s).map (·.2) := by
  induction rules using List.reverseRecOn with
  | nil => rfl
  | append_singleton rules rule inductionHypothesis =>
    have step : empty.registerAll (rules ++ [rule]) = (empty.registerAll rules).register rule :=
      List.foldl_append
    rw [step, find?_register_eq_search, inductionHypothesis, declarations_append, lastFit_append,
      Option.map_or]

/-- A table made of rules finds an encoder if the last pattern that fits has it. -/
theorem find?_registerAll_eq_some {rules : List Rule} {s : Signature} {encoder : Encoder} :
    (empty.registerAll rules).find? s = some encoder ↔
      ∃ front pattern back, declarations rules = front ++ (pattern, encoder) :: back ∧
        pattern.admits s = true ∧ ∀ later ∈ back, later.1.admits s = false := by
  rw [find?_registerAll, Option.map_eq_some_iff]
  constructor
  · rintro ⟨⟨pattern, _⟩, search, rfl⟩
    obtain ⟨front, back, whole, last⟩ := lastFit_eq_some_iff.mp search
    exact ⟨front, pattern, back, whole, last⟩
  · rintro ⟨front, pattern, back, whole, last⟩
    exact ⟨(pattern, encoder), lastFit_eq_some_iff.mpr ⟨front, back, whole, last⟩, rfl⟩

/-- A table made of rules finds nothing if no pattern fits. -/
theorem find?_registerAll_eq_none {rules : List Rule} {s : Signature} :
    (empty.registerAll rules).find? s = none ↔
      ∀ declared ∈ declarations rules, declared.1.admits s = false := by
  rw [find?_registerAll, Option.map_eq_none_iff, lastFit_eq_none_iff]

/-- A rule with a pattern that fits is found if no pattern behind the rule fits. -/
theorem find?_of_last_rule {before after : List Rule} {rule : Rule} {s : Signature}
    (fits : ∃ pattern ∈ rule.patterns, pattern.admits s = true)
    (last : ∀ later ∈ declarations after, later.1.admits s = false) :
    (empty.registerAll (before ++ rule :: after)).find? s = some rule.encoder := by
  obtain ⟨pattern, listed, admitted⟩ := fits
  have within : s ∈ rule.patterns.flatMap Signature.expand :=
    List.mem_flatMap.mpr ⟨pattern, listed, Signature.mem_expand_iff_admits.mpr admitted⟩
  have whole : declarations (before ++ rule :: after) =
      declarations before ++ (declarations [rule] ++ declarations after) := by
    rw [declarations_append, ← declarations_append [rule] after]
    rfl
  rw [find?_registerAll, whole, lastFit_append, lastFit_append, lastFit_eq_none_iff.mpr last,
    Option.none_or, Option.map_or, declarations_singleton, map_lastFit_patterns, if_pos within]
  rfl

/-- The signatures of a table made of rules are those that some pattern fits. -/
theorem mem_signatures_registerAll {rules : List Rule} {s : Signature} :
    s ∈ (empty.registerAll rules).signatures ↔
      ∃ declared ∈ declarations rules, declared.1.admits s = true := by
  have known : s ∈ (empty.registerAll rules).signatures ↔
      (empty.registerAll rules).find? s ≠ none := by
    rw [signatures, List.mem_eraseDups, find?, ne_eq, List.lookup_eq_none_iff]
    constructor
    · intro member absent
      obtain ⟨entry, here, rfl⟩ := List.mem_map.mp member
      simpa using absent entry here
    · intro present
      by_contra absent
      refine present fun entry here => ?_
      have differs : s ≠ entry.1 := by
        rintro rfl
        exact absent (List.mem_map_of_mem here)
      simpa using differs
  rw [known, ne_eq, find?_registerAll_eq_none]
  simp

/-- Rules registered on an empty table are dispatched as a search for the last pattern
that fits would do. -/
theorem dispatches_registerAll (rules : List Rule) :
    Dispatches rules (empty.registerAll rules) where
  found := by
    intro s encoder
    rw [← find?_registerAll_eq_some, lookup]
    split
    case h_1 other search => rw [search, Except.ok.injEq, Option.some.injEq]
    case h_2 search => simp [search]
  refused := by
    intro s d
    rw [← find?_registerAll_eq_none, lookup]
    split
    case h_1 other search => simp [search]
    case h_2 search => simp [search, eq_comm]
  opcode := by
    rintro s before after patterns code rfl ⟨pattern, listed, fits⟩ last
    rw [encode, lookup, find?_of_last_rule ⟨pattern, listed, fits⟩ last]
    rfl
  nothing := by
    intro s abstract
    rw [find?_registerAll_eq_none]
    intro declared _
    by_contra fits
    rw [Bool.not_eq_false] at fits
    rw [Signature.isConcrete_of_admits fits] at abstract
    cases abstract
  size := by
    refine ⟨(empty.registerAll rules).signatures, LabelTable.nodup_eraseDups _, rfl, ?_⟩
    intro s
    rw [mem_signatures_registerAll]
    constructor
    · rintro ⟨declared, member, fits⟩
      exact ⟨Signature.isConcrete_of_admits fits, declared, member, fits⟩
    · rintro ⟨_, fits⟩
      exact fits

/-- A rule for digits takes them out of an earlier one for all numbers. -/
example :
    let table := empty.registerAll
      [Rule.opcode [⟨"add", [.number]⟩] 1, Rule.opcode [⟨"add", [.kind .digit]⟩] 2]
    let add (kind : TokenKind) : Statement := ⟨none, "add", .start, [.token ⟨kind, "7", .start⟩]⟩
    table.encode (add .digit) = .ok [.byte 2] ∧ table.encode (add .decimal) = .ok [.byte 1] :=
  ⟨rfl, rfl⟩

end EncodingTable

end BankAsm
