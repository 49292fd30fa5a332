import BankAsm.Encoding.Table

/-!
# What a table knows

An encoder that a table has for a signature is that of a rule with a pattern that
stands for the signature. Signatures that the same patterns stand for are not told
apart (`find?_registerAll_congr`).
-/

namespace BankAsm.EncodingTable

/-- An entry of a table with further rules is an entry of the table or belongs to one
of the rules. -/
theorem mem_entries_registerAll {table : EncodingTable} {rules : List Rule}
    {entry : Signature × Encoder} :
    entry ∈ (table.registerAll rules).entries ↔
      entry ∈ table.entries ∨
        ∃ rule ∈ rules, ∃ pattern ∈ rule.patterns,
          entry.1 ∈ pattern.expand ∧ entry.2 = rule.encoder := by
  induction rules generalizing table with
  | nil => simp [registerAll]
  | cons rule rules inductionHypothesis =>
    have step : table.registerAll (rule :: rules) = (table.register rule).registerAll rules := rfl
    have registered : entry ∈ (table.register rule).entries ↔
        entry ∈ table.entries ∨
          ∃ pattern ∈ rule.patterns, entry.1 ∈ pattern.expand ∧ entry.2 = rule.encoder := by
      obtain ⟨s, encoder⟩ := entry
      simp only [register, List.mem_append, List.mem_reverse, List.mem_map, List.mem_flatMap,
        Prod.mk.injEq]
      constructor
      · rintro (⟨_, ⟨pattern, listed, stands⟩, rfl, rfl⟩ | old)
        · exact .inr ⟨pattern, listed, stands, rfl⟩
        · exact .inl old
      · rintro (old | ⟨pattern, listed, stands, rfl⟩)
        · exact .inr old
        · exact .inl ⟨s, ⟨pattern, listed, stands⟩, rfl, rfl⟩
    rw [step, inductionHypothesis, registered]
    simp only [List.mem_cons, exists_eq_or_imp, or_assoc]

/-- A statement has the encoder of its signature. -/
theorem lookup_eq_ok_iff {table : EncodingTable} {s : Statement} {encoder : Encoder} :
    table.lookup s = .ok encoder ↔ table.find? s.signature = some encoder := by
  unfold lookup
  cases table.find? s.signature <;> simp

/-- A statement whose signature has no encoder is refused where it stands. -/
theorem lookup_of_find?_eq_none {table : EncodingTable} {s : Statement}
    (absent : table.find? s.signature = none) :
    table.lookup s = .error ⟨.unknownForm s.signature, s.position⟩ := by
  rw [lookup, absent]

/-- A statement that has an encoder is encoded by it. -/
theorem encode_of_find? {table : EncodingTable} {s : Statement} {encoder : Encoder}
    (found : table.find? s.signature = some encoder) : table.encode s = encoder s := by
  rw [encode, lookup, found]

/-- A statement whose signature has no encoder is not encoded, and refused where it stands. -/
theorem encode_of_find?_eq_none {table : EncodingTable} {s : Statement}
    (absent : table.find? s.signature = none) :
    table.encode s = .error (.reported ⟨.unknownForm s.signature, s.position⟩) := by
  rw [encode, lookup_of_find?_eq_none absent]

/-- The encoder that is found for a signature belongs to a rule for it. -/
theorem exists_rule_of_find? {rules : List Rule} {s : Signature} {encoder : Encoder}
    (found : (empty.registerAll rules).find? s = some encoder) :
    ∃ rule ∈ rules, ∃ pattern ∈ rule.patterns, s ∈ pattern.expand ∧ encoder = rule.encoder := by
  obtain ⟨front, back, whole, _⟩ := List.lookup_eq_some_iff.mp found
  have member : (s, encoder) ∈ (empty.registerAll rules).entries := by
    rw [whole]
    simp
  rcases mem_entries_registerAll.mp member with old | belongs
  · cases old
  · exact belongs

/-- Among signatures with one encoder, those that are listed have it. -/
theorem lookup_map (encoder : Encoder) (signatures : List Signature) (s : Signature) :
    (signatures.map fun listed => (listed, encoder)).lookup s =
      if s ∈ signatures then some encoder else none := by
  induction signatures with
  | nil => rfl
  | cons first rest inductionHypothesis =>
    rw [List.map_cons, List.lookup_cons, inductionHypothesis]
    by_cases same : s = first
    · simp [same]
    · have differ : (s == first) = false := by simpa using same
      simp [same, differ]

/-- A rule has its encoder for every signature that its patterns stand for. -/
theorem find?_register (table : EncodingTable) (rule : Rule) (s : Signature) :
    (table.register rule).find? s =
      if s ∈ rule.patterns.flatMap Signature.expand then some rule.encoder else table.find? s := by
  rw [find?, register, List.lookup_append, ← List.map_reverse, lookup_map]
  simp only [List.mem_reverse]
  split
  · rfl
  · rfl

/-- Signatures that fit the same patterns are looked up alike. -/
theorem find?_registerAll_congr {rules : List Rule} {s other : Signature}
    (alike : ∀ rule ∈ rules, ∀ pattern ∈ rule.patterns, s ∈ pattern.expand ↔ other ∈ pattern.expand)
    {table : EncodingTable} (before : table.find? s = table.find? other) :
    (table.registerAll rules).find? s = (table.registerAll rules).find? other := by
  induction rules generalizing table with
  | nil => exact before
  | cons rule rules inductionHypothesis =>
    obtain ⟨first, others⟩ := List.forall_mem_cons.mp alike
    have together : s ∈ rule.patterns.flatMap Signature.expand ↔
        other ∈ rule.patterns.flatMap Signature.expand := by
      simp only [List.mem_flatMap]
      exact exists_congr fun pattern => and_congr_right fun listed => first pattern listed
    have here : (table.register rule).find? s = (table.register rule).find? other := by
      simp only [find?_register, together, before]
    exact inductionHypothesis others here

end BankAsm.EncodingTable
