import BankAsm.Proofs.Assembly.Pulls
import BankAsm.Proofs.Program.Front
import BankAsm.Proofs.Rewording.Contents
import BankAsm.Proofs.Rewording.Program
import BankAsm.Proofs.Token.Literal

/-!
# Labels that are bound beforehand

Binding labels before a source is assembled is the same as assigning them in lines above it
(`related_of_assignLines`): the assignments take no room, bind the same bytes in the same
order, and what is below them is the same source, further down. Only a vector can tell the
two apart, and only by the obstacle that it meets in front of the source.
-/

namespace BankAsm

open Token (IsName byteText ofByte)
open Rewording (bare down)

/-- The same failure, some lines further down. -/
def Failure.down (lines : Nat) : Failure → Failure
  | .reported d => .reported (d.down lines)
  | .stuck => .stuck

/-- A failure in the same words, some lines further down. -/
theorem failure_down (lines : Nat) (f : Failure) : (down lines).failure f = f.down lines := by
  cases f with
  | reported d => exact congrArg Failure.reported (Rewording.diagnostic_down lines d)
  | stuck => rfl

/-- A line that assigns a byte to a label. -/
def assignLine (seed : String × UInt8) : String := seed.1 ++ ": " ++ byteText seed.2 ++ "\n"

/-- The lines that assign bytes to labels in order. -/
def assignLines (seeds : List (String × UInt8)) : String := String.join (seeds.map assignLine)

/-- The statement of a line that assigns a byte to a label, places aside. -/
def assignment (seed : String × UInt8) : Statement :=
  ⟨some ⟨seed.1, .nowhere⟩, "ASSIGN", .nowhere, [.token (ofByte seed.2)]⟩

section Reading

/-- The tokens of a line that assigns a byte to a label, places aside. -/
def assignTokens (seed : String × UInt8) : List Token :=
  [⟨.assignment, seed.1, .nowhere⟩, ofByte seed.2]

/-- A line without the newline at its end is written as its tokens. -/
theorem line_assignTokens (seed : String × UInt8) :
    String.ofList (Token.line (assignTokens seed)) ++ "\n" = assignLine seed := by
  apply String.toList_injective
  simp [Token.line, assignTokens, assignLine, List.intercalate, Token.spelling, ofByte]

/-- A line that assigns a byte to a label has no newline but the one at its end. -/
theorem newline_not_mem_line {seed : String × UInt8} (named : IsName seed.1) :
    '\n' ∉ Token.line (assignTokens seed) := by
  have irregular : isRegular '\n' = false := by decide
  have inName : '\n' ∉ seed.1.toList := fun member => by
    simpa [irregular] using named.known.2 _ member
  have inByte : '\n' ∉ (byteText seed.2).toList := fun member => by
    simpa [irregular] using (Token.byteText_known seed.2).2 _ member
  simp [Token.line, assignTokens, List.intercalate, Token.spelling, ofByte, inName, inByte]

/-- Lines that assign bytes to labels are written as their tokens, a newline behind each. -/
theorem exists_upper {seeds : List (String × UInt8)} (some : seeds ≠ [])
    (named : ∀ seed ∈ seeds, IsName seed.1) :
    ∃ upper : String, assignLines seeds = upper ++ "\n" ∧
      Token.Composes (seeds.map assignTokens) upper.toList ∧
        Token.linesAbove upper = seeds.length := by
  induction seeds with
  | nil => exact absurd rfl some
  | cons seed seeds inductionHypothesis =>
    obtain ⟨here, others⟩ := List.forall_mem_cons.mp named
    have alone := List.count_eq_zero.mpr (newline_not_mem_line here)
    cases seeds with
    | nil =>
      refine ⟨String.ofList (Token.line (assignTokens seed)), ?_, ?_, ?_⟩
      · rw [line_assignTokens]
        simp [assignLines]
      · rw [String.toList_ofList]
        exact .last _
      · simp [Token.linesAbove, alone]
    | cons next seeds =>
      obtain ⟨upper, text, composes, lines⟩ := inductionHypothesis (by simp) others
      refine ⟨assignLine seed ++ upper, ?_, ?_, ?_⟩
      · rw [String.append_assoc, ← text]
        simp [assignLines]
      · have chars : (assignLine seed ++ upper).toList =
            Token.line (assignTokens seed) ++ '\n' :: upper.toList := by
          simp [← line_assignTokens]
        rw [chars]
        exact .newline _ composes
      · unfold Token.linesAbove at lines ⊢
        simp only [← line_assignTokens, String.toList_append, String.toList_ofList,
          List.count_append, alone, List.length_cons] at lines ⊢
        have newline : "\n".toList.count '\n' = 1 := by decide
        omega

/-- A line that assigns a byte to a label is a clause that spells the assignment. -/
theorem ofBlock_assignTokens (seed : String × UInt8) :
    (Rewording.bareClause (assignTokens seed)).Whole ∧
      Statement.ofBlock (Rewording.bareClause (assignTokens seed)).block =
        .ok (some (assignment seed)) := by
  refine ⟨⟨by simp [Rewording.bareClause, assignTokens], ?_, rfl⟩, rfl⟩
  simp [Rewording.bareClause, assignTokens, ofByte]

/-- The tokens of a line that assigns a byte to a label stand in sources. -/
theorem standing_assignTokens {seed : String × UInt8} (named : IsName seed.1) :
    ∀ t ∈ assignTokens seed, t.Valid ∧ t.isEnding = false := by
  intro t member
  rcases List.mem_cons.mp member with rfl | later
  · exact ⟨Token.valid_assignment named, rfl⟩
  · obtain rfl := List.mem_singleton.mp later
    exact ⟨Token.valid_ofByte seed.2, rfl⟩

/-- Lines that assign bytes to labels are read as the assignments, in front of what is read
of the lines below them. -/
theorem exists_front_of_assignLines {seeds : List (String × UInt8)}
    (named : ∀ seed ∈ seeds, IsName seed.1) (source : String) :
    ∃ front : List Statement, front.map bare.statement = seeds.map assignment ∧
      Statement.ofSource (assignLines seeds ++ source) =
        ⟨front ++ ((down seeds.length).statements (Statement.ofSource source)).items,
          ((down seeds.length).statements (Statement.ofSource source)).failure⟩ := by
  by_cases some : seeds = []
  · subst some
    refine ⟨[], rfl, ?_⟩
    rw [Rewording.statements_of_same _ rfl rfl]
    simp [assignLines]
  · obtain ⟨upper, text, composes, lines⟩ := exists_upper some named
    have valid : ∀ ts ∈ seeds.map assignTokens, ts ≠ [] ∧
        ∀ t ∈ ts, t.Valid ∧ t.isEnding = false := by
      intro ts among
      obtain ⟨seed, member, rfl⟩ := List.mem_map.mp among
      exact ⟨by simp [assignTokens], standing_assignTokens (named seed member)⟩
    have reads : Token.Reads (Token.ofSource upper) (Token.contents (seeds.map assignTokens)) :=
      Token.reads_of_composes composes valid .nothing (fun _ => rfl) .start
    have bareRead : bare.statements (Statement.ofSource upper) = ⟨seeds.map assignment, none⟩ := by
      refine Rewording.bare_statements_of_reads reads ?_ ?_
      · intro ts among
        obtain ⟨seed, _, rfl⟩ := List.mem_map.mp among
        exact (ofBlock_assignTokens seed).1
      · rw [List.forall₂_map_left_iff, List.forall₂_map_right_iff, List.forall₂_same]
        exact fun seed _ => (ofBlock_assignTokens seed).2
    cases read : Statement.ofSource upper with
    | mk front failure =>
      simp only [read, Rewording.statements, Feed.change, Feed.mk.injEq, Option.map_eq_none_iff]
        at bareRead
      obtain ⟨statements, rfl⟩ := bareRead
      refine ⟨front, statements, ?_⟩
      rw [text, ← lines]
      exact Statement.ofSource_below reads.unbroken read source

end Reading

section Placing

/-- An assignment of a byte is encoded as the byte. -/
theorem encode_assignment (seed : String × UInt8) :
    instructionSet.encode (assignment seed) = .ok [.byte seed.2] := by
  have known : instructionSet.contains ⟨"ASSIGN", [.kind .hexadecimal]⟩ := by decide +kernel
  have only : ∀ form ∈ InstructionSet.operations ++ InstructionSet.directives,
      form.pattern.mnemonic = "ASSIGN" →
      [.kind .hexadecimal] ∈ Param.expandAll form.pattern.params →
        form.template = [.number (.direct 0)] := by
    decide +kernel
  have noData : "ASSIGN" ≠ "DATA" := by decide
  have encoded : instructionSet.encode (assignment seed) =
      Template.encoder [.number (.direct 0)] (assignment seed) :=
    encode_of_form known noData only
  rw [encoded]
  simp [Template.encoder, Template.fill?, Part.octet?, Path.token?, assignment]

/-- An assignment of a byte to a label that is not bound yet binds it, and nothing else. -/
theorem placeNext_assignment {l : Layout} {seed : String × UInt8}
    (free : l.labels.contains seed.1 = false) :
    Assembly.placeNext instructionSet l (assignment seed) =
      ({ l with labels := l.labels.insert seed.1 seed.2 },
        .ok ⟨assignment seed, l.bank, l.address, []⟩) := by
  have absent : l.labels.find? seed.1 = none := by simpa [LabelTable.contains] using free
  have places : Layout.Places l (assignment seed) [.byte seed.2]
      { l with labels := l.labels.insert seed.1 seed.2 } ⟨assignment seed, l.bank, l.address, []⟩ :=
    .assign rfl rfl rfl (.insert seed.2 absent)
  exact Assembly.placeNext_eq_ok_iff.mpr ⟨_, encode_assignment seed, places⟩

/-- Assignments of bytes to labels that are not bound yet bind them in order. -/
theorem placeAll_assignments {seeds : List (String × UInt8)} {l : Layout}
    (distinct : (seeds.map (·.1)).Nodup)
    (free : ∀ seed ∈ seeds, l.labels.contains seed.1 = false) :
    Assembly.placeAll instructionSet l (seeds.map assignment) =
      .ok ({ l with labels := l.labels.insertAll seeds },
        seeds.map fun seed => ⟨assignment seed, l.bank, l.address, []⟩) := by
  induction seeds generalizing l with
  | nil => rfl
  | cons seed seeds inductionHypothesis =>
    obtain ⟨here, others⟩ := List.forall_mem_cons.mp free
    obtain ⟨absent, distinctOthers⟩ := List.nodup_cons.mp distinct
    have freeBehind : ∀ other ∈ seeds,
        (l.labels.insert seed.1 seed.2).contains other.1 = false := by
      intro other member
      have differ : other.1 ≠ seed.1 := by
        intro same
        exact absent (List.mem_map.mpr ⟨other, member, same⟩)
      have before := others other member
      simpa [LabelTable.contains, LabelTable.find?_insert, differ] using before
    have rest : Assembly.placeAll instructionSet
        { l with labels := l.labels.insert seed.1 seed.2 } (seeds.map assignment) = _ :=
      inductionHypothesis distinctOthers freeBehind
    rw [List.map_cons, Assembly.placeAll, placeNext_assignment here]
    simp only [rest]
    rfl

/-- Statements that are read as assignments of the seeds are placed without room, and leave
the layout that the seeds alone do. -/
theorem exists_placeAll_of_assignments {seeds : List (String × UInt8)} {front : List Statement}
    (distinct : (seeds.map (·.1)).Nodup) (read : front.map bare.statement = seeds.map assignment)
    (banks : Nat) :
    ∃ placed, Assembly.placeAll instructionSet (Layout.start banks []) front =
        .ok (Layout.start banks seeds, placed) ∧
      placed.map bare.placed = seeds.map fun seed => ⟨assignment seed, 0, 0, []⟩ := by
  have placing := bare.placeAll_statements (Layout.start banks []) front
  have free : ∀ seed ∈ seeds, (Layout.start banks []).labels.contains seed.1 = false :=
    fun _ _ => rfl
  rw [read, bare.layout_of_name_eq_id rfl, placeAll_assignments distinct free] at placing
  obtain ⟨⟨layout, placed⟩, result, same⟩ := Outcome.change_eq_ok_iff.mp placing.symm
  rw [Prod.map, bare.layout_of_name_eq_id rfl] at same
  obtain ⟨rfl, statements⟩ := Prod.mk.inj same
  exact ⟨placed, result, statements⟩

end Placing

/-- A program beside the one of the same source with labels assigned in the lines above
it. -/
structure Program.Predefines (seeds : List (String × UInt8)) (program assigned : Program) :
    Prop where
  labels : assigned.labels = program.labels
  banks : assigned.banks = program.banks
  /-- The assignments take no room, and everything behind them stands where it stood. -/
  placed : ∃ front : List Placed,
    front.map bare.placed = (seeds.map fun seed => ⟨assignment seed, 0, 0, []⟩) ∧
      assigned.placed = front ++ program.placed.map (down seeds.length).placed
  flat : program.flat.Related Failure.SameKind assigned.flat
  images : ∀ fill, Outcome.Related Eq Failure.SameKind (program.images fill) (assigned.images fill)

/-- A program of statements in other words behind assignments has the bytes of the program
alone. -/
theorem Program.predefines_of_front {seeds : List (String × UInt8)} {program : Program}
    {front : List Placed}
    (read : front.map bare.placed = seeds.map fun seed => ⟨assignment seed, 0, 0, []⟩) :
    program.Predefines seeds
      { (down seeds.length).program program with
        placed := front ++ ((down seeds.length).program program).placed } := by
  have each : ∀ p ∈ front, p.statement.isDirective ∧ p.code = [] := by
    intro p member
    have among : bare.placed p ∈ front.map bare.placed := List.mem_map_of_mem member
    rw [read] at among
    obtain ⟨seed, _, same⟩ := List.mem_map.mp among
    obtain ⟨statement, _, _, code⟩ := Placed.mk.inj same
    have directive : (bare.statement p.statement).isDirective := by rw [← statement]; rfl
    exact ⟨directive, by simpa using code.symm⟩
  have shifted := (down seeds.length).mirrors_program program
  have behind : ((down seeds.length).program program).Mirrors Failure.SameKind _ :=
    Program.mirrors_front (fun p member => (each p member).1) fun p member => (each p member).2
  have compose : ∀ f g h : Failure, g = (down seeds.length).failure f → g.SameKind h →
      f.SameKind h := by
    rintro f _ h rfl kind
    exact kind.trans (Rewording.kind?_failure _ f)
  exact {
    labels := Rewording.table_of_name_eq_id _ rfl program.labels
    banks := rfl
    placed := ⟨front, read, rfl⟩
    flat := shifted.flat.trans behind.flat compose
    images := fun fill =>
      (shifted.images fill).trans (behind.images fill) (fun _ _ _ => Eq.trans) compose }

/-- Labels that are bound beforehand are assigned in lines above the source, and nothing else
is different: both are assembled or neither is, with the same cause of failure so many lines
further down; the labels are the same in the same order, the assignments take no room, and
what follows them is the same so many lines further down; and there are the same bytes, or
as many up to a failure of the same kind. -/
theorem related_of_assignLines {seeds : List (String × UInt8)}
    (distinct : (seeds.map (·.1)).Nodup) (named : ∀ seed ∈ seeds, IsName seed.1)
    (source : String) (banks : Nat) :
    Outcome.Related (Program.Predefines seeds) (fun f g => g = f.down seeds.length)
      (assemble source banks seeds) (assemble (assignLines seeds ++ source) banks []) := by
  obtain ⟨front, read, statements⟩ := exists_front_of_assignLines named source
  obtain ⟨placed, placing, placedRead⟩ := exists_placeAll_of_assignments distinct read banks
  have whole := Assembly.finish_append placing
    ((down seeds.length).statements (Statement.ofSource source))
  have language : (Assembly.start instructionSet source banks seeds).table = instructionSet := rfl
  have below := (down seeds.length).finish_assembly language
  simp only [Rewording.assembly, Assembly.start, Rewording.layout_of_name_eq_id (down _) rfl]
    at below
  simp only [assemble, Assembly.start, statements]
  rw [whole, below]
  cases (⟨instructionSet, Layout.start banks seeds, Statement.ofSource source⟩ : Assembly).finish with
  | ok program => exact .ok (Program.predefines_of_front placedRead)
  | error f => exact .error (failure_down _ f)

/-- Two labels, and a step back in front of the source: empty space there, and an assignment
behind the lines. -/
theorem related_of_assignLines_of_step_back :
    ∃ program assigned,
      assemble "load <\njump base" 1 [("base", 0x07), ("top", 0xFF)] = .ok program ∧
      assemble "base: #07\ntop: #FF\nload <\njump base" 1 [] = .ok assigned ∧
      program.Predefines [("base", 0x07), ("top", 0xFF)] assigned := by
  obtain ⟨program, assembled, _⟩ := Outcome.exists_of_toOption_map
    (assemble "load <\njump base" 1 [("base", 0x07), ("top", 0xFF)])
    (fun program => program.labels.entries) [("base", 0x07), ("top", 0xFF)] (by decide +kernel)
  have distinct : (([("base", 0x07), ("top", 0xFF)] : List (String × UInt8)).map (·.1)).Nodup := by
    decide
  have named : ∀ seed ∈ ([("base", 0x07), ("top", 0xFF)] : List (String × UInt8)),
      IsName seed.1 := by decide +kernel
  have related := related_of_assignLines distinct named "load <\njump base" 1
  have text : assignLines [("base", 0x07), ("top", 0xFF)] ++ "load <\njump base" =
      "base: #07\ntop: #FF\nload <\njump base" := by decide +kernel
  rw [text, assembled] at related
  generalize second : assemble "base: #07\ntop: #FF\nload <\njump base" 1 [] = result at related
  cases related with
  | @ok _ assigned same => exact ⟨program, assigned, assembled, rfl, same⟩

end BankAsm
