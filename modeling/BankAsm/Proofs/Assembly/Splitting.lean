import BankAsm.Proofs.Assembly.Pulls
import BankAsm.Proofs.Encoding.Vector
import BankAsm.Proofs.Program.Splitting
import BankAsm.Proofs.Rewording.Program

/-!
# Splitting data

A `DATA` statement may be split anywhere among its operands (`related_of_splitsData`). The octets
of its operands follow one another, so both parts together fill what the statement filled
(`Layout.Places.split`, `Layout.Places.merge`), and only the first part has the label. Nothing
else sees the difference: labels bind places, and no vector steps over data.
-/

namespace BankAsm

open Rewording (bare)

/-- The octets of operands are those of the first ones, then those of the others. -/
theorem Datum.octetsAll_append (position : Position) (xs ys : List Operand) :
    octetsAll position (xs ++ ys) = (do
      let front ← octetsAll position xs
      let back ← octetsAll position ys
      return front ++ back) := by
  induction xs with
  | nil =>
    cases found : octetsAll position ys <;> simp [octetsAll, found, bind, Except.bind, pure,
      Except.pure]
  | cons operand xs inductionHypothesis =>
    rw [List.cons_append, octetsAll, octetsAll, inductionHypothesis]
    cases octets position operand with
    | error failure => rfl
    | ok first =>
      cases octetsAll position xs with
      | error failure => rfl
      | ok front =>
        cases octetsAll position ys with
        | error failure => rfl
        | ok back => simp [bind, Except.bind, pure, Except.pure]

namespace Statement

/-- The statement with its first operands only. -/
def headed (s : Statement) (operands : List Operand) : Statement := { s with operands }

/-- The statement with its last operands only, and without its label. -/
def tailed (s : Statement) (operands : List Operand) : Statement :=
  { s with label := none, operands }

end Statement

section Placing

variable {before middle after : Layout} {s : Statement} {xs ys : List Operand}
  {front back : List Octet} {p left right : Placed}

namespace Layout

/-- What is placed with all its octets is placed in two parts. -/
theorem Places.split (role : s.role = .emit) (places : Places before s (front ++ back) after p) :
    ∃ middle left right, Places before (s.headed xs) front middle left ∧
      Places middle (s.tailed ys) back after right := by
  cases places with
  | assign other => cases role.symm.trans other
  | locate other => cases role.symm.trans other
  | @emit labels _ room fits bound =>
    rw [List.length_append, ← Nat.add_assoc] at fits ⊢
    have fitsFront : before.address + front.length ≤ bankSize := Nat.le_of_add_right_le fits
    exact ⟨_, _, _, .emit role room fitsFront bound, .emit role nofun fits (.none labels _)⟩

/-- What is placed in two parts is placed with all its octets, and its octets lie where they lie
in the parts. -/
theorem Places.merge (role : s.role = .emit)
    (places : Places before (s.headed xs) front middle left)
    (placesToo : Places middle (s.tailed ys) back after right) :
    ∃ p, Places before s (front ++ back) after p ∧ left.start = p.start ∧
      right.start = left.stop ∧ p.code = front ++ back ∧ p.code = left.code ++ right.code := by
  cases places with
  | assign other => cases role.symm.trans other
  | locate other => cases role.symm.trans other
  | @emit labels _ room fitsFront bound =>
    cases placesToo with
    | assign other => cases role.symm.trans other
    | locate other => cases role.symm.trans other
    | @emit labelsToo _ _ fits boundToo =>
      obtain rfl := boundToo.eq_of_none
      rw [Nat.add_assoc, ← List.length_append] at fits ⊢
      exact ⟨_, .emit role room fits bound, rfl, rfl, rfl, rfl⟩

end Layout

namespace Assembly

/-- Data that are placed are placed in two parts. -/
theorem exists_placeNext_parts (data : s.mnemonic = "DATA") (operands : s.operands = xs ++ ys)
    (step : placeNext instructionSet before s = (after, .ok p)) :
    ∃ middle left right,
      placeNext instructionSet before (s.headed xs) = (middle, .ok left) ∧
        placeNext instructionSet middle (s.tailed ys) = (after, .ok right) := by
  obtain ⟨code, encoded, places⟩ := placeNext_eq_ok_iff.mp step
  rw [encode_of_data data, operands, Datum.octetsAll_append] at encoded
  obtain ⟨front, first, behind⟩ := Outcome.bind_eq_ok_iff.mp encoded
  obtain ⟨back, second, whole⟩ := Outcome.bind_eq_ok_iff.mp behind
  cases whole
  have role : s.role = .emit := by simp [Statement.role, data]
  obtain ⟨middle, left, right, placesLeft, placesRight⟩ := places.split role
  have encodedLeft := (encode_of_data (s := s.headed xs) data).trans first
  have encodedRight := (encode_of_data (s := s.tailed ys) data).trans second
  exact ⟨middle, left, right, placeNext_eq_ok_iff.mpr ⟨front, encodedLeft, placesLeft⟩,
    placeNext_eq_ok_iff.mpr ⟨back, encodedRight, placesRight⟩⟩

/-- Data that are placed in two parts are placed, as far as the parts go. -/
theorem exists_placeNext_whole (data : s.mnemonic = "DATA") (operands : s.operands = xs ++ ys)
    (step : placeNext instructionSet before (s.headed xs) = (middle, .ok left))
    (stepToo : placeNext instructionSet middle (s.tailed ys) = (after, .ok right)) :
    ∃ p, placeNext instructionSet before s = (after, .ok p) ∧ p.Splits left right := by
  obtain ⟨front, first, placesLeft⟩ := placeNext_eq_ok_iff.mp step
  obtain ⟨back, second, placesRight⟩ := placeNext_eq_ok_iff.mp stepToo
  rw [encode_of_data (s := s.headed xs) data] at first
  rw [encode_of_data (s := s.tailed ys) data] at second
  have role : s.role = .emit := by simp [Statement.role, data]
  have directive : s.isDirective := by
    rw [Statement.isDirective, data]
    decide
  obtain ⟨p, places, start, adjacent, code, parts⟩ := placesLeft.merge role placesRight
  have encoded : Datum.octetsAll s.position s.operands = .ok (front ++ back) := by
    rw [operands, Datum.octetsAll_append]
    exact Outcome.bind_eq_ok_iff.mpr ⟨front, first, Outcome.bind_eq_ok_iff.mpr ⟨back, second, rfl⟩⟩
  refine ⟨p, placeNext_eq_ok_iff.mpr ⟨_, (encode_of_data data).trans encoded, places⟩, ?_⟩
  exact {
    directive := by rwa [places.statement_eq]
    leftDirective := by rwa [placesLeft.statement_eq]
    rightDirective := by rwa [placesRight.statement_eq]
    start := start
    adjacent := adjacent
    code := parts
    settled := fun _ _ _ => code ▸ Datum.vector_notMem_of_octetsAll encoded }

/-- What is placed of statements beside what is placed of the same statements with data in two
parts. -/
structure SplitsPlaced (result resultToo : Layout × List Placed) : Prop where
  layout : resultToo.1 = result.1
  placed : ∃ front p left right back, p.Splits left right ∧
    result.2 = front ++ p :: back ∧ resultToo.2 = front ++ left :: right :: back

/-- Statements are placed around data as they are placed around two parts of the data. -/
theorem placeAll_related_of_parts (data : s.mnemonic = "DATA") (operands : s.operands = xs ++ ys)
    (before : Layout) (front back : List Statement) :
    Outcome.Related SplitsPlaced (fun _ _ => True)
      (placeAll instructionSet before (front ++ s :: back))
      (placeAll instructionSet before (front ++ s.headed xs :: s.tailed ys :: back)) := by
  apply Outcome.related_of_results
  · rintro ⟨last, _⟩ whole
    obtain ⟨here, first, _, placing, behind, rfl⟩ := placeAll_append_eq_ok_iff.mp whole
    obtain ⟨after, p, others, step, further, rfl⟩ := placeAll_cons_eq_ok_iff.mp behind
    obtain ⟨middle, left, right, stepLeft, stepRight⟩ := exists_placeNext_parts data operands step
    obtain ⟨q, again, splits⟩ := exists_placeNext_whole data operands stepLeft stepRight
    obtain rfl : p = q := Except.ok.inj (Prod.mk.inj (step.symm.trans again)).2
    have behindToo := placeAll_cons_eq_ok_iff.mpr ⟨middle, left, _, stepLeft,
      placeAll_cons_eq_ok_iff.mpr ⟨after, right, _, stepRight, further, rfl⟩, rfl⟩
    exact ⟨_, placeAll_append_eq_ok_iff.mpr ⟨here, first, _, placing, behindToo, rfl⟩,
      rfl, first, p, left, right, others, splits, rfl, rfl⟩
  · rintro ⟨last, _⟩ whole
    obtain ⟨here, first, _, placing, behind, rfl⟩ := placeAll_append_eq_ok_iff.mp whole
    obtain ⟨middle, left, _, stepLeft, behindLeft, rfl⟩ := placeAll_cons_eq_ok_iff.mp behind
    obtain ⟨after, right, others, stepRight, further, rfl⟩ :=
      placeAll_cons_eq_ok_iff.mp behindLeft
    obtain ⟨p, step, _⟩ := exists_placeNext_whole data operands stepLeft stepRight
    have behindToo := placeAll_cons_eq_ok_iff.mpr ⟨after, p, _, step, further, rfl⟩
    exact ⟨_, placeAll_append_eq_ok_iff.mpr ⟨here, first, _, placing, behindToo, rfl⟩⟩

end Assembly

end Placing

/-- Programs with the same labels, which give the same bytes up to failures of the same kind. -/
structure Program.SameBytes (first second : Program) : Prop where
  labels : second.labels = first.labels
  banks : second.banks = first.banks
  /-- The same flat bytes, and then no failure in either, or two of one kind. -/
  flat : first.flat.Related Failure.SameKind second.flat
  /-- The same images, or failures of one kind. -/
  images : ∀ fill, Outcome.Related Eq Failure.SameKind (first.images fill) (second.images fill)

namespace Program.SameBytes

variable {first second third : Program}

/-- Programs that mirror each other give the same bytes. -/
theorem of_mirrors (labels : second.labels = first.labels)
    (mirrors : first.Mirrors Failure.SameKind second) : first.SameBytes second :=
  ⟨labels, mirrors.banks, mirrors.flat, mirrors.images⟩

/-- Programs that are the same in other words, with the same names, give the same bytes. -/
theorem of_bare_eq (same : bare.program first = bare.program second) : first.SameBytes second := by
  refine of_mirrors ?_ (Rewording.mirrors_of_program_eq same)
  have labels := congrArg Program.labels same
  simpa only [Rewording.program, bare.table_of_name_eq_id rfl] using labels.symm

/-- Programs that give the same bytes as a third one give the same bytes. -/
theorem trans (same : first.SameBytes second) (sameToo : second.SameBytes third) :
    first.SameBytes third where
  labels := sameToo.labels.trans same.labels
  banks := sameToo.banks.trans same.banks
  flat := same.flat.trans sameToo.flat fun _ _ _ kind kindToo => kindToo.trans kind
  images fill := (same.images fill).trans (sameToo.images fill) (fun _ _ _ => Eq.trans)
    fun _ _ _ kind kindToo => kindToo.trans kind

end Program.SameBytes

/-- Statements around data are assembled to the same bytes with the data in two parts. -/
theorem Assembly.finish_related_of_parts {s : Statement} {xs ys : List Operand}
    (data : s.mnemonic = "DATA") (operands : s.operands = xs ++ ys) (layout : Layout)
    (front back : List Statement) :
    Outcome.Related Program.SameBytes (fun _ _ => True)
      (⟨instructionSet, layout, ⟨front ++ s :: back, none⟩⟩ : Assembly).finish
      (⟨instructionSet, layout, ⟨front ++ s.headed xs :: s.tailed ys :: back, none⟩⟩
        : Assembly).finish := by
  have related := placeAll_related_of_parts data operands layout front back
  simp only [finish]
  generalize placeAll instructionSet layout (front ++ s :: back) = first at related
  generalize placeAll instructionSet layout (front ++ s.headed xs :: s.tailed ys :: back) = second
    at related
  cases related with
  | error => exact .error trivial
  | @ok result resultToo splits =>
    obtain ⟨same, before, p, left, right, behind, parts, whole, wholeToo⟩ := splits
    exact .ok (.of_mirrors (by rw [same])
      (Program.mirrors_of_splits (by rw [same]) (by rw [same]) parts whole wholeToo))

/-- Sources that are the same in other words, with the same names, are assembled to the same
bytes. -/
theorem Assembly.finish_related_of_bare {layout : Layout}
    {pending others : Feed Diagnostic Statement}
    (same : bare.statements pending = bare.statements others) :
    Outcome.Related Program.SameBytes (fun _ _ => True)
      (⟨instructionSet, layout, pending⟩ : Assembly).finish
      (⟨instructionSet, layout, others⟩ : Assembly).finish := by
  have first := bare.finish_assembly (a := ⟨instructionSet, layout, pending⟩) rfl
  have second := bare.finish_assembly (a := ⟨instructionSet, layout, others⟩) rfl
  rw [Rewording.assembly, same] at first
  exact (Rewording.related_of_change_eq (first.symm.trans second)).mono
    (fun _ _ => .of_bare_eq) fun _ _ _ => trivial

/-- Data that stand nowhere. -/
def Statement.dataOf (label : Option Label) (operands : List Operand) : Statement :=
  ⟨label, "DATA", .nowhere, operands⟩

open Statement (dataOf)

/-- Two readings to the end, the second one with data in two parts: the first part with the
label, if there is one, and the first operands, and behind it the second part with the others. -/
inductive SplitsData : Feed Diagnostic Statement → Feed Diagnostic Statement → Prop where
  | parts (front back : List Statement) (label : Option Label) (xs ys : List Operand) :
      SplitsData ⟨front ++ dataOf label (xs ++ ys) :: back, none⟩
        ⟨front ++ dataOf label xs :: dataOf none ys :: back, none⟩

/-- Where data are split places aside, there are statements to split. -/
theorem exists_parts_of_bare {feed others : Feed Diagnostic Statement}
    (splits : SplitsData (bare.statements feed) others) :
    ∃ front s back xs ys, feed = ⟨front ++ s :: back, none⟩ ∧ s.mnemonic = "DATA" ∧
      s.operands = xs ++ ys ∧
        bare.statements ⟨front ++ s.headed xs :: s.tailed ys :: back, none⟩ = others := by
  obtain ⟨items, failure⟩ := feed
  generalize whole : bare.statements ⟨items, failure⟩ = read at splits
  obtain ⟨front, back, label, xs, ys⟩ := splits
  simp only [Rewording.statements, Feed.change, Feed.mk.injEq, Option.map_eq_none_iff] at whole
  obtain ⟨statements, rfl⟩ := whole
  obtain ⟨first, behind, rfl, rfl, parts⟩ := List.map_eq_append_iff.mp statements
  obtain ⟨s, last, rfl, data, rfl⟩ := List.map_eq_cons_iff.mp parts
  obtain ⟨labels, mnemonic, _, operands⟩ := Statement.mk.inj data
  obtain ⟨here, there, whole, rfl, rfl⟩ := List.map_eq_append_iff.mp operands
  refine ⟨first, s, last, here, there, rfl, mnemonic, whole, ?_⟩
  have left : bare.statement (s.headed here) = dataOf label (here.map bare.operand) := by
    simp only [Statement.headed, Rewording.statement, labels, mnemonic]
    rfl
  have right : bare.statement (s.tailed there) = dataOf none (there.map bare.operand) := by
    simp only [Statement.tailed, Rewording.statement, mnemonic]
    rfl
  simp only [Rewording.statements, Feed.change, List.map_append, List.map_cons, left, right,
    Option.map_none]

/-- Data may be split anywhere. Take two sources that are read to the end, and the same
statements but for where they stand and for one `DATA` that the second one has in two parts, the
first of them with the label. Both are assembled or neither is, to the same labels; and they
give the same bytes and the same images, or as many bytes up to a failure of the same kind. -/
theorem related_of_splitsData {source split : String}
    (splits : SplitsData (bare.statements (Statement.ofSource source))
      (bare.statements (Statement.ofSource split)))
    (banks : Nat) (seeds : List (String × UInt8)) :
    Outcome.Related Program.SameBytes (fun _ _ => True) (assemble source banks seeds)
      (assemble split banks seeds) := by
  obtain ⟨front, s, back, xs, ys, read, data, operands, parts⟩ := exists_parts_of_bare splits
  have whole := Assembly.finish_related_of_parts data operands (Layout.start banks seeds) front back
  rw [← read] at whole
  exact whole.trans (Assembly.finish_related_of_bare parts) (fun _ _ _ => .trans)
    fun _ _ _ _ _ => trivial

/-- Data with a label, a string and a reference, split behind the string. A vector that meets the
data is refused in both programs. -/
theorem related_of_splitsData_behind_string :
    ∃ program second,
      assemble "top: DATA \"AB\" top 7\njump <" 1 [] = .ok program ∧
      assemble "top: DATA \"AB\"\nDATA top 7\njump <" 1 [] = .ok second ∧
      program.placed.map (·.code.length) = [4, 2] ∧
      second.placed.map (·.code.length) = [2, 2, 2] ∧ program.SameBytes second := by
  have splits : SplitsData
      (bare.statements (Statement.ofSource "top: DATA \"AB\" top 7\njump <"))
      (bare.statements (Statement.ofSource "top: DATA \"AB\"\nDATA top 7\njump <")) := by
    let jump : Statement := ⟨none, "jump", .nowhere, [.token ⟨.loop, "<", .nowhere⟩]⟩
    let string : Operand := .token ⟨.string, "AB", .nowhere⟩
    let numbers : List Operand :=
      [.token ⟨.reference, "top", .nowhere⟩, .token ⟨.digit, "7", .nowhere⟩]
    have read : bare.statements (Statement.ofSource "top: DATA \"AB\" top 7\njump <") =
        ⟨[] ++ dataOf (some ⟨"top", .nowhere⟩) ([string] ++ numbers) :: [jump], none⟩ := by
      decide +kernel
    have readToo : bare.statements (Statement.ofSource "top: DATA \"AB\"\nDATA top 7\njump <") =
        ⟨[] ++ dataOf (some ⟨"top", .nowhere⟩) [string] :: dataOf none numbers :: [jump], none⟩ := by
      decide +kernel
    rw [read, readToo]
    exact .parts [] [jump] _ [string] numbers
  obtain ⟨program, assembled, lengths⟩ := Outcome.exists_of_toOption_map
    (assemble "top: DATA \"AB\" top 7\njump <" 1 [])
    (fun program => program.placed.map (·.code.length)) [4, 2] (by decide +kernel)
  obtain ⟨second, assembledToo, lengthsToo⟩ := Outcome.exists_of_toOption_map
    (assemble "top: DATA \"AB\"\nDATA top 7\njump <" 1 [])
    (fun program => program.placed.map (·.code.length)) [2, 2, 2] (by decide +kernel)
  have related := related_of_splitsData splits 1 []
  rw [assembled, assembledToo] at related
  cases related with
  | ok same => exact ⟨program, second, assembled, assembledToo, lengths, lengthsToo, same⟩

end BankAsm
