import BankAsm.Proofs.Assembly.Finishing
import BankAsm.Proofs.Assembly.Offers
import BankAsm.Proofs.Layout.Anchors
import BankAsm.Proofs.Program.Anchors
import BankAsm.Proofs.Token.Offsets

/-!
# Every diagnostic points into the source

The tokens of a source account for a diagnostic if their scan failed with it or if it
stands at one of them (`Diagnostic.Traced`). That is kept through an assembly: the
statements that are still pending stand at tokens, placing one reports at a token, and
what is placed keeps the positions that streams and images report at later
(`Assembly.traced_of_reports`). Tokens stand at byte offsets of the source, and so does the
failure of a scan, so every diagnostic does (`Assembly.pointsInto_of_reports`).
-/

namespace BankAsm

namespace Assembly

variable {tokens : Feed Diagnostic Token} {assembly : Assembly} {d : Diagnostic}

/-- An assembly in the language whose pending statements are accounted for by tokens. -/
structure Traces (tokens : Feed Diagnostic Token) (assembly : Assembly) : Prop where
  table : assembly.table = instructionSet
  reads : Statement.Reads tokens assembly.pending

/-- The assembly of a source is accounted for by the tokens of the source. -/
theorem traces_start (source : String) (banks : Nat) (seeds : List (String × UInt8)) :
    Traces (Token.ofSource source) (start instructionSet source banks seeds) where
  table := rfl
  reads := Statement.reads_ofSource source

/-- Nothing pending is accounted for. -/
theorem reads_done : Statement.Reads tokens .done where
  items := by simp [Feed.done]
  failure := by simp [Feed.done]

/-- A pull leaves an assembly accounted for. -/
theorem Traces.pull (traces : Traces tokens assembly) : Traces tokens assembly.pull.2 := by
  have reads := traces.reads
  unfold Assembly.pull
  split
  case h_1 => exact traces
  case h_2 => exact ⟨traces.table, reads_done⟩
  case h_3 s rest failure pending =>
    rw [pending] at reads
    split
    case h_1 =>
      refine ⟨traces.table, ?_, reads.failure⟩
      exact (List.forall_mem_cons.mp reads.items).2
    case h_2 => exact ⟨traces.table, reads_done⟩

/-- So do pulls, as many as there are. -/
theorem Traces.behind (traces : Traces tokens assembly) (count : Nat) :
    Traces tokens (assembly.behind count) := by
  induction count with
  | zero => exact traces
  | succ count inductionHypothesis => exact inductionHypothesis.pull

/-- A statement that is not placed is reported at one of its tokens. -/
theorem atToken_of_placeNext {ts : List Token} {layout after : Layout} {s : Statement}
    (anchored : s.Anchored ts)
    (fails : placeNext instructionSet layout s = (after, .error (.reported d))) :
    d.AtToken ts := by
  rcases fails_of_placeNext fails with ⟨_, failed⟩ | ⟨code, other, encoded, same, refused⟩
  · exact atToken_of_encode anchored failed
  · obtain rfl := Failure.reported.inj same
    exact refused.atToken anchored ((encodes_of_encode encoded).marked anchored)

/-- A failure that a pull gives is accounted for. -/
theorem Traces.traced_of_pull (traces : Traces tokens assembly)
    (fails : assembly.pull.1 = some (.error (.reported d))) : d.Traced tokens := by
  have reads := traces.reads
  unfold Assembly.pull at fails
  split at fails
  case h_1 => cases fails
  case h_2 other pending =>
    obtain rfl := Failure.reported.inj (Except.error.inj (Option.some.inj fails))
    rw [pending] at reads
    exact reads.failure other rfl
  case h_3 s rest failure pending =>
    rw [pending] at reads
    split at fails
    case h_1 => cases fails
    case h_2 layout failed placing =>
      obtain rfl := Except.error.inj (Option.some.inj fails)
      rw [traces.table] at placing
      exact .inr (atToken_of_placeNext (reads.items s List.mem_cons_self) placing)

/-- Placing statements up to the first failure. -/
theorem atToken_of_placeAll {ts : List Token} {layout : Layout} {items : List Statement}
    (anchored : ∀ s ∈ items, s.Anchored ts)
    (fails : placeAll instructionSet layout items = .error (.reported d)) : d.AtToken ts := by
  induction items generalizing layout with
  | nil => cases fails
  | cons s rest inductionHypothesis =>
    obtain ⟨here, later⟩ := List.forall_mem_cons.mp anchored
    unfold placeAll at fails
    split at fails
    case h_1 placing =>
      obtain rfl := Except.error.inj fails
      exact atToken_of_placeNext here placing
    case h_2 => exact inductionHypothesis later (Outcome.map_eq_error_iff.mp fails)

/-- A failure of finishing is accounted for. -/
theorem Traces.traced_of_finish (traces : Traces tokens assembly)
    (fails : assembly.finish = .error (.reported d)) : d.Traced tokens := by
  unfold finish at fails
  split at fails
  case h_1 failure failed =>
    obtain rfl := Except.error.inj fails
    rw [traces.table] at failed
    exact .inr (atToken_of_placeAll traces.reads.items failed)
  case h_2 =>
    split at fails
    case h_1 other broken =>
      obtain rfl := Failure.reported.inj (Except.error.inj fails)
      exact traces.reads.failure other broken
    case h_2 => cases fails

/-- A statement that is placed keeps its tokens. -/
theorem Traces.anchored_of_pull {placed : Placed} {after : Assembly}
    (traces : Traces tokens assembly) (pulled : assembly.pull = (some (.ok placed), after)) :
    placed.Anchored tokens.items := by
  have statement : placed.statement.Anchored tokens.items := by
    refine traces.reads.items _ ?_
    rw [(takes_of_pull pulled).items]
    exact List.mem_cons_self
  obtain ⟨code, encoded, places⟩ := places_of_pull pulled
  rw [traces.table] at encoded
  exact ⟨statement, places.marked ((encodes_of_encode encoded).marked statement)⟩

/-- The statements of a run keep their tokens. -/
theorem Pulls.anchored {placed : List Placed} {last : Assembly} (run : Pulls assembly placed last)
    (traces : Traces tokens assembly) :
    (∀ p ∈ placed, p.Anchored tokens.items) ∧ Traces tokens last := by
  induction run with
  | refl => exact ⟨by simp, traces⟩
  | @step _ current next after _ pulled inductionHypothesis =>
    obtain ⟨before, here⟩ := inductionHypothesis
    have behind := here.pull
    rw [pulled] at behind
    refine ⟨List.forall_mem_append.mpr ⟨before, ?_⟩, behind⟩
    intro p member
    rw [List.mem_singleton.mp member]
    exact here.anchored_of_pull pulled

/-- A program that is finished keeps the tokens of the source. -/
theorem Traces.anchored_of_finish {program : Program} (traces : Traces tokens assembly)
    (finished : assembly.finish = .ok program) : program.Anchored tokens.items := by
  obtain ⟨last, run, _⟩ := pulls_of_finish finished
  exact (run.anchored traces).1

/-- The diagnostics of a source in the language, stage by stage: of its tokens, of its
statements, of pulling placed statements, of finishing behind some pulls, of the bytes of
a finished program one after the other, and of the images of its banks. -/
inductive Reports (source : String) (banks : Nat) (seeds : List (String × UInt8)) :
    Diagnostic → Prop where
  | scanning {d : Diagnostic}
      (fails : (Token.ofSource source).failure = some d) :
      Reports source banks seeds d
  | reading {d : Diagnostic}
      (fails : (Statement.ofSource source).failure = some d) :
      Reports source banks seeds d
  | pulling {d : Diagnostic} (count : Nat)
      (fails : (start instructionSet source banks seeds).answer count =
        some (.error (.reported d))) :
      Reports source banks seeds d
  | finishing {d : Diagnostic} (count : Nat)
      (fails : ((start instructionSet source banks seeds).behind count).finish =
        .error (.reported d)) :
      Reports source banks seeds d
  | streaming {d : Diagnostic} {program : Program} (count pulls : Nat)
      (finished : ((start instructionSet source banks seeds).behind count).finish = .ok program)
      (fails : (ByteStream.start program).answer pulls = some (.error (.reported d))) :
      Reports source banks seeds d
  | filling {d : Diagnostic} {program : Program} (count : Nat) (fill : UInt8)
      (finished : ((start instructionSet source banks seeds).behind count).finish = .ok program)
      (fails : program.images fill = .error (.reported d)) :
      Reports source banks seeds d

/-- Every diagnostic is accounted for by the tokens of the source. -/
theorem traced_of_reports {source : String} {banks : Nat} {seeds : List (String × UInt8)}
    (reports : Reports source banks seeds d) : d.Traced (Token.ofSource source) := by
  have traces := (traces_start source banks seeds).behind
  cases reports with
  | scanning fails => exact .inl fails
  | reading fails => exact (Statement.reads_ofSource source).failure d fails
  | pulling count fails => exact (traces count).traced_of_pull fails
  | finishing count fails => exact (traces count).traced_of_finish fails
  | streaming count pulls finished fails =>
    exact .inr (Program.atToken_of_answer ((traces count).anchored_of_finish finished) fails)
  | filling count fill finished fails =>
    exact .inr (Program.atToken_of_images ((traces count).anchored_of_finish finished) fails)

end Assembly

namespace Diagnostic

variable {source : String} {d : Diagnostic}

/-- An illegal byte at an offset behind legal bytes, whose code the diagnostic shows. -/
structure ShowsByte (bytes : List UInt8) (offset : Nat) (d : Diagnostic) (byte : UInt8) :
    Prop where
  here : bytes[offset]? = some byte
  illegal : isLegalByte byte = false
  before : ∀ earlier ∈ bytes.take offset, isLegalByte earlier = true
  shown : d.cause.text = "cannot scan charcode, 0x" ++ String.ofList (Text.hex byte.toNat)

/-- A diagnostic that stands at an offset into the source, at the illegal byte if it is
about one. It is the failure of the scan, and then of a kind of its own, or it stands at
a token. -/
structure PointsInto (source : String) (d : Diagnostic) : Prop where
  offset : ∃ offset ≤ (sourceBytes source).length,
    d.position = Position.ofOffset (sourceBytes source) offset ∧
      (d.kind = .illegalCharacter → ∃ byte, d.ShowsByte (sourceBytes source) offset byte)
  somewhere : d.position ≠ .nowhere
  scanned : (Token.ofSource source).failure = some d ↔ d.kind.isOfScan = true
  token : (Token.ofSource source).failure ≠ some d →
    ∃ t ∈ (Token.ofSource source).items, t.position = d.position

/-- A diagnostic of a scan about an illegal character shows the byte in front of which
the scan stopped. -/
theorem exists_showsByte {bytes : List UInt8} {offset : Nat} {behind : List Char}
    (ofScan : d.cause.OfScan behind) (kind : d.kind = .illegalCharacter)
    (before : ∀ byte ∈ bytes.take offset, isLegalByte byte = true)
    (rest : bytes.drop offset = behind.flatMap String.utf8EncodeChar) :
    ∃ byte, d.ShowsByte bytes offset byte := by
  obtain ⟨cause, position⟩ := d
  cases ofScan with
  | @illegal c behind illegal =>
    refine ⟨leadByte c, ?_, isLegalByte_leadByte illegal, before, rfl⟩
    rw [← List.head?_drop, rest]
    exact head?_utf8Encode c behind
  | unrecognized => cases kind
  | emptyStatement => cases kind
  | reservedLabel => cases kind

/-- A diagnostic that the tokens of a source account for points into the source. -/
theorem pointsInto_of_traced (traced : d.Traced (Token.ofSource source)) :
    d.PointsInto source := by
  have located := Token.located_ofSource source
  rcases traced with failed | atToken
  · obtain ⟨behind, leads, ofScan⟩ := located.failure d failed
    obtain ⟨offset, inside, place, before, rest⟩ := leads.exists_offset
    refine ⟨⟨offset, inside, place, ?_⟩, ?_, iff_of_true failed ofScan.isOfScan, ?_⟩
    · exact fun kind => exists_showsByte ofScan kind before rest
    · rw [place]
      exact Position.ofOffset_ne_nowhere _ _
    · exact fun other => absurd failed other
  · obtain ⟨t, member, marks⟩ := atToken.marks
    obtain ⟨behind, leads⟩ := located.items t member
    obtain ⟨offset, inside, place, _⟩ := leads.exists_offset
    rw [marks] at place
    have later : ¬d.kind.isOfScan = true := by simp [atToken.kind]
    have unscanned : (Token.ofSource source).failure ≠ some d := by
      intro failed
      obtain ⟨_, _, ofScan⟩ := located.failure d failed
      exact later ofScan.isOfScan
    refine ⟨⟨offset, inside, place, ?_⟩, ?_, iff_of_false unscanned later, ?_⟩
    · intro kind
      exact absurd (by rw [kind]; rfl) later
    · rw [place]
      exact Position.ofOffset_ne_nowhere _ _
    · exact fun _ => ⟨t, member, marks⟩

end Diagnostic

/-- Every diagnostic of a source, of whatever stage, points into the source. -/
theorem Assembly.pointsInto_of_reports (source : String) (banks : Nat)
    (seeds : List (String × UInt8)) {d : Diagnostic}
    (reports : Assembly.Reports source banks seeds d) : d.PointsInto source :=
  Diagnostic.pointsInto_of_traced (traced_of_reports reports)

/-- A scan that stops at a character beyond ASCII, and a program whose third byte belongs
to a label that is never bound. -/
theorem Assembly.pointsInto_of_reports_of_undefined :
    (Token.ofSource "nop é").failure = some ⟨.illegalByte 0xC3, ⟨1, 5⟩⟩ ∧
      Diagnostic.PointsInto "nop é" ⟨.illegalByte 0xC3, ⟨1, 5⟩⟩ ∧
      ∃ program,
        (start instructionSet "nop\njump here" 1 []).finish = .ok program ∧
        (ByteStream.start program).answer 2 =
          some (.error (.reported ⟨.undefinedLabel "here", ⟨2, 6⟩⟩)) ∧
        Diagnostic.PointsInto "nop\njump here" ⟨.undefinedLabel "here", ⟨2, 6⟩⟩ := by
  have scanned : (Token.ofSource "nop é").failure = some ⟨.illegalByte 0xC3, ⟨1, 5⟩⟩ := by
    decide +kernel
  obtain ⟨program, finished, unresolved⟩ :=
    Outcome.exists_of_toOption_map (start instructionSet "nop\njump here" 1 []).finish
      (fun program => (ByteStream.start program).answer 2)
      (some (.error (.reported ⟨.undefinedLabel "here", ⟨2, 6⟩⟩))) (by decide +kernel)
  refine ⟨scanned, ?_, program, finished, unresolved, ?_⟩
  · exact pointsInto_of_reports "nop é" 1 [] (.scanning scanned)
  · exact pointsInto_of_reports "nop\njump here" 1 [] (.streaming 0 2 finished unresolved)

end BankAsm
