import BankAsm.Proofs.Rewording.Contents
import BankAsm.Proofs.Token.Literal

/-!
# Images written as a source

Images can be written down as a source: for each of them a relocation to the start of its
bank, and then its bytes as data (`dump`). Such a source is read as these statements
(`bare_statements_dump`).
-/

namespace BankAsm

open Token (ofByte byteText content Reads)
open Rewording (bare bareClause)

/-- Two lines for a bank: a relocation to its start, and its bytes as data. -/
def dumpBank (bank : Nat) (image : List UInt8) : String :=
  "LOCATE " ++ byteText (UInt8.ofNat bank) ++ " [#00]\n" ++
    " ".intercalate ("DATA" :: image.map byteText) ++ "\n"

/-- The source that images are written as, bank by bank. -/
def dump (images : List (List UInt8)) : String :=
  String.join (images.zipIdx.map fun (image, bank) => dumpBank bank image)

namespace Dump

/-- The relocation to the start of a bank, places aside. -/
def relocation (bank : Nat) : Statement :=
  ⟨none, "LOCATE", .nowhere, [.token (ofByte (UInt8.ofNat bank)), .group [.token (ofByte 0)]]⟩

/-- The bytes of an image as data, places aside. -/
def data (image : List UInt8) : Statement :=
  ⟨none, "DATA", .nowhere, image.map fun value => .token (ofByte value)⟩

/-- The statements of images that are numbered from a bank on. -/
def statements (images : List (List UInt8 × Nat)) : List Statement :=
  images.flatMap fun (image, bank) => [relocation bank, data image]

/-- The tokens of a relocation to the start of a bank. -/
def relocationTokens (bank : Nat) : List Token :=
  [⟨.mnemonic, "LOCATE", .nowhere⟩, ofByte (UInt8.ofNat bank), ⟨.opener, "[", .nowhere⟩, ofByte 0,
    ⟨.closer, "]", .nowhere⟩]

/-- The tokens of the bytes of an image as data. -/
def dataTokens (image : List UInt8) : List Token :=
  ⟨.mnemonic, "DATA", .nowhere⟩ :: image.map ofByte

/-- The tokens of images that are numbered from a bank on. -/
def tokens (images : List (List UInt8 × Nat)) : List (List Token) :=
  images.flatMap fun (image, bank) => [relocationTokens bank, dataTokens image]

section Tokens

variable {behind : List Char} {expected : List (TokenKind × String)}

/-- The mnemonics of a dump stand in sources. -/
theorem valid_mnemonic {word : String} (known : word ∈ ["LOCATE", "DATA"]) :
    Token.Valid ⟨.mnemonic, word, .nowhere⟩ := by
  have read : ∀ word ∈ ["LOCATE", "DATA"],
      (⟨.mnemonic, word, .nowhere⟩ : Token).content ∈
        (Token.ofSource word).items.map content := by
    decide +kernel
  exact ⟨word, read word known⟩

/-- A space is passed over. -/
theorem scan_space (previous : Previous) (position : Position) :
    Token.scan 0 previous position (' ' :: behind) =
      Token.scan 0 previous (position.step ' ') behind := rfl

/-- A character that is a lexeme of its own is read off the front of a text. -/
theorem reads_single {c : Char} {kind : TokenKind}
    (alone : Piece.read c behind = .lexeme ⟨kind, [c], [c]⟩)
    (further : ∀ position, Reads (Token.scan 0 .lexeme position behind) expected)
    (previous : Previous) (position : Position) :
    Reads (Token.scan 0 previous position (c :: behind))
      ((kind, String.ofList [c]) :: expected) := by
  rw [Token.scan_cons_zero, alone]
  exact (further _).cons ⟨kind, String.ofList [c], position⟩

/-- The relocation to the start of a bank is read as its tokens. -/
theorem reads_relocation (bank : Nat)
    (further : ∀ position, Reads (Token.scan 0 .newline position behind) expected)
    (previous : Previous) (position : Position) :
    Reads
      (Token.scan 0 previous position
        (("LOCATE " ++ byteText (UInt8.ofNat bank) ++ " [#00]\n").toList ++ behind))
      ((relocationTokens bank).map content ++ (.terminator, ";") :: expected) := by
  have zero : "#00" = byteText 0 := by decide +kernel
  have text : ("LOCATE " ++ byteText (UInt8.ofNat bank) ++ " [#00]\n").toList ++ behind =
      "LOCATE".toList ++ ' ' :: ((byteText (UInt8.ofNat bank)).toList ++
        ' ' :: '[' :: ("#00".toList ++ ']' :: '\n' :: behind)) := by
    simp
  have space (cs : List Char) : Separated (' ' :: cs) := by simp [Separated, isSeparator]
  have bracket (cs : List Char) : Separated (']' :: cs) := by simp [Separated, isSeparator]
  rw [text, zero]
  refine Token.reads_spelling (valid_mnemonic (show "LOCATE" ∈ _ by simp)) rfl (space _) ?_ _ _
  intro first
  rw [scan_space]
  refine Token.reads_spelling (Token.valid_ofByte _) rfl (space _) ?_ _ _
  intro second
  rw [scan_space]
  refine reads_single rfl ?_ _ _
  intro third
  refine Token.reads_spelling (Token.valid_ofByte _) rfl (bracket _) ?_ _ _
  intro fourth
  refine reads_single rfl ?_ _ _
  intro last
  rw [Token.scan_cons_zero]
  exact (further (last.step '\n')).cons (Token.terminator last)

/-- The bytes of an image are read as data. -/
theorem reads_data (image : List UInt8)
    (further : ∀ position, Reads (Token.scan 0 .newline position behind) expected)
    (previous : Previous) (position : Position) :
    Reads
      (Token.scan 0 previous position
        ((" ".intercalate ("DATA" :: image.map byteText) ++ "\n").toList ++ behind))
      ((dataTokens image).map content ++ (.terminator, ";") :: expected) := by
  have spelled : (dataTokens image).map Token.spelling =
      ("DATA" :: image.map byteText).map String.toList := by
    simp [dataTokens, Token.spelling, ofByte]
  have text : (" ".intercalate ("DATA" :: image.map byteText) ++ "\n").toList ++ behind =
      Token.line (dataTokens image) ++ '\n' :: behind := by
    rw [Token.line, spelled, String.toList_append, String.toList_intercalate]
    simp
  rw [text]
  refine Token.reads_statement (by simp [dataTokens]) ?_ (.inl rfl) further previous position
  intro t member
  rcases List.mem_cons.mp member with rfl | byte
  · exact ⟨valid_mnemonic (by simp), rfl⟩
  · obtain ⟨value, _, rfl⟩ := List.mem_map.mp byte
    exact ⟨Token.valid_ofByte value, rfl⟩

/-- A dump is read as its tokens. -/
theorem reads_dump (images : List (List UInt8 × Nat)) (previous : Previous)
    (fresh : previous.close '\n' = .nothing) (position : Position) :
    Reads
      (Token.scan 0 previous position
        (images.flatMap fun (image, bank) => (dumpBank bank image).toList))
      (Token.contents (tokens images)) := by
  induction images generalizing previous position with
  | nil =>
    simp only [List.flatMap_nil, Token.scan, Token.finish, fresh]
    exact ⟨rfl, rfl⟩
  | cons first images inductionHypothesis =>
    obtain ⟨image, bank⟩ := first
    have behind := inductionHypothesis .newline rfl
    have data := reads_data image behind .newline
    have whole := reads_relocation bank data previous position
    simpa [dumpBank, tokens, Token.contents] using whole

end Tokens

/-- Bytes as data are spelled by their literals. -/
theorem spelled_bytes (image : List UInt8) :
    Operand.Spelled (image.map fun value => .token (ofByte value)) (image.map ofByte) := by
  induction image with
  | nil => exact .nil
  | cons value image inductionHypothesis => exact .token rfl inductionHypothesis

/-- The tokens of a bank spell its statements. -/
theorem ofBlock_tokens (bank : Nat) (image : List UInt8) :
    List.Forall₂ (fun ts s => Statement.ofBlock (bareClause ts).block = .ok (some s))
      [relocationTokens bank, dataTokens image] [relocation bank, data image] := by
  have data :
      Statement.ofBlock (bareClause (dataTokens image)).block = .ok (some (data image)) := by
    have literals : (image.map ofByte).map bare.token = image.map ofByte := by
      rw [List.map_map]
      exact List.map_congr_left fun value _ => rfl
    have read : Operand.read (.ok (Token.terminator .nowhere)) [] [] (image.map ofByte ++ []) = _ :=
      (spelled_bytes image).read_append [] [] []
    rw [List.append_nil, List.append_nil] at read
    have behind : Statement.ofBlock (bareClause (dataTokens image)).block =
        some <$> (Operand.read (.ok (Token.terminator .nowhere)) [] []
          ((image.map ofByte).map bare.token)).map fun operands =>
            ⟨none, "DATA", .nowhere, operands⟩ := rfl
    rw [behind, literals, read, Operand.read, List.reverse_reverse]
    rfl
  exact .cons rfl (.cons data .nil)

/-- The tokens of a bank make up whole clauses. -/
theorem whole_tokens (bank : Nat) (image : List UInt8) :
    ∀ ts ∈ [relocationTokens bank, dataTokens image], (bareClause ts).Whole := by
  intro ts member
  rcases List.mem_pair.mp member with rfl | rfl
  · refine ⟨by simp [bareClause, relocationTokens], ?_, rfl⟩
    simp [bareClause, relocationTokens, ofByte]
  · refine ⟨by simp [bareClause, dataTokens], ?_, rfl⟩
    simp [bareClause, dataTokens, ofByte]

/-- A dump is read as its statements, places aside. -/
theorem bare_statements_dump (images : List (List UInt8)) :
    bare.statements (Statement.ofSource (dump images)) = ⟨statements images.zipIdx, none⟩ := by
  have reads : Reads (Token.ofSource (dump images)) (Token.contents (tokens images.zipIdx)) := by
    rw [Token.ofSource, dump, String.toList_join, List.flatMap_map]
    exact reads_dump images.zipIdx .nothing rfl .start
  refine Rewording.bare_statements_of_reads reads ?_ ?_
  · intro ts among
    obtain ⟨⟨image, bank⟩, _, member⟩ := List.mem_flatMap.mp among
    exact whole_tokens bank image ts member
  · refine List.rel_flatMap (List.forall₂_same.mpr fun _ _ => rfl) ?_
    rintro ⟨image, bank⟩ _ rfl
    exact ofBlock_tokens bank image

/-- Two banks of two bytes each, written down. -/
example : dump [[0x0A, 0xFF], [0x00, 0x3E]] =
    "LOCATE #00 [#00]\nDATA #0A #FF\nLOCATE #01 [#00]\nDATA #00 #3E\n" := by
  decide +kernel

end Dump

end BankAsm
