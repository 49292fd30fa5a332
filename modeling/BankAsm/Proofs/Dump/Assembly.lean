import BankAsm.Proofs.Assembly.Pulls
import BankAsm.Proofs.Dump.Reading
import BankAsm.Proofs.Program.Rows
import BankAsm.Proofs.Rewording.Program

/-!
# Images come back from a dump

The statements of a dump fill the banks one after another: the relocation in front of each
bank is placed even where the bank before it is full, and the bytes behind it fill the bank
to its end (`exists_placeAll_statements`). So a dump is assembled, and to the images that it
was written from (`restores_dump`).
-/

namespace BankAsm

open Token (ofByte)
open Rewording (bare)

namespace Dump

section Placing

variable {l : Layout} {bank : Nat} {image : List UInt8}

/-- The relocation to the start of a bank is encoded as its mode, the bank and zero. -/
theorem encode_relocation (bank : Nat) :
    instructionSet.encode (relocation bank) =
      .ok [.byte Relocation.bothMode, .byte (UInt8.ofNat bank), .byte 0] := by
  have known : instructionSet.contains
      ⟨"LOCATE", [.kind .hexadecimal, .group [.kind .hexadecimal]]⟩ := by
    decide +kernel
  have only : ∀ form ∈ InstructionSet.operations ++ InstructionSet.directives,
      form.pattern.mnemonic = "LOCATE" →
      [.kind .hexadecimal, .group [.kind .hexadecimal]] ∈ Param.expandAll form.pattern.params →
        form.template =
          [.byte Relocation.bothMode, .number (.direct 0), .number (.inner 1 0)] := by
    decide +kernel
  have noData : "LOCATE" ≠ "DATA" := by decide
  have encoded : instructionSet.encode (relocation bank) =
      Template.encoder [.byte Relocation.bothMode, .number (.direct 0), .number (.inner 1 0)]
        (relocation bank) :=
    encode_of_form known noData only
  rw [encoded]
  simp [Template.encoder, Template.fill?, Part.octet?, Path.token?, relocation]

/-- Literals as data are encoded as their bytes. -/
theorem encode_data (image : List UInt8) :
    instructionSet.encode (data image) = .ok (image.map .byte) := by
  have octets : Datum.octetsAll .nowhere (image.map fun value => .token (ofByte value)) =
      .ok (image.map .byte) := by
    induction image with
    | nil => rfl
    | cons value image inductionHypothesis =>
      have plain : (ofByte value).kind ∈ TokenKind.plainNumbers := by
        simp [ofByte, TokenKind.plainNumbers]
      have here : Datum.octets .nowhere (.token (ofByte value)) = .ok [.byte value] := by
        rw [Datum.octets_of_plain _ plain, Token.octet?_ofByte]
      rw [List.map_cons, Datum.octetsAll, here, inductionHypothesis]
      rfl
  exact (encode_of_data rfl).trans octets

/-- The relocation to the start of a bank moves there, wherever it stands. -/
theorem placeNext_relocation (inside : bank < l.banks) (few : bank < 256) :
    Assembly.placeNext instructionSet l (relocation bank) =
      ({ l with bank, address := 0 }, .ok ⟨relocation bank, bank, 0, []⟩) := by
  have moves : l.move (.both (UInt8.ofNat bank) 0) = { l with bank, address := 0 } := by
    simp [Layout.move, Nat.mod_eq_of_lt few]
  have places : Layout.Places l (relocation bank)
      [.byte Relocation.bothMode, .byte (UInt8.ofNat bank), .byte 0]
      { l with bank, address := 0 } ⟨relocation bank, bank, 0, []⟩ :=
    .locate rfl rfl rfl rfl moves.symm inside (by simp [relocation]) (.none l.labels _)
  exact Assembly.placeNext_eq_ok_iff.mpr ⟨_, encode_relocation bank, places⟩

/-- The bytes of an image fill a bank from its start to its end. -/
theorem placeNext_data (start : l.address = 0) (size : image.length = bankSize) :
    Assembly.placeNext instructionSet l (data image) =
      ({ l with address := bankSize }, .ok ⟨data image, l.bank, 0, image.map .byte⟩) := by
  have places : Layout.Places l (data image) (image.map .byte)
      { l with address := l.address + (image.map Octet.byte).length }
      ⟨data image, l.bank, l.address, image.map .byte⟩ :=
    .emit rfl (by simp [data]) (by simp [start, size]) (.none l.labels _)
  rw [List.length_map, start, size, Nat.zero_add] at places
  exact Assembly.placeNext_eq_ok_iff.mpr ⟨_, encode_data image, places⟩

/-- The statements of a dump at their places. -/
def placed (images : List (List UInt8 × Nat)) : List Placed :=
  images.flatMap fun (image, bank) =>
    [⟨relocation bank, bank, 0, []⟩, ⟨data image, bank, 0, image.map .byte⟩]

/-- The statements of a dump are placed, each image in its bank. -/
theorem exists_placeAll_statements {images : List (List UInt8 × Nat)}
    (sizes : ∀ entry ∈ images, entry.1.length = bankSize)
    (inside : ∀ entry ∈ images, entry.2 < l.banks ∧ entry.2 < 256) :
    ∃ after, Assembly.placeAll instructionSet l (statements images) = .ok (after, placed images) ∧
      after.banks = l.banks := by
  induction images generalizing l with
  | nil => exact ⟨l, rfl, rfl⟩
  | cons first images inductionHypothesis =>
    obtain ⟨image, bank⟩ := first
    obtain ⟨size, others⟩ := List.forall_mem_cons.mp sizes
    obtain ⟨⟨populated, few⟩, further⟩ := List.forall_mem_cons.mp inside
    have moved := placeNext_relocation populated few
    have filled :
        Assembly.placeNext instructionSet { l with bank, address := 0 } (data image) = _ :=
      placeNext_data rfl size
    obtain ⟨after, placing, banks⟩ :=
      inductionHypothesis (l := { l with bank, address := bankSize }) others further
    refine ⟨after, ?_, banks⟩
    have split : statements ((image, bank) :: images) =
        relocation bank :: data image :: statements images := rfl
    simp only [split, Assembly.placeAll, moved, filled, placing]
    rfl

end Placing

/-- The placed statements of a dump fill the banks with the images. -/
theorem fills_placed {images : List (List UInt8)} {labels : LabelTable}
    (sizes : ∀ image ∈ images, image.length = bankSize) :
    Program.Fills ⟨placed images.zipIdx, labels, images.length⟩ images where
  count := rfl
  sizes := sizes
  rows := by
    simp [placed, imageRows, Placed.row, List.flatMap_assoc, List.zipIdx_map, Function.comp_def]

end Dump

/-- A dump of images is assembled for as many banks as there are images, and gives them back,
whatever the fill byte is. -/
def Restores (images : List (List UInt8)) (seeds : List (String × UInt8)) : Prop :=
  ∃ program, assemble (dump images) images.length seeds = .ok program ∧
    program.flat = ⟨images.flatten, none⟩ ∧ ∀ fill, program.images fill = .ok images

/-- Images of whole banks come back from their dump. -/
theorem Dump.restores_of_sizes {images : List (List UInt8)} (filled : images ≠ [])
    (few : images.length ≤ 256) (sizes : ∀ image ∈ images, image.length = bankSize)
    (seeds : List (String × UInt8)) : Restores images seeds := by
  have banks : max 1 images.length = images.length :=
    Nat.max_eq_right (List.length_pos_iff.mpr filled)
  have inside : ∀ entry ∈ images.zipIdx,
      entry.2 < (Layout.start images.length seeds).banks ∧ entry.2 < 256 := by
    intro entry member
    have bound := (List.getElem?_eq_some_iff.mp (List.mem_zipIdx_iff_getElem?.mp member)).1
    constructor
    · rwa [Layout.start, banks]
    · exact Nat.lt_of_lt_of_le bound few
  have sizesNumbered : ∀ entry ∈ images.zipIdx, entry.1.length = bankSize := by
    intro entry member
    exact sizes _ (List.mem_of_getElem? (List.mem_zipIdx_iff_getElem?.mp member))
  obtain ⟨after, placing, afterBanks⟩ := exists_placeAll_statements sizesNumbered inside
  have fills : Program.Fills ⟨placed images.zipIdx, after.labels, after.banks⟩ images := by
    rw [afterBanks, Layout.start, banks]
    exact fills_placed sizes
  have finished : (⟨instructionSet, Layout.start images.length seeds,
      ⟨statements images.zipIdx, none⟩⟩ : Assembly).finish =
        .ok ⟨placed images.zipIdx, after.labels, after.banks⟩ := by
    simp only [Assembly.finish, placing]
  obtain ⟨program, assembled, same⟩ :=
    Rewording.exists_assemble_of_bare (bare_statements_dump images) finished
  have mirrors := bare.mirrors_program program
  rw [same] at mirrors
  refine ⟨program, assembled, ?_, fun fill => ?_⟩
  · have unbroken := congrArg Feed.failure fills.flat
    rw [← mirrors.flat.eq_of_unbroken (.inr unbroken), fills.flat]
  · have shown := mirrors.images fill
    rw [fills.images] at shown
    generalize program.images fill = outcome at shown
    cases shown with
    | ok equal => rw [equal]

/-- Every image can be written down and assembled again: images of whole banks, for no more
banks than a byte can number, and so all that is shown of a program with no more banks. -/
theorem restores_dump :
    (∀ images : List (List UInt8), images ≠ [] → images.length ≤ 256 →
      (∀ image ∈ images, image.length = bankSize) → ∀ seeds, Restores images seeds) ∧
    ∀ {table source banks seeds program fill images},
      (Assembly.start table source banks seeds).finish = .ok program → program.banks ≤ 256 →
      program.images fill = .ok images →
        images.length = program.banks ∧ ∀ others, Restores images others := by
  constructor
  · intro images filled few sizes seeds
    exact Dump.restores_of_sizes filled few sizes seeds
  · intro table source banks seeds program fill images finished few shown
    have inside := Assembly.cellsInside_of_finish (Layout.inBank_start banks seeds) finished
    have depicts := Program.depicts_of_images inside shown
    obtain ⟨_, run, _, _, lastBanks⟩ := Assembly.pulls_of_finish finished
    have banksEq : program.banks = max 1 banks := lastBanks.trans run.banks_eq
    have some : 0 < program.banks := by omega
    refine ⟨depicts.count, fun others => ?_⟩
    refine Dump.restores_of_sizes ?_ ?_ depicts.sizes others
    · rwa [← List.length_pos_iff, depicts.count]
    · rwa [depicts.count]

/-- As many banks as a byte can number, and a program whose last byte ends its last bank. -/
theorem restores_dump_of_full_banks :
    Restores (List.replicate 256 (List.replicate bankSize 0xAB)) [] ∧
    ∃ program images, assemble "load 1\nLOCATE 1 [#FF]\nhalt" 2 [] = .ok program ∧
      program.banks ≤ 256 ∧ program.images 0x07 = .ok images ∧ Restores images [("halted", 1)] := by
  have sizes : ∀ image ∈ List.replicate 256 (List.replicate bankSize (0xAB : UInt8)),
      image.length = bankSize := by
    intro image member
    rw [List.eq_of_mem_replicate member, List.length_replicate]
  have count : (List.replicate 256 (List.replicate bankSize (0xAB : UInt8))).length = 256 :=
    List.length_replicate
  have filled := List.ne_nil_of_length_eq_add_one count
  refine ⟨restores_dump.1 _ filled (Nat.le_of_eq count) sizes [], ?_⟩
  obtain ⟨program, assembled, seen⟩ := Outcome.exists_of_toOption_map
    (assemble "load 1\nLOCATE 1 [#FF]\nhalt" 2 [])
    (fun program => (program.banks, (program.images 0x07).toOption.isSome)) (2, true)
    (by decide +kernel)
  obtain ⟨banks, some⟩ := Prod.mk.inj seen
  have few : program.banks ≤ 256 := by omega
  cases shown : program.images 0x07 with
  | error f =>
    rw [shown] at some
    cases some
  | ok images =>
    exact ⟨program, images, assembled, few, shown, (restores_dump.2 assembled few shown).2 _⟩

end BankAsm
