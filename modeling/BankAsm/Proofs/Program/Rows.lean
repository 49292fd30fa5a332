import BankAsm.Proofs.Program.Agreement
import Mathlib.Data.List.Forall2
import Mathlib.Data.List.Nodup

/-!
# Programs that fill their banks

A program may fill its banks one after another, each of them from its first address to its
last (`Program.Fills`). Then its images are what it fills the banks with, whatever the fill
byte is (`Fills.images`), and its flat bytes are the same bytes in a row (`Fills.flat`).
-/

namespace BankAsm

/-- The bytes of images, each with its place. -/
def imageRows (images : List (List UInt8)) : List (Place × Octet) :=
  images.zipIdx.flatMap fun (image, bank) =>
    image.zipIdx.map fun (value, address) => (⟨bank, address⟩, .byte value)

section Images

variable {images others : List (List UInt8)}

/-- The bytes of images are at their places, and nothing else is. -/
theorem mem_imageRows {place : Place} {octet : Octet} :
    (place, octet) ∈ imageRows images ↔
      ∃ value, byteAt images place = some value ∧ octet = .byte value := by
  constructor
  · intro member
    obtain ⟨⟨image, bank⟩, hasImage, inImage⟩ := List.mem_flatMap.mp member
    obtain ⟨⟨value, address⟩, hasValue, same⟩ := List.mem_map.mp inImage
    obtain ⟨rfl, rfl⟩ := Prod.mk.inj same
    have imageFound : images[bank]? = some image := List.mem_zipIdx_iff_getElem?.mp hasImage
    have valueFound : image[address]? = some value := List.mem_zipIdx_iff_getElem?.mp hasValue
    exact ⟨value, by simp [byteAt, imageFound, valueFound], rfl⟩
  · rintro ⟨value, found, rfl⟩
    obtain ⟨image, imageFound, valueFound⟩ := Option.bind_eq_some_iff.mp found
    apply List.mem_flatMap.mpr
    refine ⟨(image, place.bank), List.mem_zipIdx_iff_getElem?.mpr imageFound, ?_⟩
    apply List.mem_map.mpr
    exact ⟨(value, place.address), List.mem_zipIdx_iff_getElem?.mpr valueFound, rfl⟩

/-- The octets of images are their bytes. -/
theorem map_snd_imageRows : (imageRows images).map (·.2) = images.flatten.map .byte := by
  have bytes (image : List UInt8) :
      image.zipIdx.map (fun entry => Octet.byte entry.1) = image.map .byte := by
    have values := congrArg (List.map Octet.byte) (List.zipIdx_map_fst 0 image)
    rwa [List.map_map] at values
  calc (imageRows images).map (·.2)
    _ = images.zipIdx.flatMap fun entry => entry.1.map .byte := by
      simp only [imageRows, List.map_flatMap, List.map_map, Function.comp_def, bytes]
    _ = (images.zipIdx.map Prod.fst).flatMap fun image => image.map .byte := by
      rw [List.flatMap_map]
    _ = images.flatten.map .byte := by
      rw [List.zipIdx_map_fst, List.map_flatten, List.flatMap_def]

/-- No two bytes of images are at one place. -/
theorem nodup_places_imageRows : ((imageRows images).map (·.1)).Nodup := by
  have numbers {α : Type} (list : List α) : (list.zipIdx.map Prod.snd).Nodup := by
    rw [List.zipIdx_map_snd]
    exact List.nodup_range'
  simp only [imageRows, List.map_flatMap, List.map_map, Function.comp_def]
  rw [List.nodup_flatMap]
  constructor
  · rintro ⟨image, bank⟩ _
    have places := (numbers image).map (f := fun address => Place.mk bank address)
      fun _ _ same => (Place.mk.inj same).2
    simpa only [List.map_map, Function.comp_def] using places
  · have apart := List.pairwise_map.mp (numbers images)
    refine apart.imp fun {here there} differ => ?_
    simp only [Function.onFun, List.disjoint_left, List.mem_map]
    rintro place ⟨_, _, rfl⟩ ⟨_, _, same⟩
    exact differ (Place.mk.inj same).1.symm

/-- Images of the same size are equal if they have the same bytes. -/
theorem eq_of_byteAt (count : images.length = others.length)
    (sizes : ∀ image ∈ images, image.length = bankSize)
    (sizesToo : ∀ image ∈ others, image.length = bankSize)
    (agree : ∀ place value, byteAt images place = some value → byteAt others place = some value) :
    images = others := by
  refine List.ext_getElem count fun bank inside insideToo => ?_
  have size := sizes _ (List.getElem_mem inside)
  have sizeToo := sizesToo _ (List.getElem_mem insideToo)
  refine List.ext_getElem (size.trans sizeToo.symm) fun address here there => ?_
  have found : byteAt images ⟨bank, address⟩ = some images[bank][address] := by
    simp [byteAt, inside, here]
  have foundToo := agree _ _ found
  simpa [byteAt, insideToo, there] using foundToo.symm

end Images

namespace Program

/-- A program that fills its banks with images, one byte after another. -/
structure Fills (program : Program) (images : List (List UInt8)) : Prop where
  count : images.length = program.banks
  sizes : ∀ image ∈ images, image.length = bankSize
  rows : program.placed.flatMap (·.row) = imageRows images

variable {program : Program} {shown : List (List UInt8)}

/-- The cells of a program that fills its banks are the bytes that it fills them with. -/
theorem Fills.byte_of_mem (fills : program.Fills shown) {cell : Cell}
    (member : cell ∈ program.cells) :
    ∃ value, byteAt shown cell.place = some value ∧ cell.octet = .byte value := by
  rw [← mem_imageRows, ← fills.rows, ← map_cells]
  exact List.mem_map_of_mem member

/-- The octets of a program that fills its banks. -/
theorem Fills.octets (fills : program.Fills shown) :
    program.cells.map (·.octet) = shown.flatten.map .byte := by
  rw [← map_snd_imageRows, ← fills.rows, ← map_cells, List.map_map]
  rfl

/-- The flat bytes of a program that fills its banks. -/
theorem Fills.flat (fills : program.Fills shown) : program.flat = ⟨shown.flatten, none⟩ := by
  have octets := fills.octets
  rw [flat_eq_iff, answers]
  rw [← List.forall₂_eq_eq_eq, List.forall₂_map_left_iff, List.forall₂_map_right_iff] at octets ⊢
  refine octets.imp fun cell value same => ?_
  rw [resolveCell, same]
  rfl

/-- The images of a program that fills its banks. -/
theorem Fills.images (fills : program.Fills shown) (fill : UInt8) :
    program.images fill = .ok shown := by
  have inside : CellsInside program.banks program.cells := by
    intro cell member
    obtain ⟨value, found, _⟩ := fills.byte_of_mem member
    obtain ⟨image, imageFound, valueFound⟩ := Option.bind_eq_some_iff.mp found
    obtain ⟨bankInside, rfl⟩ := List.getElem?_eq_some_iff.mp imageFound
    obtain ⟨addressInside, _⟩ := List.getElem?_eq_some_iff.mp valueFound
    rw [fills.sizes _ (List.getElem_mem bankInside)] at addressInside
    exact ⟨fills.count ▸ bankInside, addressInside⟩
  have writable : program.Writable program.cells := {
    resolves := by
      intro cell member
      obtain ⟨value, _, byte⟩ := fills.byte_of_mem member
      exact ⟨value, by rw [resolveCell, byte, resolve]⟩
    distinct := by
      have places : ((imageRows shown).map (·.1)).Nodup := nodup_places_imageRows
      rw [← fills.rows, ← map_cells, List.map_map] at places
      exact places }
  obtain ⟨others, found⟩ := (agrees_of_cellsInside inside fill).images_iff.mpr writable
  have depicts := depicts_of_images inside found
  rw [found]
  refine congrArg Except.ok (eq_of_byteAt ?_ fills.sizes depicts.sizes ?_).symm
  · rw [fills.count, depicts.count]
  · intro place value here
    have member : (place, .byte value) ∈ imageRows shown := mem_imageRows.mpr ⟨value, here, rfl⟩
    rw [← fills.rows, ← map_cells] at member
    obtain ⟨cell, among, same⟩ := List.mem_map.mp member
    obtain ⟨rfl, byte⟩ := Prod.mk.inj same
    obtain ⟨number, numbered⟩ := List.mem_iff_getElem?.mp among
    obtain ⟨shownValue, flat, stands⟩ := depicts.filled number cell numbered
    have octet := congrArg (fun octets => octets[number]?) fills.octets
    rw [fills.flat] at flat
    simp only [List.getElem?_map, numbered, flat, Option.map_some, byte, Option.some.injEq,
      Octet.byte.injEq] at octet
    rw [octet]
    exact stands

end Program

end BankAsm
