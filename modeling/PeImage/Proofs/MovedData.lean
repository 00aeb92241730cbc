/-
Where recomputing the headers moves the raw data of sections.

Recomputed headers may end elsewhere than they did, and the raw data of all sections moves by one
distance. That distance is measured from the raw data of the first section, which goes to the new
end of the headers, and not from the old end of the headers.

* `Image.headerShift`: how far the end of the headers moves;
* `Image.dataShift_eq_headerShift_iff`: when the data moves as far as that;
* `Image.movesData_makeValid`: what becomes of each section, and exactly when its raw data keeps its
  distance from the headers or stays where it is;
* `Image.misplaced_blankFile`: a file of which the headers end where they did, and the raw data
  moves, because the first section has none.
-/
import PeImage.Proofs.Outcome
import PeImage.Proofs.Recomputed

namespace PeImage

namespace Image

variable {image : Image} {first s : SectionHeader} {i : ℕ}

/-- How far recomputing moves the end of the headers, modulo `2 ^ 32`. -/
def headerShift (image : Image) : UInt32 :=
  image.makeValid.optional.sizeOfHeaders - image.optional.sizeOfHeaders

lemma dataShift_eq (h : image.sections.head? = some first) :
    image.dataShift = image.makeValid.optional.sizeOfHeaders - first.rawPointer := by
  rw [dataShift, h]

/-- The data moves as far as the headers exactly if that of the first section began where they
ended. -/
lemma dataShift_eq_headerShift_iff (h : image.sections.head? = some first) :
    image.dataShift = image.headerShift ↔ first.rawPointer = image.optional.sizeOfHeaders := by
  rw [dataShift_eq h, headerShift]
  exact sub_right_inj

/-- The data stays exactly if that of the first section begins where the recomputed headers end. -/
lemma dataShift_eq_zero_iff (h : image.sections.head? = some first) :
    image.dataShift = 0 ↔ first.rawPointer = image.makeValid.optional.sizeOfHeaders := by
  rw [dataShift_eq h]
  exact sub_eq_zero.trans eq_comm

/-- Each section is moved for itself. -/
lemma section?_makeValid (hs : image.section? i = some s) :
    image.makeValid.section? i = some (s.moveData image.dataShift) := by
  rw [section?] at hs ⊢
  rw [sections_makeValid, List.getElem?_map, hs]
  rfl

/-- **What recomputing makes of each section.** There are as many sections as before, and nothing of
a section changes but the place of its raw data. That moves by the distance from where the raw data
of the first section was to the new end of the headers. So it moves as far as the end of the headers
exactly if the raw data of the first section began there, and it stays where it is exactly if that
begins at the new end. -/
theorem movesData_makeValid (h : image.sections.head? = some first) :
    let made := image.makeValid
    made.sections.length = image.sections.length ∧
      ∀ i s, image.section? i = some s → ∃ t, made.section? i = some t ∧
        t = { s with rawPointer := t.rawPointer } ∧
        t.rawPointer = s.rawPointer + (made.optional.sizeOfHeaders - first.rawPointer) ∧
        (t.rawPointer = s.rawPointer +
            (made.optional.sizeOfHeaders - image.optional.sizeOfHeaders) ↔
          first.rawPointer = image.optional.sizeOfHeaders) ∧
        (t.rawPointer = s.rawPointer ↔ first.rawPointer = made.optional.sizeOfHeaders) := by
  intro made
  have hlength : made.sections.length = image.sections.length := by
    rw [sections_makeValid, List.length_map]
  refine ⟨hlength, fun i s hs => ⟨_, section?_makeValid hs, rfl, ?_, ?_, ?_⟩⟩
  · rw [← dataShift_eq h]
    rfl
  · exact (add_right_inj _).trans (dataShift_eq_headerShift_iff h)
  · exact add_eq_left.trans (dataShift_eq_zero_iff h)

/-- A file with six sections, of which the first one has raw data behind the headers. Its optional
header has no directories, and with all of them the headers do not fit into one sector. -/
def grownFile : ByteArray :=
  smallFile 0x1000 0x7000
    ({ virtualSize := 0x1000, virtualAddress := 0x1000, rawSize := 8, rawPointer := 0x200,
       characteristics := 0x40000000 } ::
      (List.range 5).map fun i =>
        { virtualSize := 0x1000, virtualAddress := .ofNat (0x1000 * (i + 2)),
          characteristics := 0x40000000 })
    (List.replicate 88 0 ++ [1, 2, 3, 4, 5, 6, 7, 8])

/-- The headers grow by one sector, and the raw data moves by as much. -/
theorem movesData_grownFile :
    let image := (loadFile grownFile).1
    let made := image.makeValid
    image.isMapped = true ∧ image.optional.sizeOfHeaders = 0x200 ∧
      made.optional.sizeOfHeaders = 0x400 ∧ image.sections.length = 6 ∧
      ∀ i s, image.section? i = some s → ∃ t, made.section? i = some t ∧
        t.rawPointer = s.rawPointer + 0x200 := by
  have hload : (loadFile grownFile).1.isMapped = true ∧
      (loadFile grownFile).1.optional.sizeOfHeaders = 0x200 ∧
      (loadFile grownFile).1.makeValid.optional.sizeOfHeaders = 0x400 ∧
      (loadFile grownFile).1.sections.length = 6 ∧
      (loadFile grownFile).1.sections.head?.map (·.rawPointer) = some 0x200 := by
    decide +kernel
  generalize (loadFile grownFile).1 = image at hload ⊢
  obtain ⟨hmapped, hold, hnew, hlength, hhead⟩ := hload
  obtain ⟨first, hfirst, hpointer⟩ := Option.map_eq_some_iff.mp hhead
  refine ⟨hmapped, hold, hnew, hlength, fun i s hs => ?_⟩
  obtain ⟨t, ht, -, -, hmoves, -⟩ := (movesData_makeValid hfirst).2 i s hs
  rw [hnew, hold] at hmoves
  exact ⟨t, ht, hmoves.mpr hpointer⟩

/-- A file with two sections, of which only the second one has raw data, behind the headers. -/
def blankFile : ByteArray :=
  smallFile 0x1000 0x3000
    [{ virtualSize := 0x1000, virtualAddress := 0x1000, characteristics := 0x40000000 },
     { virtualSize := 0x1000, virtualAddress := 0x2000, rawSize := 8, rawPointer := 0x200,
       characteristics := 0x40000000 }]
    (List.replicate 248 0 ++ [1, 2, 3, 4, 5, 6, 7, 8])

/-- The headers end where they did, and yet both sections are moved: the one without raw data to the
end of the headers, and the other one as far behind its raw data. -/
theorem misplaced_blankFile :
    let image := (loadFile blankFile).1
    let made := image.makeValid
    image.isMapped = true ∧ image.optional.sizeOfHeaders = 0x200 ∧
      made.optional.sizeOfHeaders = 0x200 ∧
      image.sections.map (fun s => (s.rawPointer, s.rawSize)) = [(0, 0), (0x200, 8)] ∧
      made.sections.map (fun s => (s.rawPointer, s.rawSize)) = [(0x200, 0), (0x400, 8)] := by
  decide +kernel

end Image

end PeImage
