/-
Recomputed headers of an image whose sections tile the memory behind them.

Recomputing leaves the sections where they are in memory, and makes the size of image their end. So
they fill what the headers leave of it, and the rules accept them under every version, if only their
raw data is within the file.

* `SectionHeader.rawPointer_sub_moveData`: raw data that moves keeps its distances;
* `Image.TilesBehindHeaders`: sections that tile the memory behind the headers with all directories;
* `Image.ValidLayout`: the layout that recomputing leaves;
* `Image.TilesBehindHeaders.toNat_sizeOfHeaders`, `Image.TilesBehindHeaders.toNat_sizeOfImage`: the
  recomputed sizes, which do not wrap;
* `Image.TilesBehindHeaders.filled_firstFrontier`: the sections fill what the headers leave;
* `Image.validLayout_makeValid`: so recomputing leaves a valid layout.
-/
import PeImage.Proofs.FilledFrontier
import PeImage.Proofs.Recomputed
import PeImage.Proofs.RemovedSection
import PeImage.Proofs.SectionCount

namespace PeImage

open SectionHeader

/-! ### Moved raw data -/

namespace SectionHeader

/-- Raw data that moves together keeps its distances, as words. As numbers it keeps those of which
it keeps the order. -/
lemma rawPointer_sub_moveData (shift : UInt32) (s t : SectionHeader) :
    (t.moveData shift).rawPointer - (s.moveData shift).rawPointer =
        t.rawPointer - s.rawPointer ∧
      (((t.moveData shift).rawPointer.toNat : ℤ) - (s.moveData shift).rawPointer.toNat =
          t.rawPointer.toNat - s.rawPointer.toNat ↔
        (s.rawPointer ≤ t.rawPointer ↔
          (s.moveData shift).rawPointer ≤ (t.moveData shift).rawPointer)) := by
  have hs := s.rawPointer.toNat_lt
  have ht := t.rawPointer.toNat_lt
  have hshift := shift.toNat_lt
  have hs' : (s.moveData shift).rawPointer.toNat =
      (s.rawPointer.toNat + shift.toNat) % 2 ^ 32 := UInt32.toNat_add _ _
  have ht' : (t.moveData shift).rawPointer.toNat =
      (t.rawPointer.toNat + shift.toNat) % 2 ^ 32 := UInt32.toNat_add _ _
  constructor
  · refine UInt32.toNat_inj.mp ?_
    rw [UInt32.toNat_sub, UInt32.toNat_sub, hs', ht']
    omega
  · rw [UInt32.le_iff_toNat_le, UInt32.le_iff_toNat_le, hs', ht']
    omega

end SectionHeader

namespace Tiles

variable {size : SectionHeader → ℕ} {next : ℕ} {sections : List SectionHeader}

/-- Where raw data is does not matter to a tiling. -/
lemma map_moveData {alignment : UInt32} (shift : UInt32)
    (h : Tiles (·.extent alignment) next sections) :
    Tiles (·.extent alignment) next (sections.map (·.moveData shift)) := by
  induction sections generalizing next with
  | nil => trivial
  | cons s rest ih => exact ⟨h.1, ih h.2⟩

lemma total_map_moveData (alignment shift : UInt32) (sections : List SectionHeader) :
    total (·.extent alignment) (sections.map (·.moveData shift)) =
      total (·.extent alignment) sections := by
  rw [total, List.map_map]
  rfl

end Tiles

namespace Image

variable {image : Image}

/-! ### Sections behind the headers -/

/-- Where the headers end when the optional header has all its directories. -/
def headersEnd (image : Image) : ℕ :=
  image.dos.ntOffset.toNat + optionalStart + image.layout.size +
    image.sections.length * SectionHeader.size

/-- Where the first section begins behind such headers. -/
def firstAddress (image : Image) : ℕ :=
  roundUp (roundUp image.headersEnd image.optional.fileAlignment.toNat)
    image.optional.sectionAlignment.toNat

/-- The sections tile the memory behind the headers, and the file header can count them. -/
@[mk_iff]
structure TilesBehindHeaders (image : Image) : Prop where
  isPowerOfTwo_sectionAlignment : image.optional.sectionAlignment.toNat.isPowerOfTwo
  pageSize_le : pageSize ≤ image.optional.sectionAlignment.toNat
  isPowerOfTwo_fileAlignment : image.optional.fileAlignment.toNat.isPowerOfTwo
  fileAlignment_le : image.optional.fileAlignment ≤ image.optional.sectionAlignment
  length_le : image.sections.length ≤ maxSectionCount
  virtualSize_ne_zero : ∀ s ∈ image.sections, s.virtualSize ≠ 0
  tiles : Tiles (·.extent image.optional.sectionAlignment) image.firstAddress image.sections

instance (image : Image) : Decidable image.TilesBehindHeaders :=
  decidable_of_iff _ (tilesBehindHeaders_iff image).symm

/-- The layout of recomputed headers: what is in memory stays, and ends at `stop`. -/
structure ValidLayout (image valid : Image) (stop : ℕ) : Prop where
  /-- The alignment in memory stays. -/
  sectionAlignment : valid.optional.sectionAlignment = image.optional.sectionAlignment
  /-- The alignment in the file is at least a sector. -/
  fileAlignment : valid.optional.fileAlignment.toNat =
    max image.optional.fileAlignment.toNat sectorSize32.toNat
  /-- Of the sections, only the raw data moves. -/
  sections : ∃ shift, valid.sections = image.sections.map (·.moveData shift)
  /-- The size of image is the end of the last section. -/
  sizeOfImage : valid.optional.sizeOfImage.toNat = stop
  /-- Headers and sections use up the pages of the image. -/
  lastFrontier : valid.lastFrontier = ⟨stop, 0⟩
  /-- The size of headers is a multiple of the file alignment. -/
  dvd_sizeOfHeaders : valid.optional.fileAlignment.toNat ∣ valid.optional.sizeOfHeaders.toNat
  /-- The headers hold the table of all sections. -/
  table_le : valid.tableOffset + valid.sections.length * SectionHeader.size ≤
    valid.optional.sizeOfHeaders.toNat
  /-- The raw data of the first section follows the headers. -/
  data_start : ∀ first, valid.sections.head? = some first →
    first.rawPointer = valid.optional.sizeOfHeaders
  /-- The distances between raw data stay, where `p` and `q` are sections before and after. As
  numbers they stay unless one pointer wraps and the other does not, which turns their order. -/
  distances : ∀ p ∈ image.sections.zip valid.sections, ∀ q ∈ image.sections.zip valid.sections,
    q.2.rawPointer - p.2.rawPointer = q.1.rawPointer - p.1.rawPointer ∧
      ((q.2.rawPointer.toNat : ℤ) - p.2.rawPointer.toNat =
          q.1.rawPointer.toNat - p.1.rawPointer.toNat ↔
        (p.1.rawPointer ≤ q.1.rawPointer ↔ p.2.rawPointer ≤ q.2.rawPointer))
  /-- Under every version, a problem with the sections is one with raw data out of the file. -/
  accepted : ∀ config fileSize d,
    ({ valid with config := config, latch := {} }.verifySections fileSize).problem? = some d →
      valid.OnlyData fileSize valid.sections d

/-! ### The recomputed layout -/

/-- Of two powers of two, the larger one is the valid alignment. -/
lemma toNat_validAlignment {alignment unit : UInt32} (ha : alignment.toNat.isPowerOfTwo)
    (hu : unit.toNat.isPowerOfTwo) :
    (validAlignment alignment unit).toNat = max alignment.toNat unit.toNat := by
  have hpos := Nat.pos_of_isPowerOfTwo ha
  have hupos := Nat.pos_of_isPowerOfTwo hu
  rcases le_total unit.toNat alignment.toNat with hle | hle
  · rw [validAlignment_eq_self hu (ne_zero_of_isPowerOfTwo ha) (dvd_of_isPowerOfTwo hu ha hle),
      max_eq_left hle]
  · have hround : roundUp alignment.toNat unit.toNat = unit.toNat :=
      le_antisymm (roundUp_le hupos hle dvd_rfl)
        (Nat.le_of_dvd (roundUp_pos hupos hpos) (dvd_roundUp _ _))
    have halign : alignUp alignment unit = unit := UInt32.toNat_inj.mp
      ((toNat_alignUp_of_lt hu (by rw [hround]; exact unit.toNat_lt)).trans hround)
    rw [validAlignment, halign, ite_self, max_eq_right hle]

namespace TilesBehindHeaders

variable (h : image.TilesBehindHeaders)
include h

lemma sectionAlignment_makeValid :
    image.makeValid.optional.sectionAlignment = image.optional.sectionAlignment :=
  validAlignment_eq_self isPowerOfTwo_pageSize32
    (ne_zero_of_isPowerOfTwo h.isPowerOfTwo_sectionAlignment)
    (dvd_of_isPowerOfTwo isPowerOfTwo_pageSize h.isPowerOfTwo_sectionAlignment h.pageSize_le)

lemma toNat_fileAlignment : image.makeValid.optional.fileAlignment.toNat =
    max image.optional.fileAlignment.toNat sectorSize32.toNat :=
  toNat_validAlignment h.isPowerOfTwo_fileAlignment isPowerOfTwo_sectorSize32

lemma isPowerOfTwo_makeValid : image.makeValid.optional.fileAlignment.toNat.isPowerOfTwo := by
  rw [h.toNat_fileAlignment]
  exact max_rec' _ h.isPowerOfTwo_fileAlignment isPowerOfTwo_sectorSize32

/-- The recomputed alignment of the file still divides that of the memory. -/
lemma fileAlignment_dvd : image.makeValid.optional.fileAlignment.toNat ∣
    image.optional.sectionAlignment.toNat := by
  refine dvd_of_isPowerOfTwo h.isPowerOfTwo_makeValid h.isPowerOfTwo_sectionAlignment ?_
  rw [h.toNat_fileAlignment]
  have hsector : sectorSize32.toNat ≤ pageSize := by decide
  exact max_le (UInt32.le_iff_toNat_le.mp h.fileAlignment_le) (hsector.trans h.pageSize_le)

/-- The recomputed file header counts all sections. -/
lemma toNat_sectionCount :
    image.makeValid.file.sectionCount.toNat = image.makeValid.sections.length := by
  have hlength := h.length_le
  rw [maxSectionCount] at hlength
  rw [toNat_sectionCount_makeValid, sections_makeValid, List.length_map]
  omega

/-- The declared table of the recomputed headers ends where it should. -/
lemma declaredEnd_makeValid : image.makeValid.declaredEnd = image.headersEnd := by
  rw [declaredEnd, tableOffset, image.consistent_makeValid.optionalSize, layout_makeValid,
    h.toNat_sectionCount, sections_makeValid, List.length_map]
  rfl

/-- No section of the recomputed table is without a size. -/
lemma effectiveSize_ne_zero : ∀ s ∈ image.makeValid.sections, s.effectiveSize ≠ 0 := by
  intro s hs
  rw [sections_makeValid] at hs
  obtain ⟨t, ht, rfl⟩ := List.mem_map.mp hs
  have hsize := h.virtualSize_ne_zero t ht
  have heff : (t.moveData image.dataShift).effectiveSize = t.virtualSize := if_pos hsize
  rwa [heff]

/-- Where the first section begins, in terms of the recomputed alignment. -/
lemma firstAddress_eq : image.firstAddress =
    roundUp (roundUp image.headersEnd image.makeValid.optional.fileAlignment.toNat)
      image.optional.sectionAlignment.toNat := by
  have hsa := Nat.pos_of_isPowerOfTwo h.isPowerOfTwo_sectionAlignment
  have hdvd := dvd_of_isPowerOfTwo h.isPowerOfTwo_fileAlignment h.isPowerOfTwo_sectionAlignment
    (UInt32.le_iff_toNat_le.mp h.fileAlignment_le)
  rw [firstAddress, roundUp_roundUp (Nat.pos_of_isPowerOfTwo h.isPowerOfTwo_fileAlignment) hsa hdvd,
    roundUp_roundUp (Nat.pos_of_isPowerOfTwo h.isPowerOfTwo_makeValid) hsa h.fileAlignment_dvd]

/-- The first section lies behind the first page, since the headers are not empty. -/
lemma pageSize_le_firstAddress : pageSize ≤ image.firstAddress := by
  have hsa := Nat.pos_of_isPowerOfTwo h.isPowerOfTwo_sectionAlignment
  have hfa := Nat.pos_of_isPowerOfTwo h.isPowerOfTwo_fileAlignment
  have hstart : 0 < optionalStart := by decide
  have hheaders : 0 < image.headersEnd := by
    rw [headersEnd]
    omega
  calc pageSize ≤ image.optional.sectionAlignment.toNat := h.pageSize_le
    _ ≤ image.firstAddress :=
      Nat.le_of_dvd (roundUp_pos hsa (roundUp_pos hfa hheaders)) (dvd_roundUp _ _)

variable (hend : image.firstAddress +
  Tiles.total (·.extent image.optional.sectionAlignment) image.sections < UInt32.size)
include hend

/-- The recomputed size of headers, without a wrap. -/
lemma toNat_sizeOfHeaders : image.makeValid.optional.sizeOfHeaders.toNat =
    roundUp image.headersEnd image.makeValid.optional.fileAlignment.toNat := by
  have hfirst : roundUp image.headersEnd image.makeValid.optional.fileAlignment.toNat ≤
      image.firstAddress := by
    rw [h.firstAddress_eq]
    exact le_roundUp (Nat.pos_of_isPowerOfTwo h.isPowerOfTwo_sectionAlignment) _
  have hround : roundUp image.headersEnd image.makeValid.optional.fileAlignment.toNat <
      UInt32.size := by omega
  have hword : (UInt32.ofNat image.headersEnd).toNat = image.headersEnd :=
    UInt32.toNat_ofNat_of_lt' (lt_size_of_roundUp h.isPowerOfTwo_makeValid hround)
  rw [image.consistent_makeValid.sizeOfHeaders, h.declaredEnd_makeValid,
    toNat_alignUp_of_lt h.isPowerOfTwo_makeValid (by rwa [hword]), hword]

/-- The recomputed headers end in memory where the sections begin. -/
lemma roundUp_sizeOfHeaders : roundUp image.makeValid.optional.sizeOfHeaders.toNat
    image.optional.sectionAlignment.toNat = image.firstAddress := by
  rw [h.toNat_sizeOfHeaders hend, h.firstAddress_eq]

/-- The memory of every section fits into a word. -/
lemma toNat_alignUp_virtualSize {s : SectionHeader} (hs : s ∈ image.sections) :
    (alignUp s.virtualSize image.optional.sectionAlignment).toNat =
      s.extent image.optional.sectionAlignment := by
  have hbounds := (h.tiles.bounds s hs).2
  have heff : s.effectiveSize = s.virtualSize := if_pos (h.virtualSize_ne_zero s hs)
  rw [extent, heff] at hbounds ⊢
  exact toNat_alignUp_of_lt h.isPowerOfTwo_sectionAlignment (by omega)

/-- Headers and sections in memory, as they are recomputed, are those of the layout. -/
lemma memorySum_makeValid : image.makeValid.memorySum = image.firstAddress +
    Tiles.total (·.extent image.optional.sectionAlignment) image.sections := by
  have hheaders := h.roundUp_sizeOfHeaders hend
  rw [memorySum, h.sectionAlignment_makeValid, sections_makeValid,
    toNat_alignUp_of_lt h.isPowerOfTwo_sectionAlignment (by omega), hheaders, Tiles.total,
    Tiles.total, List.map_map]
  congr 2
  refine List.map_congr_left fun s hs => ?_
  show (alignUp s.virtualSize image.optional.sectionAlignment).toNat = _
  exact h.toNat_alignUp_virtualSize hend hs

omit h hend in
/-- The sections end at a multiple of the alignment. -/
lemma dvd_end (image : Image) : image.optional.sectionAlignment.toNat ∣ image.firstAddress +
    Tiles.total (·.extent image.optional.sectionAlignment) image.sections := by
  refine Nat.dvd_add (dvd_roundUp _ _) (List.dvd_sum fun n hn => ?_)
  obtain ⟨s, -, rfl⟩ := List.mem_map.mp hn
  exact dvd_roundUp _ _

/-- The recomputed size of image is the end of the sections. -/
lemma toNat_sizeOfImage : image.makeValid.optional.sizeOfImage.toNat = image.firstAddress +
    Tiles.total (·.extent image.optional.sectionAlignment) image.sections := by
  have hword : (UInt32.ofNat (image.firstAddress + Tiles.total
      (·.extent image.optional.sectionAlignment) image.sections)).toNat = _ :=
    UInt32.toNat_ofNat_of_lt' hend
  rw [image.consistent_makeValid.sizeOfImage, h.memorySum_makeValid hend,
    h.sectionAlignment_makeValid,
    (alignUp_eq_self_iff h.isPowerOfTwo_sectionAlignment).mpr (by rw [hword]; exact dvd_end image),
    hword]

omit hend in
lemma isFlat_makeValid : image.makeValid.isFlat = false := by
  rw [isFlat_eq_false_iff, h.sectionAlignment_makeValid]
  exact h.pageSize_le

/-- The recomputed sizes of headers and image obey their rules. -/
lemma headerSizes_obeyed : Obeyed image.makeValid.headerSizeRules := by
  have hsa := h.isPowerOfTwo_sectionAlignment
  have hround := h.roundUp_sizeOfHeaders hend
  have hle := le_roundUp (Nat.pos_of_isPowerOfTwo hsa) image.makeValid.optional.sizeOfHeaders.toNat
  -- the next multiple behind a word that is a multiple is a word, or `2 ^ 32`
  have hroom : image.optional.sectionAlignment.toNat ≤ UInt32.size - image.firstAddress :=
    Nat.le_of_dvd (by omega) (Nat.dvd_sub (dvd_size_of_isPowerOfTwo hsa) (dvd_roundUp _ _))
  have hpred := toNat_sub_one_of_isPowerOfTwo hsa
  have hpages := toNat_headerPages_mul (h.sectionAlignment_makeValid.symm ▸ hsa)
    (isFlat_eq_false_iff.mp h.isFlat_makeValid)
    (by rw [h.sectionAlignment_makeValid, hround]; omega)
  rw [h.sectionAlignment_makeValid, hround] at hpages
  simp only [Obeyed, headerSizeRules, h.isFlat_makeValid, h.sectionAlignment_makeValid,
    Bool.not_false, Bool.true_and, List.forall_mem_cons, List.not_mem_nil, false_implies,
    implies_true, and_true, decide_eq_false_iff_not, UInt32.not_lt]
  constructor
  · have hsize : UInt32.size = 2 ^ 32 := rfl
    rw [UInt32.le_iff_toNat_le, UInt32.toNat_add, hpred]
    omega
  · rw [UInt32.le_iff_toNat_le]
    refine Nat.le_of_mul_le_mul_right ?_ pageSize_pos
    rw [hpages, toNat_pagesFor_mul, h.toNat_sizeOfImage hend]
    exact (Nat.le_add_right _ _).trans (le_roundUp pageSize_pos _)

/-- The sections fill what the recomputed headers leave of the image. -/
lemma filled_firstFrontier : image.makeValid.firstFrontier.next = image.firstAddress ∧
    image.makeValid.firstFrontier.Filled image.makeValid.optional.sectionAlignment
      image.makeValid.sections := by
  have hsa := h.isPowerOfTwo_sectionAlignment
  have hpage := dvd_of_isPowerOfTwo isPowerOfTwo_pageSize hsa h.pageSize_le
  obtain ⟨hnext, hfree⟩ := firstFrontier_eq h.isFlat_makeValid
    (h.sectionAlignment_makeValid.symm ▸ hsa) (isFlat_eq_false_iff.mp h.isFlat_makeValid)
    (h.headerSizes_obeyed hend)
  rw [h.sectionAlignment_makeValid, h.roundUp_sizeOfHeaders hend] at hnext
  rw [hnext, h.toNat_sizeOfImage hend,
    roundUp_of_dvd pageSize_pos (hpage.trans (dvd_end image))] at hfree
  rw [h.sectionAlignment_makeValid, sections_makeValid]
  refine ⟨hnext, ⟨?_, ?_, ?_, ?_⟩⟩
  · rw [hnext]
    exact h.tiles.map_moveData _
  · rw [Tiles.total_map_moveData]
    exact Nat.add_left_cancel hfree
  · rw [hnext]
    exact h.pageSize_le_firstAddress
  · rwa [hnext, Tiles.total_map_moveData]

end TilesBehindHeaders

/-- **The layout of recomputed headers.** Where the sections tile the memory behind the headers and
end within 32 bits, recomputing leaves them there and makes the size of image their end. Then no
page is left behind the last section, so that under every version a problem with the sections can
only be one with raw data that is not within the file. -/
theorem validLayout_makeValid {last : SectionHeader} (h : image.TilesBehindHeaders)
    (hlast : image.sections.getLast? = some last)
    (hend : last.virtualAddress.toNat + last.extent image.optional.sectionAlignment <
      UInt32.size) :
    image.ValidLayout image.makeValid
      (last.virtualAddress.toNat + last.extent image.optional.sectionAlignment) := by
  rw [h.tiles.last_end hlast] at hend ⊢
  have hsa : image.makeValid.optional.sectionAlignment.toNat.isPowerOfTwo :=
    h.sectionAlignment_makeValid.symm ▸ h.isPowerOfTwo_sectionAlignment
  obtain ⟨hnext, hfilled⟩ := h.filled_firstFrontier hend
  have hlastFrontier := hfilled.foldl_advance h.isFlat_makeValid hsa
  rw [hnext, h.sectionAlignment_makeValid, sections_makeValid, Tiles.total_map_moveData,
    ← sections_makeValid] at hlastFrontier
  exact {
    sectionAlignment := h.sectionAlignment_makeValid
    fileAlignment := h.toNat_fileAlignment
    sections := ⟨_, sections_makeValid image⟩
    sizeOfImage := h.toNat_sizeOfImage hend
    lastFrontier := hlastFrontier
    dvd_sizeOfHeaders := by
      rw [h.toNat_sizeOfHeaders hend]
      exact dvd_roundUp _ _
    table_le := by
      rw [h.toNat_sizeOfHeaders hend, ← h.declaredEnd_makeValid, ← h.toNat_sectionCount]
      exact le_roundUp (Nat.pos_of_isPowerOfTwo h.isPowerOfTwo_makeValid) _
    data_start := fun _ => image.rawPointer_makeValid
    distances := by
      rw [sections_makeValid, ← List.map_prod_left_eq_zip]
      intro p hp q hq
      obtain ⟨s, -, rfl⟩ := List.mem_map.mp hp
      obtain ⟨t, -, rfl⟩ := List.mem_map.mp hq
      exact rawPointer_sub_moveData image.dataShift s t
    accepted := fun config fileSize d hd => by
      -- the version decides nothing that these rules start from
      let valid : Image := { image.makeValid with config := config, latch := {} }
      have hf : valid.isFlat = false := h.isFlat_makeValid
      have hheaders : Obeyed valid.headerSizeRules := h.headerSizes_obeyed hend
      exact problem?_verifySections hf hsa h.isPowerOfTwo_makeValid rfl hheaders
        h.effectiveSize_ne_zero hfilled hd }

/-- Two sections of a page each end at the third page behind the one of the headers. -/
theorem validLayout_twoSectionsImage :
    (twoSectionsImage 0x1000).isMapped = true ∧
      (twoSectionsImage 0x1000).TilesBehindHeaders ∧
      (twoSectionsImage 0x1000).ValidLayout (twoSectionsImage 0x1000).makeValid 0x3000 := by
  have hload : (twoSectionsImage 0x1000).isMapped = true ∧
      (twoSectionsImage 0x1000).TilesBehindHeaders ∧
      (twoSectionsImage 0x1000).optional.sectionAlignment = 0x1000 ∧
      (twoSectionsImage 0x1000).sections.getLast?.map
        (fun s => s.virtualAddress.toNat + s.extent 0x1000) = some 0x3000 := by
    decide +kernel
  generalize twoSectionsImage 0x1000 = image at hload ⊢
  obtain ⟨hmapped, htiles, hsa, hend⟩ := hload
  obtain ⟨last, hlast, hstop⟩ := Option.map_eq_some_iff.mp hend
  have hbound : last.virtualAddress.toNat + last.extent image.optional.sectionAlignment <
      UInt32.size := by
    rw [hsa, hstop]
    decide
  have hvalid := validLayout_makeValid htiles hlast hbound
  rw [hsa, hstop] at hvalid
  exact ⟨hmapped, htiles, hvalid⟩

end Image

end PeImage
