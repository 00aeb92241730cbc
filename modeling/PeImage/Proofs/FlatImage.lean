/-
Which flat images are mapped, and what their memory is.

The section table of a flat image has no say in its memory, which is the file laid over the address
space from its start. It does not keep the image from being mapped either: sections that lie
elsewhere in memory than in the file are recorded, and the image is mapped all the same.

* `Image.roundUp_flatBytes`: the size in memory fills the pages of the size of image, however the
  rules of the load round it;
* `Image.isMappable_iff_of_isFlat`: the three verdicts of a capture under which a flat image is
  mapped;
* `Image.MapsFlat`: the memory of a flat image, page by page and byte by byte, and
  `Image.mapsFlat_of_load`: it is the memory of every flat image that is mapped, and exactly the
  three verdicts lead to one.
-/
import PeImage.Proofs.FlatMapping
import PeImage.Proofs.Oversize

namespace PeImage

namespace Image

variable {image captured loaded : Image} {file F : ByteArray}

/-! ### The size -/

/-- The roundings of the size of a flat image stay within its last page. -/
lemma roundUp_flatBytes (hpos : 0 < image.optional.sizeOfImage.toNat) :
    roundUp image.flatBytes pageSize = roundUp image.optional.sizeOfImage.toNat pageSize := by
  have hg := Nat.pos_of_isPowerOfTwo image.config.isPowerOfTwo_flatGranularity
  have hfine := le_roundUp hg image.optional.sizeOfImage.toNat
  have hpage : roundUp (roundUp image.optional.sizeOfImage.toNat
      image.config.flatGranularity.toNat) pageSize =
        roundUp image.optional.sizeOfImage.toNat pageSize :=
    roundUp_roundUp hg pageSize_pos image.config.flatGranularity_dvd
  apply le_antisymm
  · refine roundUp_le pageSize_pos ?_ (dvd_roundUp _ _)
    refine max_le ?_ (Nat.le_of_dvd (roundUp_pos pageSize_pos hpos) (dvd_roundUp _ _))
    split_ifs
    · exact hpage.le
    · exact (le_roundUp pageSize_pos _).trans hpage.le
  · refine roundUp_mono pageSize_pos (le_trans ?_ (le_max_left _ _))
    split_ifs
    · exact hfine.trans (le_roundUp pageSize_pos _)
    · exact hfine

/-- The size of image in whole pages, in numbers. -/
lemma toNat_alignedSize (h : image.optional.sizeOfImage ≤ largestImage) :
    image.alignedSize.toNat = roundUp image.optional.sizeOfImage.toNat pageSize := by
  refine toNat_alignUp_of_lt isPowerOfTwo_pageSize32 ?_
  have hle : roundUp image.optional.sizeOfImage.toNat pageSize ≤ largestImage.toNat :=
    roundUp_le pageSize_pos (UInt32.le_iff_toNat_le.mp h) pageSize_dvd_largestImage
  exact lt_of_le_of_lt hle largestImage.toNat_lt

/-! ### The verdict -/

/-- The verdicts under which a flat image is mapped: nothing is recorded, or a harmless cut, or that
a section lies elsewhere in memory than in the file. -/
lemma isMappable_iff_of_isFlat (hf : image.isFlat = true) : image.isMappable = true ↔
    image.problem? = none ∨ image.problem? = some .fileIsCutLoadable ∨
      image.problem? = some .flatLayoutMismatch := by
  rw [isMappable, hf, Bool.true_and, Bool.or_eq_true, beq_iff_eq, isLoadable, Latch.isLoadable_iff,
    or_assoc]
  rfl

/-- A flat image is mapped exactly if it is to be. -/
lemma Loaded.pageCount_ne_zero_iff_of_isFlat (h : Loaded captured F loaded)
    (hf : captured.isFlat = true) : loaded.pageCount ≠ 0 ↔ captured.isMappable = true :=
  ⟨h.isMappable_of_pageCount, fun hm => (h.pageCount_ne_zero_iff hm).mpr (.inl hf)⟩

/-! ### The memory -/

/-- The memory of a flat image: as many pages as hold its size, all of them with access, and in them
the file from its start on. -/
structure MapsFlat (image : Image) (file : ByteArray) : Prop where
  /-- The pages hold the size in memory, the last one perhaps in part. -/
  pageCount_eq : image.pageCount = (image.flatBytes + (pageSize - 1)) / pageSize
  /-- They are also the pages of the size of image. -/
  pageCount_eq_alignedSize : image.pageCount = image.alignedSize.toNat / pageSize
  /-- Every page has access. -/
  accessible : ∀ p, image.page? p ≠ some .inaccessible
  /-- The pages of zeros are those that begin behind the end of the file. -/
  zero_iff : ∀ p < image.pageCount, image.page? p = some .zero ↔ file.size ≤ pageSize * p
  /-- The bytes are those of the file as far as both go, and zero behind. -/
  flat_eq : ∀ r, image.memory.flat r =
    if r < min file.size image.flatBytes then byteAt file r else 0

/-- A memory that is the file, under a size of image that can be rounded. -/
lemma ShowsFile.mapsFlat (h : image.ShowsFile F) (hpos : 0 < image.optional.sizeOfImage.toNat)
    (hle : image.optional.sizeOfImage ≤ largestImage) : image.MapsFlat F := by
  constructor
  case pageCount_eq => rw [h.pageCount_eq, roundUp, Nat.mul_div_cancel _ pageSize_pos]
  case pageCount_eq_alignedSize =>
    rw [h.pageCount_eq, toNat_alignedSize hle, roundUp_flatBytes hpos]
  case accessible =>
    intro p hp
    have haccess := h.isAccessible (Array.mem_of_getElem? hp)
    cases haccess
  case zero_iff =>
    intro p hp
    rw [Nat.mul_comm]
    constructor
    · intro hzero
      by_contra hlt
      obtain ⟨page, hpage, bytes, rfl, -⟩ := h.dataPage p hp (Nat.lt_of_not_le hlt)
      rw [hzero] at hpage
      cases hpage
    · exact h.zeroPage p hp
  case flat_eq => exact h.flat_eq

/-- **Flat images**: one that is loaded is mapped exactly under the three verdicts that allow it,
and then its memory is the file as the capture leaves it, whatever its section table says. -/
theorem mapsFlat_of_load (h : image.load file = (loaded, .ok ()))
    (hf : loaded.optional.sectionAlignment.toNat < pageSize) :
    (loaded.pageCount ≠ 0 → ∃ F, (capture image.config file).2 = .ok F ∧ loaded.MapsFlat F) ∧
      (loaded.pageCount ≠ 0 ↔
        (capture image.config file).1.problem? = none ∨
          (capture image.config file).1.problem? = some .fileIsCutLoadable ∨
            (capture image.config file).1.problem? = some .flatLayoutMismatch) := by
  have hflat : loaded.isFlat = true := isFlat_iff.mpr hf
  obtain ⟨captured, F, hc, hl⟩ := loaded_of_load h
  have hcflat : captured.isFlat = true := by
    rw [hl.frame] at hflat
    exact hflat
  have hiff := hl.pageCount_ne_zero_iff_of_isFlat hcflat
  constructor
  · intro hp
    obtain ⟨hpos, hle, -⟩ := sizes_of_capture hc (not_grave_of_isMappable (hiff.mp hp))
    obtain ⟨F', hF', hshow⟩ := showsFile_of_load h hp hflat
    refine ⟨F', hF', hshow.mapsFlat ?_ ?_⟩
    · rw [hl.frame]
      exact hpos
    · rw [hl.frame]
      exact hle
  · rw [hiff, hc]
    exact isMappable_iff_of_isFlat hcflat

/-- A flat image of almost two pages, with a section that has no data and lies elsewhere in memory
than in the file. -/
def mismatchFile : ByteArray :=
  smallFile 0x200 0x1700
    [{ virtualSize := 0x100, virtualAddress := 0x1000, rawPointer := 0x300 }] []

/-- The oldest rules record the section, clear its pointer and map the image. -/
theorem mapsFlat_mismatchFile :
    (capture (.ofVersion .xp) mismatchFile).1.problem? = some .flatLayoutMismatch ∧
      ∃ F, (capture (.ofVersion .xp) mismatchFile).2 = .ok F ∧
        ((empty (.ofVersion .xp)).load mismatchFile).1.MapsFlat F := by
  have hload : ((empty (.ofVersion .xp)).load mismatchFile).2 = .ok () ∧
      ((empty (.ofVersion .xp)).load mismatchFile).1.optional.sectionAlignment.toNat < pageSize ∧
      (capture (.ofVersion .xp) mismatchFile).1.problem? = some .flatLayoutMismatch := by
    decide +kernel
  have hconfig : (empty (.ofVersion .xp)).config = .ofVersion .xp := rfl
  obtain ⟨hmaps, hiff⟩ := mapsFlat_of_load (load_eq_of_ok hload.1) hload.2.1
  rw [hconfig] at hmaps hiff
  exact ⟨hload.2.2, hmaps (hiff.mpr (.inr (.inr hload.2.2)))⟩

end Image

end PeImage
