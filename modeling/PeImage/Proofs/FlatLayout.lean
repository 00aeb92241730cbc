/-
The memory of a flat image, which is the file laid over it from its start.

The size of a flat image is rounded by rules of its own, and is never smaller than a page. The rules
for the headers keep it so far below `2 ^ 32` that none of the roundings wraps.

* `FlatLayout`: what the rules for the headers say of a flat image, and
  `Image.flatLayout_of_capture`: a captured flat image without grave problems has such a layout;
* `Image.flatBytes`: the size in unbounded numbers, and `FlatLayout.toNat_flatSize`: nothing wraps;
* `FlatLayout.isFront`: the region of the image;
* `FlatLayout.exists_flatPages`: it always finds its place.
-/
import PeImage.Proofs.SectionPages

namespace PeImage

/-- What the rules for the headers say of a flat image. -/
structure FlatLayout (h : OptionalHeader) : Prop where
  isPowerOfTwo_sectionAlignment : h.sectionAlignment.toNat.isPowerOfTwo
  sectionAlignment_lt : h.sectionAlignment.toNat < pageSize
  sizeOfImage_le : h.sizeOfImage ≤ largestImage

namespace Image

variable {image : Image}

lemma isFlat_iff : image.isFlat = true ↔ image.optional.sectionAlignment.toNat < pageSize := by
  rw [isFlat, decide_eq_true_iff]
  exact UInt32.lt_iff_toNat_lt

/-- Headers of a flat image that obey their rules. -/
lemma flatLayout_of_obeyed (hf : image.isFlat = true) (h : Obeyed image.headerRules) :
    FlatLayout image.optional := by
  simp only [Obeyed, headerRules, List.forall_mem_cons, List.not_mem_nil, false_implies,
    implies_true, and_true] at h
  obtain ⟨-, -, -, -, hzero, hpow, -, -, hlarge, -⟩ := h
  exact {
    isPowerOfTwo_sectionAlignment := isPowerOfTwo_of_test hzero hpow
    sectionAlignment_lt := isFlat_iff.mp hf
    sizeOfImage_le := UInt32.not_lt.mp (decide_eq_false_iff_not.mp hlarge) }

/-- A captured flat image without grave problems is laid out as the rules say. -/
theorem flatLayout_of_capture {config : Config} {file F : ByteArray}
    (h : capture config file = (image, .ok F)) (hg : ¬ image.latch.Grave)
    (hf : image.isFlat = true) : FlatLayout image.optional :=
  flatLayout_of_obeyed hf (headers_of_capture h hg)

/-! ### The size -/

/-- The bytes of a flat image in memory: the size of image, rounded as the rules of the load ask
for, and at least a page. -/
def flatBytes (image : Image) : ℕ :=
  let size := roundUp image.optional.sizeOfImage.toNat image.config.flatGranularity.toNat
  max (if image.config.wideHost then roundUp size pageSize else size) pageSize

end Image

lemma Config.isPowerOfTwo_flatGranularity (c : Config) : c.flatGranularity.toNat.isPowerOfTwo := by
  unfold Config.flatGranularity
  split
  · exact ⟨12, rfl⟩
  · exact ⟨9, rfl⟩
  · exact ⟨0, rfl⟩
  · exact ⟨0, rfl⟩

lemma Config.flatGranularity_dvd (c : Config) : c.flatGranularity.toNat ∣ pageSize := by
  refine dvd_of_isPowerOfTwo c.isPowerOfTwo_flatGranularity isPowerOfTwo_pageSize ?_
  unfold Config.flatGranularity
  split <;> decide

lemma pageSize_dvd_largestImage : pageSize ∣ largestImage.toNat := by decide

namespace FlatLayout

open Image Region

variable {image : Image}

/-- The size of image leaves room for every rounding. -/
lemma roundUp_sizeOfImage_le (hl : FlatLayout image.optional) {a : ℕ} (ha : 0 < a)
    (hd : a ∣ pageSize) : roundUp image.optional.sizeOfImage.toNat a ≤ largestImage.toNat :=
  roundUp_le ha (UInt32.le_iff_toNat_le.mp hl.sizeOfImage_le) (hd.trans pageSize_dvd_largestImage)

/-- The size in words is the size in numbers. -/
lemma toNat_flatSize (hl : FlatLayout image.optional) :
    image.flatSize.toNat = image.flatBytes := by
  have hlarge := largestImage.toNat_lt
  have hpow := image.config.isPowerOfTwo_flatGranularity
  have hinner := hl.roundUp_sizeOfImage_le (Nat.pos_of_isPowerOfTwo hpow)
    image.config.flatGranularity_dvd
  have hinner' := toNat_alignUp_of_lt hpow (v := image.optional.sizeOfImage)
    (lt_of_le_of_lt hinner hlarge)
  have houter : roundUp (roundUp image.optional.sizeOfImage.toNat
      image.config.flatGranularity.toNat) pageSize ≤ largestImage.toNat :=
    roundUp_le pageSize_pos hinner pageSize_dvd_largestImage
  simp only [flatSize, flatBytes, toNat_max]
  split_ifs
  · rw [toNat_alignUp_of_lt isPowerOfTwo_pageSize32, hinner']
    · rfl
    · rw [hinner']
      exact lt_of_le_of_lt houter hlarge
  · rw [hinner']
    rfl

/-- So is the size in whole pages, which fits into a word. -/
lemma roundUp_flatBytes_le (hl : FlatLayout image.optional) :
    roundUp image.flatBytes pageSize ≤ largestImage.toNat := by
  have hpos := Nat.pos_of_isPowerOfTwo image.config.isPowerOfTwo_flatGranularity
  have hinner := hl.roundUp_sizeOfImage_le hpos image.config.flatGranularity_dvd
  refine roundUp_le pageSize_pos ?_ pageSize_dvd_largestImage
  rw [flatBytes]
  refine max_le ?_ (by decide)
  split_ifs
  · exact roundUp_le pageSize_pos hinner pageSize_dvd_largestImage
  · exact hinner

/-! ### The region -/

/-- The region of a flat image. -/
def region (image : Image) : Region :=
  { ofHeaders image.flatSize with protection := .executeWriteCopy }

lemma flatPages_eq (image : Image) (file : ByteArray) : image.flatPages file =
    ((region image).place file image.optional
      (Array.replicate (pagesFor image.flatSize).toNat .inaccessible)).map (·.1) := rfl

/-- It lays the file over the memory. -/
lemma isFront (hl : FlatLayout image.optional) : (region image).IsFront image.flatBytes where
  address := rfl
  rawPointer := rfl
  virtualSize := hl.toNat_flatSize
  rawSize := hl.toNat_flatSize
  isHeader := rfl
  lt := lt_of_le_of_lt hl.roundUp_flatBytes_le largestImage.toNat_lt

/-- The table has exactly the pages of the region. -/
lemma fits (hl : FlatLayout image.optional) :
    (region image).Fits (pagesFor image.flatSize).toNat := by
  right
  right
  rw [hl.isFront.firstPage_eq, Nat.zero_add, Region.pageCount, hl.isFront.toNat_size,
    toNat_pagesFor, hl.toNat_flatSize, roundUp, Nat.mul_div_cancel _ pageSize_pos]

/-- The address behind the region is the size in whole pages, of which every alignment below a page
is a divisor. -/
lemma toNat_next (hl : FlatLayout image.optional) :
    ((region image).next image.optional).toNat = roundUp image.flatBytes pageSize := by
  have hdvd : image.optional.sectionAlignment.toNat ∣ roundUp image.flatBytes pageSize :=
    (dvd_of_isPowerOfTwo hl.isPowerOfTwo_sectionAlignment isPowerOfTwo_pageSize
      hl.sectionAlignment_lt.le).trans (dvd_roundUp _ _)
  have hround : roundUp (region image).size.toNat image.optional.sectionAlignment.toNat =
      roundUp image.flatBytes pageSize := by
    rw [hl.isFront.toNat_size,
      roundUp_of_dvd (Nat.pos_of_isPowerOfTwo hl.isPowerOfTwo_sectionAlignment) hdvd]
  have hlt := hl.isFront.lt
  rw [next, UInt32.toNat_add, hl.isFront.address, UInt32.toNat_zero, Nat.zero_add,
    toNat_alignUp_of_lt hl.isPowerOfTwo_sectionAlignment (by rwa [hround]), hround]
  exact Nat.mod_eq_of_lt hlt

/-- **A flat image always finds its place.** -/
theorem exists_flatPages (hl : FlatLayout image.optional) (file : ByteArray) :
    ∃ pages, image.flatPages file = some pages := by
  have hne : (region image).next image.optional ≠ 0 := by
    intro h0
    have hnext := hl.toNat_next
    have hpos : 0 < roundUp image.flatBytes pageSize :=
      roundUp_pos pageSize_pos (lt_of_lt_of_le pageSize_pos (le_max_right _ _))
    rw [h0, UInt32.toNat_zero] at hnext
    omega
  cases hplace : (region image).place file image.optional
      (Array.replicate (pagesFor image.flatSize).toNat .inaccessible) with
  | none =>
      refine absurd ⟨?_, hne⟩ (place_eq_none_iff.mp hplace)
      rw [Array.size_replicate]
      exact hl.fits
  | some result => exact ⟨result.1, by rw [flatPages_eq, hplace, Option.map_some]⟩

end FlatLayout

end PeImage
