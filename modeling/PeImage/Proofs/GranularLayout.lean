/-
The layout of a section-granular image that obeys the rules, in unbounded numbers.

The rules count pages in words while they keep the next address as a number. What carries them over
to numbers is one invariant of the frontier: the next address and the memory that is left add up to
the size of image.

* `SectionHeader.Sound`: what the rules for one section say on its own;
* `GranularLayout`: what all rules together say of headers and sections;
* `Image.sound_of_obeyed`: one section, `Image.SectionsObey.tiles`: all sections, by induction over
  the frontier;
* `Image.Obeys.granularLayout`: an image that obeys its rules has such a layout.
-/
import PeImage.Proofs.Tiling
import PeImage.Proofs.Verdict

namespace PeImage

/-! ### The layout -/

/-- What the rules say of a section on its own: it has a size, and neither its memory in pages nor
its data in the file leaves 32 bits. -/
structure SectionHeader.Sound (fileAlignment : UInt32) (s : SectionHeader) : Prop where
  size_pos : 0 < s.effectiveSize.toNat
  size_lt : roundUp s.effectiveSize.toNat pageSize < UInt32.size
  data_lt : s.rawSize ≠ 0 → s.rawPointer.toNat + s.rawSize.toNat < UInt32.size
  dataEnd_lt : s.rawSize ≠ 0 → s.rawPointer ≠ 0 →
    roundUp (s.rawPointer.toNat + s.rawSize.toNat) fileAlignment.toNat < UInt32.size

/-- The layout of a section-granular image: headers, and behind them sections that tile the memory
as far as the rules count it. -/
structure GranularLayout (h : OptionalHeader) (sections : List SectionHeader) : Prop where
  isPowerOfTwo_sectionAlignment : h.sectionAlignment.toNat.isPowerOfTwo
  isPowerOfTwo_fileAlignment : h.fileAlignment.toNat.isPowerOfTwo
  pageSize_le : pageSize ≤ h.sectionAlignment.toNat
  sizeOfHeaders_pos : 0 < h.sizeOfHeaders.toNat
  sizeOfHeaders_le : h.sizeOfHeaders ≤ h.sizeOfImage
  sizeOfImage_le : h.sizeOfImage ≤ largestImage
  tiles : Tiles (·.counted h.sectionAlignment)
    (roundUp h.sizeOfHeaders.toNat h.sectionAlignment.toNat) sections
  total_le : roundUp h.sizeOfHeaders.toNat h.sectionAlignment.toNat +
    Tiles.total (·.counted h.sectionAlignment) sections ≤ roundUp h.sizeOfImage.toNat pageSize
  sound : ∀ s ∈ sections, s.Sound h.fileAlignment

/-! ### Words without a wrap -/

/-- A sum of words that is not smaller than its first summand did not wrap. -/
lemma toNat_add_of_not_lt {a b : UInt32} (h : ¬ a + b < a) :
    a.toNat + b.toNat < UInt32.size ∧ (a + b).toNat = a.toNat + b.toNat := by
  have ha := a.toNat_lt
  have hb := b.toNat_lt
  have hadd := UInt32.toNat_add a b
  rw [UInt32.lt_iff_toNat_lt] at h
  have hs : UInt32.size = 2 ^ 32 := rfl
  omega

namespace Image

variable {image : Image} {fileSize : ℕ} {f : Frontier}

lemma isFlat_eq_false_iff :
    image.isFlat = false ↔ pageSize ≤ image.optional.sectionAlignment.toNat := by
  rw [isFlat, decide_eq_false_iff_not, UInt32.not_lt]
  exact UInt32.le_iff_toNat_le

/-- The rules for a section, one by one. -/
lemma sound_of_obeyed {s : SectionHeader} {isLast : Bool}
    (hfa : image.optional.fileAlignment.toNat.isPowerOfTwo)
    (h : Obeyed (image.granularRules fileSize f s isLast)) :
    s.virtualAddress.toNat = f.next ∧
      s.pagesTaken image.optional.sectionAlignment ≤ f.free ∧
      s.Sound image.optional.fileAlignment := by
  simp only [Obeyed, granularRules, List.forall_mem_cons, List.not_mem_nil, false_implies,
    implies_true, and_true, decide_eq_false_iff_not, bne_eq_false_iff_eq, beq_eq_false_iff_ne]
    at h
  obtain ⟨hdata, hnext, hpos, hpage, htaken, hend, -⟩ := h
  obtain ⟨hd1, hd2⟩ := toNat_add_of_not_lt hdata
  have hsize : s.effectiveSize.toNat + (pageSize - 1) < UInt32.size :=
    (toNat_add_of_not_lt fun hlt => hpage (UInt32.le_of_lt hlt)).1
  refine ⟨hnext.symm, UInt32.not_lt.mp htaken, ⟨?_, ?_, ?_, ?_⟩⟩
  · rw [Nat.pos_iff_ne_zero]
    intro h0
    exact hpos (UInt32.toNat_inj.mp h0)
  · have := roundUp_lt (Nat.pos_of_isPowerOfTwo isPowerOfTwo_pageSize) s.effectiveSize.toNat
    omega
  · intro hr
    simpa [SectionHeader.dataPointer, hr] using hd1
  · intro hr hp
    have hptr : s.dataPointer = s.rawPointer := by simp [SectionHeader.dataPointer, hr]
    -- a wrapped end would be zero, which is smaller than the pointer
    by_contra hge
    refine hend ?_
    have hz : alignUp s.dataEnd image.optional.fileAlignment = 0 := by
      refine alignUp_eq_zero hfa ?_
      rw [SectionHeader.dataEnd, hd2, hptr]
      exact Nat.le_of_not_lt hge
    rw [hz, hptr]
    rw [UInt32.lt_iff_toNat_lt, UInt32.toNat_zero, Nat.pos_iff_ne_zero]
    intro h0
    exact hp (UInt32.toNat_inj.mp h0)

/-- **The invariant of the frontier**: the next address and the memory that is left add up to the
same size behind every section. -/
lemma next_add_free_advance (hf : image.isFlat = false) {s : SectionHeader}
    (h : s.pagesTaken image.optional.sectionAlignment ≤ f.free) :
    (image.advance f s).next = f.next + s.counted image.optional.sectionAlignment ∧
      (image.advance f s).next + (image.advance f s).free.toNat * pageSize =
        f.next + f.free.toNat * pageSize := by
  have hle := UInt32.le_iff_toNat_le.mp h
  have hsub := UInt32.toNat_sub_of_le _ _ h
  simp only [advance, hf, SectionHeader.counted, Bool.false_eq_true, if_false, hsub]
  refine ⟨trivial, ?_⟩
  rw [Nat.sub_mul]
  have := Nat.mul_le_mul_right pageSize hle
  omega

/-- Sections that obey their rules tile the memory from the frontier on, and what is left behind
them is what the frontier had left, less what they take. -/
lemma SectionsObey.tiles (hf : image.isFlat = false)
    (hfa : image.optional.fileAlignment.toNat.isPowerOfTwo) {index : ℕ}
    {sections : List SectionHeader} (h : image.SectionsObey fileSize f index sections) :
    Tiles (·.counted image.optional.sectionAlignment) f.next sections ∧
      (∀ s ∈ sections, s.Sound image.optional.fileAlignment) ∧
      f.next + Tiles.total (·.counted image.optional.sectionAlignment) sections +
        (sections.foldl image.advance f).free.toNat * pageSize =
          f.next + f.free.toNat * pageSize := by
  induction sections generalizing f index with
  | nil => simp [Tiles, Tiles.total]
  | cons s rest ih =>
      obtain ⟨hs, hrest⟩ := h
      rw [sectionRules, hf] at hs
      obtain ⟨hnext, htaken, hsound⟩ := sound_of_obeyed hfa hs
      obtain ⟨hadv, hinv⟩ := next_add_free_advance hf htaken
      obtain ⟨htiles, hsounds, htotal⟩ := ih hrest
      rw [hadv] at htiles htotal hinv
      refine ⟨⟨hnext, htiles⟩, List.forall_mem_cons.mpr ⟨hsound, hsounds⟩, ?_⟩
      rw [Tiles.total_cons, List.foldl_cons]
      omega

/-! ### The headers -/

/-- The pages of the headers, in bytes, as long as these fit into a word. -/
lemma toNat_headerPages_mul (hsa : image.optional.sectionAlignment.toNat.isPowerOfTwo)
    (hp : pageSize ≤ image.optional.sectionAlignment.toNat)
    (hfit : roundUp image.optional.sizeOfHeaders.toNat image.optional.sectionAlignment.toNat <
      UInt32.size) :
    image.headerPages.toNat * pageSize =
      roundUp image.optional.sizeOfHeaders.toNat image.optional.sectionAlignment.toNat := by
  rw [headerPages, SectionHeader.toNat_alignUp_div_mul hsa hp, toNat_alignUp_of_lt hsa hfit]

/-- The pages of the headers, in bytes. Neither they nor what they leave of the image wraps. -/
lemma firstFrontier_eq (hf : image.isFlat = false)
    (hsa : image.optional.sectionAlignment.toNat.isPowerOfTwo)
    (hp : pageSize ≤ image.optional.sectionAlignment.toNat)
    (h : Obeyed image.headerSizeRules) :
    image.firstFrontier.next =
        roundUp image.optional.sizeOfHeaders.toNat image.optional.sectionAlignment.toNat ∧
      image.firstFrontier.next + image.firstFrontier.free.toNat * pageSize =
        roundUp image.optional.sizeOfImage.toNat pageSize := by
  simp only [Obeyed, headerSizeRules, hf, Bool.not_false, Bool.true_and, List.forall_mem_cons,
    List.not_mem_nil, false_implies, implies_true, and_true, decide_eq_false_iff_not] at h
  obtain ⟨hover, hpages⟩ := h
  have hsum : image.optional.sizeOfHeaders.toNat +
      (image.optional.sectionAlignment.toNat - 1) < UInt32.size :=
    toNat_sub_one_of_isPowerOfTwo hsa ▸ (toNat_add_of_not_lt hover).1
  have hround := roundUp_lt (Nat.pos_of_isPowerOfTwo hsa) image.optional.sizeOfHeaders.toNat
  have hheader := toNat_headerPages_mul hsa hp (by omega)
  have hle : image.headerPages ≤ pagesFor image.optional.sizeOfImage := UInt32.not_lt.mp hpages
  have hmul := Nat.mul_le_mul_right pageSize (UInt32.le_iff_toNat_le.mp hle)
  simp only [firstFrontier, hf, Bool.false_eq_true, if_false]
  refine ⟨hheader, ?_⟩
  rw [UInt32.toNat_sub_of_le _ _ hle, Nat.sub_mul, ← toNat_pagesFor_mul]
  omega

/-- An image that obeys all rules is laid out as the rules say. -/
theorem Obeys.granularLayout (h : image.Obeys fileSize) (hf : image.isFlat = false) :
    GranularLayout image.optional image.sections := by
  obtain ⟨hheaders, hsize, hsections, -⟩ := h
  simp only [Obeyed, headerRules, hf, Bool.not_false, Bool.true_and, List.forall_mem_cons,
    List.not_mem_nil, false_implies, implies_true, and_true] at hheaders
  obtain ⟨-, hzero, hfa0, hfa, hsa0, hsa, -, -, hlarge, -, -, hfit, -, -, -⟩ := hheaders
  have hp := isFlat_eq_false_iff.mp hf
  have hsa' := isPowerOfTwo_of_test hsa0 hsa
  have hfa' := isPowerOfTwo_of_test hfa0 hfa
  obtain ⟨hnext, hfree⟩ := firstFrontier_eq hf hsa' hp hsize
  obtain ⟨htiles, hsound, htotal⟩ := hsections.tiles hf hfa'
  rw [hnext] at htiles htotal hfree
  exact {
    isPowerOfTwo_sectionAlignment := hsa'
    isPowerOfTwo_fileAlignment := hfa'
    pageSize_le := hp
    sizeOfHeaders_pos := Nat.pos_of_ne_zero fun h0 =>
      beq_eq_false_iff_ne.mp hzero (UInt32.toNat_inj.mp h0)
    sizeOfHeaders_le := UInt32.not_lt.mp (decide_eq_false_iff_not.mp hfit)
    sizeOfImage_le := UInt32.not_lt.mp (decide_eq_false_iff_not.mp hlarge)
    tiles := htiles
    total_le := by omega
    sound := hsound }

end Image

/-! ### What follows from the layout -/

namespace GranularLayout

variable {h : OptionalHeader} {sections : List SectionHeader} {s : SectionHeader}

lemma sectionAlignment_pos (hl : GranularLayout h sections) : 0 < h.sectionAlignment.toNat :=
  Nat.pos_of_isPowerOfTwo hl.isPowerOfTwo_sectionAlignment

lemma pageSize_dvd (hl : GranularLayout h sections) : pageSize ∣ h.sectionAlignment.toNat :=
  dvd_of_isPowerOfTwo isPowerOfTwo_pageSize hl.isPowerOfTwo_sectionAlignment hl.pageSize_le

/-- The size of image in pages fits into a word. -/
lemma roundUp_sizeOfImage_le (hl : GranularLayout h sections) :
    roundUp h.sizeOfImage.toNat pageSize ≤ largestImage.toNat := by
  have hdvd : pageSize ∣ largestImage.toNat := by decide
  exact roundUp_le pageSize_pos (UInt32.le_iff_toNat_le.mp hl.sizeOfImage_le) hdvd

/-- Nothing within the image wraps. -/
lemma lt_size_of_le (hl : GranularLayout h sections) {n : ℕ}
    (hn : n ≤ roundUp h.sizeOfImage.toNat pageSize) : n < UInt32.size :=
  calc n ≤ roundUp h.sizeOfImage.toNat pageSize := hn
    _ ≤ largestImage.toNat := hl.roundUp_sizeOfImage_le
    _ < UInt32.size := largestImage.toNat_lt

lemma toNat_alignUp_sizeOfImage (hl : GranularLayout h sections) :
    (alignUp h.sizeOfImage pageSize32).toNat = roundUp h.sizeOfImage.toNat pageSize :=
  toNat_alignUp_of_lt isPowerOfTwo_pageSize32 (hl.lt_size_of_le le_rfl)

/-- The headers in memory lie in front of every section and within the image. -/
lemma roundUp_sizeOfHeaders_le (hl : GranularLayout h sections) :
    roundUp h.sizeOfHeaders.toNat h.sectionAlignment.toNat ≤ roundUp h.sizeOfImage.toNat pageSize :=
  le_trans (Nat.le_add_right _ _) hl.total_le

/-- Every section lies behind the headers and within the image, as far as the rules count it. -/
lemma bounds (hl : GranularLayout h sections) (hs : s ∈ sections) :
    roundUp h.sizeOfHeaders.toNat h.sectionAlignment.toNat ≤ s.virtualAddress.toNat ∧
      s.virtualAddress.toNat + s.counted h.sectionAlignment ≤
        roundUp h.sizeOfImage.toNat pageSize := by
  obtain ⟨hlow, hhigh⟩ := hl.tiles.bounds s hs
  exact ⟨hlow, hhigh.trans hl.total_le⟩

/-- Every section begins at a multiple of the alignment. -/
lemma dvd_virtualAddress (hl : GranularLayout h sections) (hs : s ∈ sections) :
    h.sectionAlignment.toNat ∣ s.virtualAddress.toNat := by
  refine hl.tiles.dvd ?_ (dvd_roundUp _ _) s hs
  intro t _
  rw [SectionHeader.counted, SectionHeader.pagesTaken,
    SectionHeader.toNat_alignUp_div_mul hl.isPowerOfTwo_sectionAlignment hl.pageSize_le]
  exact dvd_toNat_alignUp hl.isPowerOfTwo_sectionAlignment _

end GranularLayout

end PeImage
