/-
The pages of headers and sections in the layout of a section-granular image.

* `Region.IsFront`: a region that lays the front of the file over the front of the memory, as the
  headers do, and what its pages show;
* `SectionHeader.covers_iff`, `SectionHeader.lt_dataPageCount_iff`, `SectionHeader.toNat_dataEnd`:
  the region of a section in unbounded numbers;
* `GranularLayout.fits_iff`: a section finds a place exactly if it has no access or its extent fits
  into a word, and `GranularLayout.next_ne_zero`: the address behind it never wraps;
* `GranularLayout.pairwise_covers`: sections that find a place do not overlap, and
  `GranularLayout.le_of_covers`: nor do they overlap the headers;
* `Image.headerBytes`: the bytes of the headers in memory, and `Image.isFront_ofHeaders`: their
  region.
-/
import PeImage.Proofs.GranularLayout
import PeImage.Proofs.Region

namespace PeImage

lemma toNat_min (a b : UInt32) : (min a b).toNat = min a.toNat b.toNat := by
  change (if a ≤ b then a else b).toNat = _
  split_ifs with h
  · exact (min_eq_left (UInt32.le_iff_toNat_le.mp h)).symm
  · exact (min_eq_right (Nat.le_of_not_le fun hle => h (UInt32.le_iff_toNat_le.mpr hle))).symm

lemma toNat_max (a b : UInt32) : (max a b).toNat = max a.toNat b.toNat := by
  change (if a ≤ b then b else a).toNat = _
  split_ifs with h
  · exact (max_eq_right (UInt32.le_iff_toNat_le.mp h)).symm
  · exact (max_eq_left (Nat.le_of_not_le fun hle => h (UInt32.le_iff_toNat_le.mpr hle))).symm

/-! ### The region at the front -/

namespace Region

variable {r : Region} {n : ℕ}

/-- A region that lays the first `n` bytes of the file over the first `n` bytes of the memory. -/
structure IsFront (r : Region) (n : ℕ) : Prop where
  address : r.address = 0
  rawPointer : r.rawPointer = 0
  virtualSize : r.virtualSize.toNat = n
  rawSize : r.rawSize.toNat = n
  isHeader : r.isHeader = true
  lt : roundUp n pageSize < UInt32.size

namespace IsFront

lemma toNat_size (h : r.IsFront n) : r.size.toNat = roundUp n pageSize := by
  have hsize : (if r.virtualSize ≠ 0 then r.virtualSize else r.rawSize).toNat = n := by
    split_ifs
    · exact h.virtualSize
    · exact h.rawSize
  rw [size, toNat_alignUp_of_lt isPowerOfTwo_pageSize32 (by rw [hsize]; exact h.lt), hsize]
  rfl

lemma toNat_dataSize (h : r.IsFront n) : r.dataSize.toNat = n := by
  rw [dataSize, toNat_min, h.toNat_size, h.rawSize]
  exact min_eq_left (le_roundUp pageSize_pos n)

lemma firstPage_eq (h : r.IsFront n) : r.firstPage = 0 := by
  rw [firstPage, h.address]
  rfl

lemma dataStart_eq (h : r.IsFront n) : r.dataStart = 0 := by
  rw [dataStart, h.rawPointer]
  rfl

lemma dataEnd_eq (h : r.IsFront n) (fileAlignment : UInt32) : r.dataEnd fileAlignment = n := by
  rw [dataEnd, if_pos h.isHeader, h.dataStart_eq, h.toNat_dataSize, Nat.zero_add]

lemma lt_pageCount_iff (h : r.IsFront n) {p : ℕ} : p < r.pageCount ↔ p * pageSize < n := by
  rw [pageCount, h.toNat_size, lt_roundUp_div_iff pageSize_pos]

/-- The file backs every page of the region. -/
lemma lt_dataPageCount_iff (h : r.IsFront n) {p : ℕ} :
    p < r.dataPageCount ↔ p * pageSize < n := by
  have hround : (alignUp r.dataSize pageSize32).toNat = roundUp n pageSize := by
    rw [toNat_alignUp_of_lt isPowerOfTwo_pageSize32 (by rw [h.toNat_dataSize]; exact h.lt),
      h.toNat_dataSize]
    rfl
  rw [dataPageCount, if_pos (.inr h.isHeader), hround, lt_roundUp_div_iff pageSize_pos]

lemma covers_iff (h : r.IsFront n) (hacc : r.protection ≠ .noAccess) {p : ℕ} :
    r.Covers p ↔ p * pageSize < n := by
  simp [Covers, h.firstPage_eq, h.lt_pageCount_iff, hacc]

/-- The pages of the region show the file where it is in the memory, as far as it goes. -/
lemma page_of_lt (h : r.IsFront n) (file : ByteArray) (fileAlignment : UInt32) {p : ℕ}
    (hp : p * pageSize < n) :
    (file.size ≤ p * pageSize → r.page file fileAlignment p = .zero) ∧
      (p * pageSize < file.size →
        (r.page file fileAlignment p).Shows file (p * pageSize) n) := by
  constructor
  · intro hge
    apply page_eq_zero
    rw [h.dataStart_eq]
    omega
  · intro hlt
    have hshow : (r.page file fileAlignment p).Shows file (r.dataStart + p * pageSize)
        (r.dataEnd fileAlignment) :=
      page_shows (h.lt_dataPageCount_iff.mpr hp) (by rw [h.dataStart_eq]; omega)
    rwa [h.dataStart_eq, Nat.zero_add, h.dataEnd_eq] at hshow

end IsFront

end Region

/-! ### The region of a section -/

namespace SectionHeader

variable {s : SectionHeader} {fileAlignment : UInt32}

/-- The size of a section in memory, in whole pages. -/
def memorySize (s : SectionHeader) : ℕ := roundUp s.effectiveSize.toNat pageSize

/-- The bytes of a section that come from the file. -/
def backedSize (s : SectionHeader) : ℕ := min s.rawSize.toNat s.memorySize

/-- The offset in the file at which the data of a section really starts, in whole sectors. -/
def sectorStart (s : SectionHeader) : ℕ := s.rawPointer.toNat / 512 * 512

lemma toNat_size (hs : s.Sound fileAlignment) : (Region.ofSection s).size.toNat = s.memorySize :=
  toNat_alignUp_of_lt isPowerOfTwo_pageSize32 hs.size_lt

lemma pageSize_dvd_memorySize (s : SectionHeader) : pageSize ∣ s.memorySize := dvd_roundUp _ _

lemma memorySize_pos (hs : s.Sound fileAlignment) : 0 < s.memorySize :=
  roundUp_pos pageSize_pos hs.size_pos

lemma effectiveSize_le (s : SectionHeader) : s.effectiveSize.toNat ≤ s.memorySize :=
  le_roundUp pageSize_pos _

lemma toNat_dataSize (hs : s.Sound fileAlignment) :
    (Region.ofSection s).dataSize.toNat = s.backedSize := by
  rw [Region.dataSize, toNat_min, toNat_size hs]
  rfl

lemma toNat_dataStart (s : SectionHeader) : (Region.ofSection s).dataStart = s.sectorStart :=
  toNat_alignDown (k := 9) rfl s.rawPointer

/-- A region covers the pages that begin in the memory of its section. -/
lemma covers_iff (hs : s.Sound fileAlignment) (hd : pageSize ∣ s.virtualAddress.toNat) {p : ℕ} :
    (Region.ofSection s).Covers p ↔ s.protection ≠ .noAccess ∧
      s.virtualAddress.toNat ≤ p * pageSize ∧
        p * pageSize < s.virtualAddress.toNat + s.memorySize := by
  have hm := s.pageSize_dvd_memorySize
  have hfirst : (Region.ofSection s).firstPage = s.virtualAddress.toNat / pageSize := rfl
  have hcount : (Region.ofSection s).pageCount = s.memorySize / pageSize := by
    rw [Region.pageCount, toNat_size hs]
  rw [Region.Covers, hfirst, hcount]
  apply and_congr_right
  intro _
  simp only [pageSize] at *
  omega

/-- The pages of a section that the file backs. -/
lemma lt_dataPageCount_iff (hs : s.Sound fileAlignment) {k : ℕ} :
    k < (Region.ofSection s).dataPageCount ↔
      s.rawPointer ≠ 0 ∧ k * pageSize < roundUp s.backedSize pageSize := by
  have hround : (alignUp (Region.ofSection s).dataSize pageSize32).toNat =
      roundUp s.backedSize pageSize := by
    rw [← toNat_dataSize hs]
    refine toNat_alignUp_of_lt isPowerOfTwo_pageSize32 (lt_of_le_of_lt ?_ hs.size_lt)
    refine roundUp_le pageSize_pos ?_ (dvd_roundUp _ _)
    rw [toNat_dataSize hs]
    exact min_le_right _ _
  have hd := dvd_roundUp s.backedSize pageSize
  have hor : ((Region.ofSection s).rawPointer ≠ 0 ∨ (Region.ofSection s).isHeader = true) ↔
      s.rawPointer ≠ 0 := by simp [Region.ofSection]
  simp only [Region.dataPageCount, hor, hround]
  by_cases hp : s.rawPointer = 0
  · simp [hp]
  · simp only [hp, ne_eq, not_false_eq_true, if_true, true_and]
    simp only [pageSize] at *
    omega

/-- The data of a section that has any ends, in the file, where the rules make sure that nothing
wraps. -/
lemma toNat_dataEnd (hs : s.Sound fileAlignment) (hfa : fileAlignment.toNat.isPowerOfTwo)
    (hp : s.rawPointer ≠ 0) (hr : s.rawSize ≠ 0) :
    (Region.ofSection s).dataEnd fileAlignment =
      roundUp (s.rawPointer.toNat + s.backedSize) fileAlignment.toNat := by
  have hle : s.backedSize ≤ s.rawSize.toNat := min_le_left _ _
  have hdata := hs.data_lt hr
  have hsum : (s.rawPointer + (Region.ofSection s).dataSize).toNat =
      s.rawPointer.toNat + s.backedSize := by
    rw [UInt32.toNat_add, toNat_dataSize hs]
    exact Nat.mod_eq_of_lt (by simp only [UInt32.size] at hdata; omega)
  have hlt : roundUp (s.rawPointer.toNat + s.backedSize) fileAlignment.toNat < UInt32.size :=
    calc roundUp (s.rawPointer.toNat + s.backedSize) fileAlignment.toNat
        ≤ roundUp (s.rawPointer.toNat + s.rawSize.toNat) fileAlignment.toNat :=
          roundUp_mono (Nat.pos_of_isPowerOfTwo hfa) (by omega)
      _ < UInt32.size := hs.dataEnd_lt hr hp
  rw [Region.dataEnd, if_neg (by simp [Region.ofSection])]
  show (alignUp (s.rawPointer + (Region.ofSection s).dataSize) fileAlignment).toNat = _
  rw [toNat_alignUp_of_lt hfa (by rwa [hsum]), hsum]

end SectionHeader

/-! ### Sections in a layout -/

namespace GranularLayout

open Region SectionHeader

variable {h : OptionalHeader} {sections : List SectionHeader} {s : SectionHeader}

lemma pageSize_dvd_virtualAddress (hl : GranularLayout h sections) (hs : s ∈ sections) :
    pageSize ∣ s.virtualAddress.toNat :=
  hl.pageSize_dvd.trans (hl.dvd_virtualAddress hs)

/-- Sections do not begin at address zero, where the headers are. -/
lemma virtualAddress_pos (hl : GranularLayout h sections) (hs : s ∈ sections) :
    0 < s.virtualAddress.toNat :=
  lt_of_lt_of_le (roundUp_pos hl.sectionAlignment_pos hl.sizeOfHeaders_pos) (hl.bounds hs).1

/-- The address behind a section is the one that the rules count. -/
lemma toNat_next (hl : GranularLayout h sections) (hs : s ∈ sections) :
    ((ofSection s).next h).toNat = s.virtualAddress.toNat + s.counted h.sectionAlignment := by
  have hsize : (alignUp (ofSection s).size h.sectionAlignment).toNat =
      s.counted h.sectionAlignment := by
    rw [toNat_alignUp_eq hl.isPowerOfTwo_sectionAlignment, toNat_size (hl.sound s hs),
      counted_eq hl.isPowerOfTwo_sectionAlignment hl.pageSize_le, extent, memorySize,
      roundUp_roundUp pageSize_pos hl.sectionAlignment_pos hl.pageSize_dvd]
  have hlt : s.virtualAddress.toNat + s.counted h.sectionAlignment < UInt32.size :=
    hl.lt_size_of_le (hl.bounds hs).2
  rw [Region.next, UInt32.toNat_add, hsize]
  exact Nat.mod_eq_of_lt hlt

lemma next_ne_zero (hl : GranularLayout h sections) (hs : s ∈ sections) :
    (ofSection s).next h ≠ 0 := by
  intro h0
  have hnext := hl.toNat_next hs
  have hpos := hl.virtualAddress_pos hs
  rw [h0, UInt32.toNat_zero] at hnext
  omega

/-- A section whose extent fits into a word lies within the memory that the rules count for it. -/
lemma memorySize_le_counted (hl : GranularLayout h sections)
    (hx : s.extent h.sectionAlignment < UInt32.size) :
    s.memorySize ≤ s.counted h.sectionAlignment := by
  rw [counted_of_lt hl.isPowerOfTwo_sectionAlignment hl.pageSize_le hx, extent, memorySize]
  exact roundUp_le pageSize_pos (le_roundUp hl.sectionAlignment_pos _)
    (hl.pageSize_dvd.trans (dvd_roundUp _ _))

/-- **Which sections find a place**: those without access, which need none, and those whose extent
fits into a word. The others are larger than the image. -/
lemma fits_iff (hl : GranularLayout h sections) (hs : s ∈ sections) :
    (ofSection s).Fits (roundUp h.sizeOfImage.toNat pageSize / pageSize) ↔
      s.protection = .noAccess ∨ s.extent h.sectionAlignment < UInt32.size := by
  have hcount : (ofSection s).pageCount = s.memorySize / pageSize := by
    rw [pageCount, toNat_size (hl.sound s hs)]
  have hfirst : (ofSection s).firstPage = s.virtualAddress.toNat / pageSize := rfl
  have hva := hl.pageSize_dvd_virtualAddress hs
  have hsize := s.pageSize_dvd_memorySize
  have hpos := memorySize_pos (hl.sound s hs)
  have himage := hl.roundUp_sizeOfImage_le
  have hdvd := dvd_roundUp h.sizeOfImage.toNat pageSize
  rw [Fits, hcount, hfirst]
  apply or_congr_right
  constructor
  · intro hfit
    by_contra hx
    have hlarge := largestImage_lt hl.isPowerOfTwo_sectionAlignment hx
    have hle := s.effectiveSize_le
    simp only [pageSize] at *
    omega
  · intro hx
    right
    have hmem := hl.memorySize_le_counted hx
    have hend := (hl.bounds hs).2
    simp only [pageSize] at *
    omega

/-- Sections that find a place do not overlap. -/
lemma pairwise_covers (hl : GranularLayout h sections)
    (hfit : ∀ s ∈ sections, s.protection ≠ .noAccess → s.extent h.sectionAlignment < UInt32.size) :
    sections.Pairwise fun s t => ∀ p, (ofSection s).Covers p → ¬ (ofSection t).Covers p := by
  refine hl.tiles.pairwise.imp_of_mem ?_
  intro s t hs ht hle p hcs hct
  obtain ⟨hacc, -, hhigh⟩ :=
    (covers_iff (hl.sound s hs) (hl.pageSize_dvd_virtualAddress hs)).mp hcs
  obtain ⟨-, hlow, -⟩ := (covers_iff (hl.sound t ht) (hl.pageSize_dvd_virtualAddress ht)).mp hct
  have hmem := hl.memorySize_le_counted (hfit s hs hacc)
  omega

/-- The headers lie in front of what a section covers. -/
lemma le_of_covers (hl : GranularLayout h sections) (hs : s ∈ sections) {p : ℕ}
    (hc : (ofSection s).Covers p) :
    roundUp h.sizeOfHeaders.toNat h.sectionAlignment.toNat ≤ p * pageSize := by
  obtain ⟨-, hlow, -⟩ := (covers_iff (hl.sound s hs) (hl.pageSize_dvd_virtualAddress hs)).mp hc
  exact (hl.bounds hs).1.trans hlow

end GranularLayout

/-! ### The headers -/

namespace Image

open Region

variable {image : Image}

/-- The bytes of the headers in memory: the size of headers, or what it comes to in sections where
the section table leaves the first page and the rules mind. -/
def headerBytes (image : Image) : ℕ :=
  if image.config.extendsHeaderPage && image.tableLeavesFirstPage then
    roundUp image.optional.sizeOfHeaders.toNat image.optional.sectionAlignment.toNat
  else image.optional.sizeOfHeaders.toNat

variable (hl : GranularLayout image.optional image.sections)

include hl

lemma sizeOfHeaders_le_headerBytes : image.optional.sizeOfHeaders.toNat ≤ image.headerBytes := by
  unfold headerBytes
  split_ifs
  · exact le_roundUp hl.sectionAlignment_pos _
  · exact le_rfl

lemma headerBytes_le : image.headerBytes ≤
    roundUp image.optional.sizeOfHeaders.toNat image.optional.sectionAlignment.toNat := by
  unfold headerBytes
  split_ifs
  · exact le_rfl
  · exact le_roundUp hl.sectionAlignment_pos _

lemma toNat_mappedHeaderSize : image.mappedHeaderSize.toNat = image.headerBytes := by
  unfold mappedHeaderSize headerBytes
  split_ifs
  · exact toNat_alignUp_of_lt hl.isPowerOfTwo_sectionAlignment
      (hl.lt_size_of_le hl.roundUp_sizeOfHeaders_le)
  · rfl

/-- The headers take whole pages in front of the first section. -/
lemma roundUp_headerBytes_le : roundUp image.headerBytes pageSize ≤
    roundUp image.optional.sizeOfHeaders.toNat image.optional.sectionAlignment.toNat :=
  roundUp_le pageSize_pos (headerBytes_le hl) (hl.pageSize_dvd.trans (dvd_roundUp _ _))

/-- The region of the headers. -/
lemma isFront_ofHeaders : (ofHeaders image.mappedHeaderSize).IsFront image.headerBytes where
  address := rfl
  rawPointer := rfl
  virtualSize := toNat_mappedHeaderSize hl
  rawSize := toNat_mappedHeaderSize hl
  isHeader := rfl
  lt := hl.lt_size_of_le ((roundUp_headerBytes_le hl).trans hl.roundUp_sizeOfHeaders_le)

end Image

end PeImage
