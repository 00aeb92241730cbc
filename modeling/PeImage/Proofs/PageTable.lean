/-
The pages of a section-granular image, one by one.

The table is built by overwriting: pages without access first, the headers over them, and then one
section after the other. Since the layout keeps the regions apart, nothing that is written is
disturbed later, and the table has a closed form that does not mention the order.

* `SectionHeader.inMemory`, `SectionHeader.Backs`: the addresses of a section, and whether the file
  stands behind an offset of it;
* `Image.placeSections_isSome_iff_extent`: which sections find their places;
* `Image.ShowsLayout`: the closed form, and `Image.showsLayout_of_load`: every load that leaves
  pages of a section-granular image leaves them in this form.
-/
import PeImage.Proofs.Outcome

namespace PeImage

namespace SectionHeader

/-- An address lies in the memory of a section, in whole pages. -/
def inMemory (s : SectionHeader) (a : ℕ) : Prop :=
  s.virtualAddress.toNat ≤ a ∧ a < s.virtualAddress.toNat + s.memorySize

/-- The file stands behind the page at offset `d` of a section: the section has data in the file,
the page lies within it, and the file has not ended yet. -/
def Backs (s : SectionHeader) (file : ByteArray) (d : ℕ) : Prop :=
  s.rawPointer ≠ 0 ∧ d < roundUp s.backedSize pageSize ∧ s.sectorStart + d < file.size

/-- The offset in the file behind which a section shows none of it. -/
def shownEnd (s : SectionHeader) (fileAlignment : UInt32) : ℕ :=
  roundUp (s.rawPointer.toNat + s.backedSize) fileAlignment.toNat

variable {s : SectionHeader} {file : ByteArray} {fileAlignment : UInt32}

/-- The pages of the region of a section. -/
lemma page_ofSection (hs : s.Sound fileAlignment) (hfa : fileAlignment.toNat.isPowerOfTwo) {k : ℕ} :
    (s.Backs file (k * pageSize) → ((Region.ofSection s).page file fileAlignment k).Shows file
        (s.sectorStart + k * pageSize) (s.shownEnd fileAlignment)) ∧
      (¬ s.Backs file (k * pageSize) → (Region.ofSection s).page file fileAlignment k = .zero) := by
  have hbacked : (k < (Region.ofSection s).dataPageCount ∧
      (Region.ofSection s).dataStart + k * pageSize < file.size) ↔ s.Backs file (k * pageSize) := by
    rw [lt_dataPageCount_iff hs, toNat_dataStart, Backs, and_assoc]
  constructor
  · intro hb
    obtain ⟨hk, ho⟩ := hbacked.mpr hb
    have hr : s.rawSize ≠ 0 := by
      -- without raw data there would be no page that the file backs
      intro h0
      have hd := hb.2.1
      simp only [backedSize, h0, UInt32.toNat_zero, Nat.zero_min, roundUp, pageSize] at hd
      omega
    have hshow : ((Region.ofSection s).page file fileAlignment k).Shows file
        ((Region.ofSection s).dataStart + k * pageSize)
        ((Region.ofSection s).dataEnd fileAlignment) := Region.page_shows hk ho
    rwa [toNat_dataStart, toNat_dataEnd hs hfa hb.1 hr] at hshow
  · intro hn
    exact Region.page_eq_zero (hbacked.not.mpr hn)

end SectionHeader

namespace Image

open Region

/-! ### The closed form -/

/-- The pages of a section-granular image are those that headers and sections ask for. -/
structure ShowsLayout (image : Image) (file : ByteArray) : Prop where
  /-- The size of image says how many pages there are. -/
  pageCount_eq : image.pageCount = roundUp image.optional.sizeOfImage.toNat pageSize / pageSize
  /-- The headers show the front of the file. -/
  header : ∀ p, p * pageSize < image.headerBytes → ∃ page, image.page? p = some page ∧
    (file.size ≤ p * pageSize → page = .zero) ∧
      (p * pageSize < file.size → page.Shows file (p * pageSize) image.headerBytes)
  /-- A section shows its data from the sector on in which the data begins, and zeros behind it. -/
  sectionPage : ∀ s ∈ image.sections, s.protection ≠ .noAccess → ∀ p, s.inMemory (p * pageSize) →
    ∃ page, image.page? p = some page ∧
      (s.Backs file (p * pageSize - s.virtualAddress.toNat) →
        page.Shows file (s.sectorStart + (p * pageSize - s.virtualAddress.toNat))
          (s.shownEnd image.optional.fileAlignment)) ∧
        (¬ s.Backs file (p * pageSize - s.virtualAddress.toNat) → page = .zero)
  /-- No other page is there. -/
  inaccessible : ∀ p < image.pageCount, image.headerBytes ≤ p * pageSize →
    (∀ s ∈ image.sections, s.protection ≠ .noAccess → ¬ s.inMemory (p * pageSize)) →
      image.page? p = some .inaccessible

/-! ### What the steps leave -/

variable {image : Image} {file : ByteArray}

/-- The table behind the headers: their pages, and behind them pages without access. -/
lemma getElem?_of_place_headers (hl : GranularLayout image.optional image.sections)
    {pages : Array Page} {headerEnd : UInt32}
    (h : (ofHeaders image.mappedHeaderSize).place file image.optional
      (Array.replicate image.tableSize .inaccessible) = some (pages, headerEnd)) :
    pages.size = image.tableSize ∧
      (∀ p, p * pageSize < image.headerBytes → pages[p]? = some
        ((ofHeaders image.mappedHeaderSize).page file image.optional.fileAlignment p)) ∧
      ∀ p < image.tableSize, image.headerBytes ≤ p * pageSize → pages[p]? = some .inaccessible := by
  have hfront := isFront_ofHeaders hl
  have hcovers (p : ℕ) : (ofHeaders image.mappedHeaderSize).Covers p ↔
      p * pageSize < image.headerBytes := hfront.covers_iff (by simp [ofHeaders])
  obtain ⟨hsize, hin, hout⟩ := getElem?_fill (place_eq_some_iff.mp h).1
  rw [Array.size_replicate] at hsize
  refine ⟨hsize, ?_, ?_⟩
  · intro p hp
    have hpage := hin p ((hcovers p).mpr hp)
    rwa [hfront.firstPage_eq, Nat.sub_zero] at hpage
  · intro p hp hge
    rw [hout p ((hcovers p).not.mpr (by omega)), Array.getElem?_replicate, if_pos hp]

/-- The sections of a layout find their places exactly if the extents of those with access fit into
a word. -/
lemma placeSections_isSome_iff_extent (hl : GranularLayout image.optional image.sections)
    {pages : Array Page} (hsize : pages.size = image.tableSize) :
    (placeSections file image.optional pages image.sections).isSome ↔
      ∀ s ∈ image.sections, s.protection ≠ .noAccess →
        s.extent image.optional.sectionAlignment < UInt32.size := by
  rw [placeSections_isSome_iff, hsize]
  apply forall₂_congr
  intro s hs
  rw [tableSize, hl.fits_iff hs, ne_eq, ← or_iff_not_imp_left]
  exact and_iff_left (hl.next_ne_zero hs)

namespace Loaded

variable {captured loaded : Image}

/-- A section-granular image with pages has them in the closed form. -/
lemma showsLayout (h : Loaded captured file loaded) (hf : captured.isFlat = false)
    (hp : loaded.pageCount ≠ 0) : loaded.ShowsLayout file := by
  obtain ⟨hl, pages, table, headerEnd, hh, ht, hcontents⟩ := h.placed_of_pageCount hf hp
  obtain ⟨hsize, hheader, hblank⟩ := getElem?_of_place_headers hl hh
  obtain ⟨htable, hkeep⟩ := getElem?_placeSections_of_not_covers ht
  have hshow := getElem?_placeSections_of_covers
    (hl.pairwise_covers
      ((placeSections_isSome_iff_extent hl hsize).mp (Option.isSome_of_mem ht))) ht
  have hcovers {s : SectionHeader} (hs : s ∈ captured.sections) (p : ℕ) :
      (ofSection s).Covers p ↔ s.protection ≠ .noAccess ∧ s.inMemory (p * pageSize) :=
    SectionHeader.covers_iff (hl.sound s hs) (hl.pageSize_dvd_virtualAddress hs)
  have hpage (p : ℕ) : loaded.page? p = table[p]? := by
    rw [page?, Image.pages, hcontents]
  have hcount : loaded.pageCount = captured.tableSize := by
    rw [Image.pageCount, Image.pages, hcontents]
    exact htable.trans hsize
  rw [h.frame]
  constructor
  case pageCount_eq => exact hcount
  case header =>
    intro p hp
    -- no section reaches down to the headers
    have hfree : ∀ s ∈ captured.sections, ¬ (ofSection s).Covers p := by
      intro s hs hc
      have hlt : p * pageSize < p * pageSize :=
        calc p * pageSize < captured.headerBytes := hp
          _ ≤ roundUp captured.optional.sizeOfHeaders.toNat
                captured.optional.sectionAlignment.toNat := headerBytes_le hl
          _ ≤ p * pageSize := hl.le_of_covers hs hc
      exact absurd hlt (lt_irrefl _)
    refine ⟨(ofHeaders captured.mappedHeaderSize).page file captured.optional.fileAlignment p,
      ?_, ?_⟩
    · exact (hpage p).trans ((hkeep p hfree).trans (hheader p hp))
    · exact (isFront_ofHeaders hl).page_of_lt file captured.optional.fileAlignment hp
  case sectionPage =>
    intro s hs hacc p hin
    have hd := hl.pageSize_dvd_virtualAddress hs
    have hoff : (p - (ofSection s).firstPage) * pageSize =
        p * pageSize - s.virtualAddress.toNat := by
      rw [Nat.sub_mul]
      exact congrArg _ (Nat.div_mul_cancel hd)
    refine ⟨_, (hpage p).trans (hshow s hs p ((hcovers hs p).mpr ⟨hacc, hin⟩)), ?_⟩
    rw [← hoff]
    exact SectionHeader.page_ofSection (hl.sound s hs) hl.isPowerOfTwo_fileAlignment
  case inaccessible =>
    intro p hp hge hout
    have hfree : ∀ s ∈ captured.sections, ¬ (ofSection s).Covers p := by
      intro s hs hc
      obtain ⟨hacc, hin⟩ := (hcovers hs p).mp hc
      exact hout s hs hacc hin
    refine (hpage p).trans ((hkeep p hfree).trans (hblank p ?_ hge))
    rw [← hcount]
    exact hp

end Loaded

/-- **The pages of a section-granular image**: whenever a load leaves pages, they are those that
headers and sections ask for, whatever was written over what. -/
theorem showsLayout_of_load {file : ByteArray} {loaded : Image}
    (h : image.load file = (loaded, .ok ())) (hp : loaded.pageCount ≠ 0)
    (hsa : pageSize ≤ loaded.optional.sectionAlignment.toNat) :
    ∃ F, (capture image.config file).2 = .ok F ∧ loaded.ShowsLayout F := by
  obtain ⟨captured, F, hc, hload⟩ := loaded_of_load h
  refine ⟨F, by rw [hc], hload.showsLayout ?_ hp⟩
  rw [hload.frame] at hsa
  exact isFlat_eq_false_iff.mpr hsa

/-- A file with one section, whose data stands right behind the section table. -/
def dataFile : ByteArray :=
  smallFile 0x1000 0x2000
    [{ virtualSize := 0x1000, virtualAddress := 0x1000, rawSize := 8, rawPointer := 224,
       characteristics := 0x40000000 }]
    [1, 2, 3, 4, 5, 6, 7, 8]

theorem showsLayout_dataFile : ∃ F, (capture (.ofVersion .generic) dataFile).2 = .ok F ∧
    (loadFile dataFile).1.ShowsLayout F := by
  have hload : (loadFile dataFile).2 = .ok () ∧ (loadFile dataFile).1.pageCount ≠ 0 ∧
      pageSize ≤ (loadFile dataFile).1.optional.sectionAlignment.toNat := by
    decide +kernel
  have hconfig : (empty (.ofVersion .generic)).config = .ofVersion .generic := rfl
  have hshow := showsLayout_of_load (load_empty_eq hload.1) hload.2.1 hload.2.2
  rwa [hconfig] at hshow

end Image

end PeImage
