/-
Sections whose memory does not fit into 32 bits.

The rules test the size of a section for overflow in pages, but count its memory in units of the
section alignment. A section whose size rounds up to `2 ^ 32` therefore counts as nothing and passes
every rule. What becomes of it depends on its access.

* `Image.isMapped_iff_of_isLoadable`: with access it finds no place, and the whole table is given
  up; the image is reported loadable all the same where a harmless cut was recorded before;
* `Image.tiles_iff_of_isMapped`: without access it stays unnoticed, and the sections behind it lie
  where it ends by the count of the rules, and not by its size.
-/
import PeImage.Proofs.PageTable

namespace PeImage

namespace Image

open Region

variable {image : Image} {file : ByteArray}

/-! ### Abandoned images -/

/-- A table in which all regions found their places has a page. -/
lemma size_ne_zero_of_placeSections (hl : GranularLayout image.optional image.sections)
    {pages table : Array Page} (hsize : pages.size = image.tableSize)
    (ht : placeSections file image.optional pages image.sections = some table) :
    table.size ≠ 0 := by
  rw [(getElem?_placeSections_of_not_covers ht).1, hsize]
  exact (tableSize_pos hl).ne'

/-- What the register holds when a problem is recorded and the image still counts as loadable. -/
lemma problem?_of_isLoadable_record {l : Latch} {d : Diagnostic} (hd : d ≠ .fileIsCutLoadable)
    (h : (l.record d).isLoadable = true) : l.first = some .fileIsCutLoadable := by
  cases l with
  | mk first =>
      cases first with
      | none =>
          rcases (Latch.isLoadable_iff _).mp h with hn | hc
          · cases hn
          · exact absurd (Option.some.inj hc) hd
      | some e =>
          rcases (Latch.isLoadable_iff _).mp h with hn | hc
          · cases hn
          · exact hc

namespace Loaded

variable {captured loaded : Image}

/-- Only what was to be mapped can be loadable in the end. -/
lemma isMappable_of_isLoadable (h : Loaded captured file loaded)
    (hl : loaded.isLoadable = true) : captured.isMappable = true := by
  cases h with
  | refused => exact Bool.or_eq_true_iff.mpr (.inl hl)
  | flat hm => exact hm
  | placed hm => exact hm
  | abandoned hm => exact hm

/-- **Which images have pages**, of those that are to be mapped: flat ones, and those whose sections
with access have extents that fit into a word. -/
lemma pageCount_ne_zero_iff (h : Loaded captured file loaded)
    (hm : captured.isMappable = true) :
    loaded.pageCount ≠ 0 ↔ captured.isFlat = true ∨
      ∀ s ∈ captured.sections, s.protection ≠ .noAccess →
        s.extent captured.optional.sectionAlignment < UInt32.size := by
  cases h with
  | refused hn => exact absurd hm (Bool.not_eq_true _ ▸ hn)
  | @flat pages _ hf _ he =>
      refine iff_of_true ?_ (.inl hf)
      show pages.size ≠ 0
      simpa [Array.isEmpty] using he
  | @placed pages table headerEnd _ _ hl hh ht =>
      have hsize := (getElem?_of_place_headers hl hh).1
      refine iff_of_true ?_ (.inr ?_)
      · exact size_ne_zero_of_placeSections hl hsize ht
      · exact (placeSections_isSome_iff_extent hl hsize).mp (Option.isSome_of_mem ht)
  | @abandoned pages headerEnd _ hf hl hh ht =>
      have hsize := (getElem?_of_place_headers hl hh).1
      refine iff_of_false (not_not_intro rfl) (not_or.mpr ⟨by simp [hf], fun hall => ?_⟩)
      have hsome : (placeSections file captured.optional pages captured.sections).isSome :=
        (placeSections_isSome_iff_extent hl hsize).mpr hall
      rw [ht] at hsome
      cases hsome

/-- A loadable image without pages was given up, and counts as loadable because it was cut. -/
lemma problem?_of_pageCount_eq_zero (h : Loaded captured file loaded)
    (hl : loaded.isLoadable = true) (hp : loaded.pageCount = 0) :
    loaded.problem? = some .fileIsCutLoadable := by
  cases h with
  | refused hm =>
      have hcaptured : captured.isMappable = true := Bool.or_eq_true_iff.mpr (.inl hl)
      exact absurd hcaptured (Bool.not_eq_true _ ▸ hm)
  | @flat pages _ _ _ he =>
      have hsize : pages.size = 0 := hp
      simp [Array.isEmpty, hsize] at he
  | placed _ _ hlayout hh ht =>
      exact absurd hp
        (size_ne_zero_of_placeSections hlayout (getElem?_of_place_headers hlayout hh).1 ht)
  | abandoned =>
      -- recording the failure had no effect, for the register was not empty
      have hcut := problem?_of_isLoadable_record (by decide) hl
      rw [problem?, Latch.record, hcut]
      rfl

end Loaded

/-- **Which loadable images are mapped**: a flat one always, and any other one exactly if the
extents of its sections with access fit into a word. One that is not mapped is cut. -/
theorem isMapped_iff_of_isLoadable {loaded : Image} (h : image.load file = (loaded, .ok ()))
    (hl : loaded.isLoadable = true) :
    (loaded.isMapped = true ↔ loaded.isFlat = true ∨
      ∀ s ∈ loaded.sections, s.protection ≠ .noAccess →
        s.extent loaded.optional.sectionAlignment < UInt32.size) ∧
      (loaded.isMapped = false → loaded.problem? = some .fileIsCutLoadable) := by
  obtain ⟨captured, F, -, hload⟩ := loaded_of_load h
  have hpages := hload.pageCount_ne_zero_iff (hload.isMappable_of_isLoadable hl)
  rw [isMapped, hl, Bool.true_and]
  refine ⟨?_, fun hp => hload.problem?_of_pageCount_eq_zero hl (by simpa using hp)⟩
  rw [bne_iff_ne, hpages, hload.frame]
  rfl

/-- Two sections, of which the first one lies behind the end of the file and the second one is as
large as the address space. -/
def abandonedFile : ByteArray :=
  smallFile 0x2000 0x4000
    [{ virtualSize := 0x1000, virtualAddress := 0x2000, rawSize := 0x200, rawPointer := 0x10000,
       characteristics := 0x40000000 },
     { virtualSize := 0xFFFFF000, virtualAddress := 0x4000, characteristics := 0x40000000 }]
    []

/-- The mapping of the file is given up, and yet the image counts as loadable. -/
theorem isLoadable_abandonedFile :
    (loadFile abandonedFile).2 = .ok () ∧ (loadFile abandonedFile).1.isLoadable = true ∧
      (loadFile abandonedFile).1.isMapped = false := by
  decide +kernel

theorem problem?_abandonedFile :
    (loadFile dataFile).1.isMapped = true ∧
      (loadFile abandonedFile).1.problem? = some .fileIsCutLoadable := by
  have hdata : (loadFile dataFile).2 = .ok () ∧ (loadFile dataFile).1.isLoadable = true ∧
      ∀ s ∈ (loadFile dataFile).1.sections, s.protection ≠ .noAccess →
        s.extent (loadFile dataFile).1.optional.sectionAlignment < UInt32.size := by
    decide +kernel
  have habandoned : (loadFile abandonedFile).2 = .ok () ∧
      (loadFile abandonedFile).1.isLoadable = true ∧
      (loadFile abandonedFile).1.isMapped = false := by
    decide +kernel
  constructor
  · exact (isMapped_iff_of_isLoadable (load_empty_eq hdata.1) hdata.2.1).1.mpr (.inr hdata.2.2)
  · exact (isMapped_iff_of_isLoadable (load_empty_eq habandoned.1) habandoned.2.1).2
      habandoned.2.2

/-! ### Mapped images -/

/-- What a mapped section-granular image is like: it has a layout, no extent of a section with
access leaves a word, and its pages are those of the layout. -/
lemma granularLayout_of_isMapped {loaded : Image} (h : image.load file = (loaded, .ok ()))
    (hm : loaded.isMapped = true) (hsa : pageSize ≤ loaded.optional.sectionAlignment.toNat) :
    GranularLayout loaded.optional loaded.sections ∧
      (∀ s ∈ loaded.sections, s.protection ≠ .noAccess →
        s.extent loaded.optional.sectionAlignment < UInt32.size) ∧
      ∃ F, (capture image.config file).2 = .ok F ∧ loaded.ShowsLayout F := by
  obtain ⟨captured, F, hc, hload⟩ := loaded_of_load h
  obtain ⟨hl, hp⟩ := Bool.and_eq_true_iff.mp hm
  have hp' := bne_iff_ne.mp hp
  rw [hload.frame] at hsa
  have hf : captured.isFlat = false := isFlat_eq_false_iff.mpr hsa
  have hfits := (hload.pageCount_ne_zero_iff (hload.isMappable_of_isLoadable hl)).mp hp'
  have hlayout := (hload.placed_of_pageCount hf hp').1
  have hshow := hload.showsLayout hf hp'
  rw [hload.frame] at hshow ⊢
  exact ⟨hlayout, hfits.resolve_left (by simp [hf]), F, by rw [hc], hshow⟩

/-! ### Sections that count as nothing -/

/-- Sections of a layout tile the image by their sizes, and not only by the count of the rules,
exactly if no extent leaves a word. -/
lemma tiles_extent_iff (hl : GranularLayout image.optional image.sections) :
    (Tiles (·.extent image.optional.sectionAlignment)
        (roundUp image.optional.sizeOfHeaders.toNat image.optional.sectionAlignment.toNat)
        image.sections ∧
      ∀ s ∈ image.sections,
        s.virtualAddress.toNat + s.effectiveSize.toNat ≤ image.alignedSize.toNat) ↔
      ∀ s ∈ image.sections, s.extent image.optional.sectionAlignment < UInt32.size := by
  have hsize : image.alignedSize.toNat = roundUp image.optional.sizeOfImage.toNat pageSize :=
    hl.toNat_alignUp_sizeOfImage
  constructor
  · rintro ⟨-, hend⟩ s hs
    -- an extent that leaves a word belongs to a section larger than any image
    by_contra hx
    have hlarge := SectionHeader.largestImage_lt hl.isPowerOfTwo_sectionAlignment hx
    have himage := hl.roundUp_sizeOfImage_le
    have hle := hend s hs
    simp only [pageSize] at *
    omega
  · intro hx
    have hcounted : ∀ s ∈ image.sections, s.counted image.optional.sectionAlignment =
        s.extent image.optional.sectionAlignment := by
      intro s hs
      exact SectionHeader.counted_of_lt hl.isPowerOfTwo_sectionAlignment hl.pageSize_le (hx s hs)
    refine ⟨hl.tiles.congr hcounted, ?_⟩
    intro s hs
    have hend := (hl.bounds hs).2
    have hle : s.effectiveSize.toNat ≤ s.extent image.optional.sectionAlignment :=
      le_roundUp hl.sectionAlignment_pos _
    rw [hcounted s hs] at hend
    omega

/-- **Where the sections of a mapped image lie**: they tile it exactly if no extent leaves a word,
and only a section without access can have one that does. -/
theorem tiles_iff_of_isMapped {loaded : Image} (h : image.load file = (loaded, .ok ()))
    (hm : loaded.isMapped = true) (hsa : pageSize ≤ loaded.optional.sectionAlignment.toNat) :
    ((Tiles (·.extent loaded.optional.sectionAlignment)
        (roundUp loaded.optional.sizeOfHeaders.toNat loaded.optional.sectionAlignment.toNat)
        loaded.sections ∧
      ∀ s ∈ loaded.sections,
        s.virtualAddress.toNat + s.effectiveSize.toNat ≤ loaded.alignedSize.toNat) ↔
      ∀ s ∈ loaded.sections, s.extent loaded.optional.sectionAlignment < UInt32.size) ∧
      ∀ s ∈ loaded.sections, s.protection ≠ .noAccess →
        s.extent loaded.optional.sectionAlignment < UInt32.size := by
  obtain ⟨hl, hfits, -⟩ := granularLayout_of_isMapped h hm hsa
  exact ⟨tiles_extent_iff hl, hfits⟩

theorem tiles_dataFile :
    Tiles (·.extent (loadFile dataFile).1.optional.sectionAlignment)
        (roundUp (loadFile dataFile).1.optional.sizeOfHeaders.toNat
          (loadFile dataFile).1.optional.sectionAlignment.toNat)
        (loadFile dataFile).1.sections ∧
      ∀ s ∈ (loadFile dataFile).1.sections, s.virtualAddress.toNat + s.effectiveSize.toNat ≤
        (loadFile dataFile).1.alignedSize.toNat := by
  have hdata : (loadFile dataFile).2 = .ok () ∧ (loadFile dataFile).1.isMapped = true ∧
      pageSize ≤ (loadFile dataFile).1.optional.sectionAlignment.toNat ∧
      ∀ s ∈ (loadFile dataFile).1.sections,
        s.extent (loadFile dataFile).1.optional.sectionAlignment < UInt32.size := by
    decide +kernel
  exact (tiles_iff_of_isMapped (load_empty_eq hdata.1) hdata.2.1 hdata.2.2.1).1.mpr hdata.2.2.2

/-- One section without access that is as large as the address space. -/
def oversizeFile : ByteArray :=
  smallFile 0x2000 0x2000 [{ virtualSize := 0xFFFFF000, virtualAddress := 0x2000 }] []

/-- The file is mapped, though its section does not lie within the image. -/
theorem isMapped_oversizeFile :
    (loadFile oversizeFile).2 = .ok () ∧ (loadFile oversizeFile).1.isMapped = true ∧
      pageSize ≤ (loadFile oversizeFile).1.optional.sectionAlignment.toNat ∧
      ∃ s ∈ (loadFile oversizeFile).1.sections, (loadFile oversizeFile).1.alignedSize.toNat <
        s.virtualAddress.toNat + s.effectiveSize.toNat := by
  decide +kernel

end Image

end PeImage
