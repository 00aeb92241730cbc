/-
What a load makes of a captured image.

A load that does not fail ends in one of four ways, and only two of them leave pages. In each of
them the headers stay what the capture made of them: only the register of problems and the contents
change.

* `Image.tableSize`, `Image.place_headers`: the table of a section-granular image, in which the
  headers always find their place;
* `Image.Loaded`: the four outcomes, and `Image.loaded_of_load`: there is no other one;
* `Image.Loaded.frame`: what stays, and `Image.Loaded.contents`: what can be read;
* `Image.Loaded.placed_of_pageCount`: a section-granular image with pages is laid out by the rules
  and has all regions in its table;
* `Image.loadFile`, `Image.smallFile`: files to try it on.
-/
import PeImage.Proofs.SectionPages

namespace PeImage

namespace Image

open Region

variable {image : Image}

/-! ### The table and the headers in it -/

/-- The pages of a section-granular image. -/
def tableSize (image : Image) : ℕ := roundUp image.optional.sizeOfImage.toNat pageSize / pageSize

/-- A section-granular image has a page, the first one of its headers. -/
lemma tableSize_pos (hl : GranularLayout image.optional image.sections) : 0 < image.tableSize := by
  have hle := UInt32.le_iff_toNat_le.mp hl.sizeOfHeaders_le
  have hpos := hl.sizeOfHeaders_pos
  rw [tableSize, lt_roundUp_div_iff pageSize_pos]
  omega

lemma alignedSize_eq (hl : GranularLayout image.optional image.sections) :
    image.alignedSize.toNat = image.tableSize * pageSize := by
  rw [alignedSize, hl.toNat_alignUp_sizeOfImage, tableSize, roundUp_div_mul]

lemma alignedSize_div (hl : GranularLayout image.optional image.sections) :
    image.alignedSize.toNat / pageSize = image.tableSize := by
  rw [alignedSize_eq hl, Nat.mul_div_cancel _ pageSize_pos]

/-- The address behind the headers is where the first section is due. -/
lemma toNat_next_headers (hl : GranularLayout image.optional image.sections) :
    ((ofHeaders image.mappedHeaderSize).next image.optional).toNat =
      roundUp image.optional.sizeOfHeaders.toNat image.optional.sectionAlignment.toNat := by
  have hfront := isFront_ofHeaders hl
  have hpos := hl.sectionAlignment_pos
  have hround : roundUp (roundUp image.headerBytes pageSize)
      image.optional.sectionAlignment.toNat =
        roundUp image.optional.sizeOfHeaders.toNat image.optional.sectionAlignment.toNat := by
    rw [roundUp_roundUp pageSize_pos hpos hl.pageSize_dvd]
    apply le_antisymm
    · exact roundUp_le hpos (headerBytes_le hl) (dvd_roundUp _ _)
    · exact roundUp_mono hpos (sizeOfHeaders_le_headerBytes hl)
  have hlt := hl.lt_size_of_le hl.roundUp_sizeOfHeaders_le
  rw [next, UInt32.toNat_add, hfront.address, UInt32.toNat_zero, Nat.zero_add,
    toNat_alignUp_of_lt hl.isPowerOfTwo_sectionAlignment, hfront.toNat_size, hround]
  · exact Nat.mod_eq_of_lt hlt
  · rwa [hfront.toNat_size, hround]

/-- The headers have room in the table. -/
lemma fits_headers (hl : GranularLayout image.optional image.sections) :
    (ofHeaders image.mappedHeaderSize).Fits image.tableSize := by
  have hfront := isFront_ofHeaders hl
  right
  right
  rw [hfront.firstPage_eq, Nat.zero_add, Region.pageCount, hfront.toNat_size, tableSize]
  exact Nat.div_le_div_right ((roundUp_headerBytes_le hl).trans hl.roundUp_sizeOfHeaders_le)

/-- The headers always find their place. -/
lemma place_headers (hl : GranularLayout image.optional image.sections) (file : ByteArray) :
    ∃ pages headerEnd, (ofHeaders image.mappedHeaderSize).place file image.optional
        (Array.replicate image.tableSize .inaccessible) = some (pages, headerEnd) ∧
      headerEnd.toNat =
        roundUp image.optional.sizeOfHeaders.toNat image.optional.sectionAlignment.toNat := by
  have hnext := toNat_next_headers hl
  have hfits : (ofHeaders image.mappedHeaderSize).Fits
      (Array.replicate image.tableSize Page.inaccessible).size := by
    rw [Array.size_replicate]
    exact fits_headers hl
  have hne : (ofHeaders image.mappedHeaderSize).next image.optional ≠ 0 := by
    intro h0
    have hpos := roundUp_pos hl.sectionAlignment_pos hl.sizeOfHeaders_pos
    rw [h0, UInt32.toNat_zero] at hnext
    omega
  cases hplace : (ofHeaders image.mappedHeaderSize).place file image.optional
      (Array.replicate image.tableSize .inaccessible) with
  | none => exact absurd ⟨hfits, hne⟩ (place_eq_none_iff.mp hplace)
  | some result =>
      obtain ⟨pages, headerEnd⟩ := result
      obtain ⟨-, hend, -⟩ := place_eq_some_iff.mp hplace
      exact ⟨pages, headerEnd, rfl, by rw [← hend, hnext]⟩

/-- The table of a section-granular image is never empty. -/
lemma isEmpty_of_place {file : ByteArray} {pages table : Array Page} {headerEnd : UInt32}
    (hl : GranularLayout image.optional image.sections)
    (hh : (ofHeaders image.mappedHeaderSize).place file image.optional
      (Array.replicate image.tableSize .inaccessible) = some (pages, headerEnd))
    (ht : table.size = pages.size) : table.isEmpty = false := by
  have hpages := (getElem?_fill (place_eq_some_iff.mp hh).1).1
  have hpos := tableSize_pos hl
  rw [Array.size_replicate] at hpages
  simp only [Array.isEmpty, decide_eq_false_iff_not]
  omega

/-- A flat image that has a place has a page. -/
lemma isEmpty_flatPages {file : ByteArray} {pages : Array Page}
    (h : image.flatPages file = some pages) : pages.isEmpty = false := by
  obtain ⟨⟨table, next⟩, hplace, rfl⟩ := Option.map_eq_some_iff.mp h
  have hsize := (getElem?_fill (place_eq_some_iff.mp hplace).1).1
  have hle : pageSize ≤ image.flatSize.toNat := by
    rw [flatSize, toNat_max]
    exact le_max_right _ _
  have hpos : 0 < (pagesFor image.flatSize).toNat := by
    by_contra h0
    have hmul := toNat_pagesFor_mul image.flatSize
    have hround : image.flatSize.toNat ≤ roundUp image.flatSize.toNat pageSize :=
      le_roundUp pageSize_pos _
    have hps := pageSize_pos
    rw [Nat.eq_zero_of_not_pos h0] at hmul
    omega
  rw [Array.size_replicate] at hsize
  simp only [Array.isEmpty, decide_eq_false_iff_not]
  omega

/-! ### The outcomes -/

/-- What a load that does not fail makes of a captured image. -/
inductive Loaded (captured : Image) (file : ByteArray) : Image → Prop
  /-- Something that was recorded forbids it to be mapped. -/
  | refused (hm : captured.isMappable = false) :
      Loaded captured file { captured with contents := .raw file }
  /-- It is mapped as one piece. -/
  | flat {pages : Array Page} (hm : captured.isMappable = true) (hf : captured.isFlat = true)
      (hp : captured.flatPages file = some pages) (he : pages.isEmpty = false) :
      Loaded captured file { captured with contents := .mapped pages }
  /-- Every section found its place. Without any, the headers must make up the image, but the table
  stands even where they do not. -/
  | placed {pages table : Array Page} {headerEnd : UInt32} (hm : captured.isMappable = true)
      (hf : captured.isFlat = false) (hl : GranularLayout captured.optional captured.sections)
      (hh : (ofHeaders captured.mappedHeaderSize).place file captured.optional
        (Array.replicate captured.tableSize .inaccessible) = some (pages, headerEnd))
      (ht : placeSections file captured.optional pages captured.sections = some table) :
      Loaded captured file { captured with
        latch := if captured.sections.isEmpty && !captured.headersSpanImage headerEnd then
            captured.latch.record .sizeOfImageInvalid
          else captured.latch
        contents := .mapped table }
  /-- Some section found no place, and the whole table is given up. -/
  | abandoned {pages : Array Page} {headerEnd : UInt32} (hm : captured.isMappable = true)
      (hf : captured.isFlat = false) (hl : GranularLayout captured.optional captured.sections)
      (hh : (ofHeaders captured.mappedHeaderSize).place file captured.optional
        (Array.replicate captured.tableSize .inaccessible) = some (pages, headerEnd))
      (ht : placeSections file captured.optional pages captured.sections = none) :
      Loaded captured file { captured with
        latch := captured.latch.record .sectionAddressInvalid
        contents := .raw file }

/-- The sections of a section-granular image that is to be mapped find a place or not. -/
lemma loaded_of_granularPages {captured built : Image} {file : ByteArray} {table : Array Page}
    (hm : captured.isMappable = true) (hf : captured.isFlat = false)
    (hl : GranularLayout captured.optional captured.sections)
    (h : captured.granularPages file = (built, .ok table)) :
    Loaded captured file (built.takeContents file table) := by
  obtain ⟨pages, headerEnd, hh, -⟩ := place_headers hl file
  -- without sections the table of the headers is the whole table
  have hnone (hs : captured.sections = []) :
      placeSections file captured.optional pages captured.sections = some pages := by
    rw [hs, placeSections]
  simp only [granularPages, alignedSize_div hl, hh] at h
  split_ifs at h with hs hspan
  · obtain ⟨rfl, hok⟩ := Prod.mk.inj h
    cases hok
    rw [takeContents, isEmpty_of_place hl hh rfl]
    simpa [hs, hspan] using Loaded.placed hm hf hl hh (hnone (List.isEmpty_iff.mp hs))
  · obtain ⟨rfl, hok⟩ := Prod.mk.inj h
    cases hok
    rw [takeContents, isEmpty_of_place hl hh rfl]
    simpa [hs, hspan, record] using Loaded.placed hm hf hl hh (hnone (List.isEmpty_iff.mp hs))
  · cases ht : placeSections file captured.optional pages captured.sections with
    | some t =>
        rw [ht] at h
        obtain ⟨rfl, hok⟩ := Prod.mk.inj h
        cases hok
        rw [takeContents, isEmpty_of_place hl hh (getElem?_placeSections_of_not_covers ht).1]
        simpa [hs] using Loaded.placed hm hf hl hh ht
    | none =>
        rw [ht] at h
        obtain ⟨rfl, hok⟩ := Prod.mk.inj h
        cases hok
        exact Loaded.abandoned hm hf hl hh ht

/-- **The outcomes of a load**: one that does not fail has captured the image and ends in one of
four ways. -/
theorem loaded_of_load {file : ByteArray} {loaded : Image}
    (h : image.load file = (loaded, .ok ())) :
    ∃ captured F, capture image.config file = (captured, .ok F) ∧ Loaded captured F loaded := by
  unfold load loadTo at h
  split at h
  · cases (Prod.mk.inj h).2
  · next captured F hc =>
    refine ⟨captured, F, hc, ?_⟩
    dsimp only [mapContents] at h
    by_cases hm : captured.isMappable = true
    · rw [if_pos hm, buildPages] at h
      by_cases hf : captured.isFlat = true
      · rw [if_pos hf] at h
        cases hp : captured.flatPages F with
        | none =>
            rw [hp] at h
            cases (Prod.mk.inj h).2
        | some pages =>
            rw [hp] at h
            obtain ⟨rfl, -⟩ := Prod.mk.inj h
            have he := isEmpty_flatPages hp
            rw [takeContents, he]
            exact Loaded.flat hm hf hp he
      · rw [if_neg hf] at h
        rw [Bool.not_eq_true] at hf
        have hl := (obeys_of_capture hc (not_grave_of_isMappable hm) hf).granularLayout hf
        split at h
        · next built table hbuild =>
          obtain ⟨rfl, -⟩ := Prod.mk.inj h
          exact loaded_of_granularPages hm hf hl hbuild
        · cases (Prod.mk.inj h).2
    · rw [if_neg hm] at h
      obtain ⟨rfl, -⟩ := Prod.mk.inj h
      exact Loaded.refused (Bool.eq_false_iff.mpr hm)

namespace Loaded

variable {captured loaded : Image} {file : ByteArray}

/-- A load changes nothing of a captured image but the register and the contents. -/
lemma frame (h : Loaded captured file loaded) :
    loaded = { captured with latch := loaded.latch, contents := loaded.contents } := by
  cases h <;> rfl

/-- The contents are a nonempty table of pages, or the file. -/
lemma contents (h : Loaded captured file loaded) :
    (∃ pages, loaded.contents = .mapped pages ∧ pages.isEmpty = false) ∨
      loaded.contents = .raw file := by
  cases h with
  | refused => exact .inr rfl
  | flat _ _ _ he => exact .inl ⟨_, rfl, he⟩
  | placed _ _ hl hh ht =>
      exact .inl ⟨_, rfl, isEmpty_of_place hl hh (getElem?_placeSections_of_not_covers ht).1⟩
  | abandoned => exact .inr rfl

/-- Only an image that is to be mapped has pages. -/
lemma isMappable_of_pageCount (h : Loaded captured file loaded) (hp : loaded.pageCount ≠ 0) :
    captured.isMappable = true := by
  cases h with
  | refused => exact absurd rfl hp
  | flat hm => exact hm
  | placed hm => exact hm
  | abandoned hm => exact hm

/-- A section-granular image with pages has every region in its table. -/
lemma placed_of_pageCount (h : Loaded captured file loaded) (hf : captured.isFlat = false)
    (hp : loaded.pageCount ≠ 0) :
    GranularLayout captured.optional captured.sections ∧ ∃ pages table headerEnd,
      (ofHeaders captured.mappedHeaderSize).place file captured.optional
          (Array.replicate captured.tableSize .inaccessible) = some (pages, headerEnd) ∧
        placeSections file captured.optional pages captured.sections = some table ∧
          loaded.contents = .mapped table := by
  cases h with
  | refused => exact absurd rfl hp
  | flat _ hf' => rw [hf] at hf'; cases hf'
  | placed _ _ hl hh ht => exact ⟨hl, _, _, _, hh, ht, rfl⟩
  | abandoned => exact absurd rfl hp

end Loaded

/-! ### Small files -/

deriving instance DecidableEq for Except

/-- Loads a file under the lenient rules, from nothing. -/
def loadFile (file : ByteArray) : Image × Except Fault Unit :=
  (empty (.ofVersion .generic)).load file

lemma load_eq_of_ok {file : ByteArray} (h : (image.load file).2 = .ok ()) :
    image.load file = ((image.load file).1, .ok ()) := Prod.ext rfl h

lemma load_empty_eq {file : ByteArray} (h : (loadFile file).2 = .ok ()) :
    (empty (.ofVersion .generic)).load file = ((loadFile file).1, .ok ()) := load_eq_of_ok h

/-- A file with 32-bit headers of 512 bytes and the given sections. What follows the section table,
headers or not, is `data`. -/
def smallFile (sectionAlignment sizeOfImage : UInt32) (sections : List SectionHeader)
    (data : List UInt8) : ByteArray :=
  let dos : DosHeader := { magic := DosHeader.signature, ntOffset := 64 }
  let file : FileHeader :=
    { machine := 0x14C, sectionCount := .ofNat sections.length, optionalSize := 96,
      characteristics := 2 }
  let optional : List Field :=
    [.u16 Layout.narrow.magic, ⟨26, 0⟩, .u32 0x400000, .u32 sectionAlignment, .u32 0x200, ⟨16, 0⟩,
     .u32 sizeOfImage, .u32 0x200, ⟨32, 0⟩]
  let fields := dos.fields ++ .u32 ntSignatureValue :: file.fields ++ optional ++
    sections.flatMap (·.fields)
  fields.foldl (fun b f => b ++ encode f.width f.value) .empty ++ data.toByteArray

end Image

end PeImage
