/-
Images that headers and sections use up.

The older rules compare the pages that are left behind the last section, counted down in words, with
the pages of one unit of alignment. That neither count has wrapped, and that both speak of the end
of the last section, holds of every mapped image in which all sections have access.

* `Image.takenEnd`: where headers and sections end, and `Image.takenEnd_eq`: by the count of
  the rules, where no extent leaves a word;
* `Image.Obeys.taken_add_free`: what they take and what is left add up to the size of image;
* `Image.consumed_of_isMapped`: less than a unit of alignment is left;
* `Image.consumed_roomyFile`: a file with room for a page behind its section.
-/
import PeImage.Proofs.Acceptance
import PeImage.Proofs.AddedSection
import PeImage.Proofs.History
import PeImage.Proofs.Oversize

namespace PeImage

namespace Image

variable {image : Image} {fileSize : ℕ}

/-- Where the last section ends in memory, or the headers if there is none, rounded up. -/
def takenEnd (image : Image) : ℕ :=
  match image.sections.getLast? with
  | some last => roundUp last.memoryEnd image.optional.sectionAlignment.toNat
  | none => roundUp image.optional.sizeOfHeaders.toNat image.optional.sectionAlignment.toNat

/-- In a layout, that is the end of what the rules count, if no extent leaves a word. -/
lemma takenEnd_eq
    (hl : GranularLayout image.optional image.sections)
    (hx : ∀ s ∈ image.sections, s.extent image.optional.sectionAlignment < UInt32.size) :
    image.takenEnd =
      roundUp image.optional.sizeOfHeaders.toNat image.optional.sectionAlignment.toNat +
        Tiles.total (·.counted image.optional.sectionAlignment) image.sections := by
  rw [takenEnd]
  cases hlast : image.sections.getLast? with
  | none =>
      rw [List.getLast?_eq_none_iff.mp hlast]
      rfl
  | some last =>
      have hmem := List.mem_of_getLast? hlast
      have hcounted := SectionHeader.counted_of_lt hl.isPowerOfTwo_sectionAlignment hl.pageSize_le
        (hx last hmem)
      dsimp only
      rw [SectionHeader.memoryEnd,
        roundUp_add_of_dvd hl.sectionAlignment_pos (hl.dvd_virtualAddress hmem),
        ← hl.tiles.last_end hlast, hcounted, SectionHeader.extent]

/-- What headers and sections take, and what the rules find left behind them, is the image. -/
lemma Obeys.taken_add_free (h : image.Obeys fileSize) (hf : image.isFlat = false) :
    roundUp image.optional.sizeOfHeaders.toNat image.optional.sectionAlignment.toNat +
        Tiles.total (·.counted image.optional.sectionAlignment) image.sections +
      image.lastFrontier.free.toNat * pageSize =
        roundUp image.optional.sizeOfImage.toNat pageSize := by
  have hl := h.granularLayout hf
  obtain ⟨hnext, hfirst⟩ :=
    firstFrontier_eq hf hl.isPowerOfTwo_sectionAlignment hl.pageSize_le h.headerSize
  obtain ⟨-, -, htotal⟩ := h.sections.tiles hf hl.isPowerOfTwo_fileAlignment
  rw [hnext] at htotal hfirst
  rw [lastFrontier, htotal, hfirst]

/-- What the rules allow to be left is less than a unit of alignment. -/
lemma free_mul_lt (hf : image.isFlat = false) {free : UInt32} (h : free < image.slack) :
    free.toNat * pageSize < image.optional.sectionAlignment.toNat := by
  have hslack : image.slack.toNat = image.optional.sectionAlignment.toNat / pageSize := by
    rw [slack, hf]
    exact UInt32.toNat_div _ _
  rw [UInt32.lt_iff_toNat_lt, hslack] at h
  calc free.toNat * pageSize
    _ < image.optional.sectionAlignment.toNat / pageSize * pageSize :=
        Nat.mul_lt_mul_of_pos_right h pageSize_pos
    _ ≤ image.optional.sectionAlignment.toNat := Nat.div_mul_le_self _ _

/-- **The size of a mapped image** under the rules of Windows XP and Windows 7: its pages reach as
far as headers and sections do, and by less than a unit of alignment farther. -/
theorem consumed_of_isMapped {file : ByteArray} {loaded : Image}
    (h : image.load file = (loaded, .ok ()))
    (hversion : image.config.version = .xp ∨ image.config.version = .win7)
    (hm : loaded.isMapped = true) (hsa : pageSize ≤ loaded.optional.sectionAlignment.toNat)
    (haccess : ∀ s ∈ loaded.sections, s.protection ≠ .noAccess) :
    loaded.takenEnd ≤ pageSize * loaded.pageCount ∧
      pageSize * loaded.pageCount < loaded.takenEnd + loaded.optional.sectionAlignment.toNat := by
  obtain ⟨hl, hfits, F, -, hshows⟩ := granularLayout_of_isMapped h hm hsa
  obtain ⟨captured, F', hc, hload⟩ := loaded_of_load h
  have hmappable := hload.isMappable_of_isLoadable (Bool.and_eq_true_iff.mp hm).1
  have hframe := hload.frame
  have hf : captured.isFlat = false := isFlat_eq_false_iff.mpr (by rwa [hframe] at hsa)
  have hobeys := obeys_of_capture hc (not_grave_of_isMappable hmappable) hf
  have hmatch : captured.config.sizeOfImageMustMatch = true := by
    rw [config_of_capture hc, Config.sizeOfImageMustMatch]
    rcases hversion with hv | hv <;> rw [hv] <;> rfl
  have hsum := hobeys.taken_add_free hf
  have hfree := free_mul_lt hf (hobeys.consumed hmatch)
  have htaken := takenEnd_eq hl fun s hs => hfits s hs (haccess s hs)
  have hpages :
      pageSize * loaded.pageCount = roundUp loaded.optional.sizeOfImage.toNat pageSize := by
    rw [hshows.pageCount_eq, Nat.mul_comm, roundUp_div_mul]
  have hoptional : loaded.optional = captured.optional := by rw [hframe]
  have hsections : loaded.sections = captured.sections := by rw [hframe]
  rw [htaken, hpages, hoptional, hsections, ← hsum]
  omega

/-- A section of one page in an image of five, of which headers and sections take two each. -/
def roomyFile : ByteArray :=
  smallFile 0x2000 0x5000
    [{ virtualSize := 0x1000, virtualAddress := 0x2000, rawSize := 8, rawPointer := 224,
       characteristics := 0x40000000 }]
    [1, 2, 3, 4, 5, 6, 7, 8]

/-- The page that is left is less than a unit of alignment. -/
theorem consumed_roomyFile :
    let loaded := ((empty (.ofVersion .xp)).load roomyFile).1
    loaded.pageCount = 5 ∧ loaded.takenEnd ≤ pageSize * loaded.pageCount ∧
      pageSize * loaded.pageCount < loaded.takenEnd + loaded.optional.sectionAlignment.toNat := by
  have hshown :
      let loaded := (empty (.ofVersion .xp)).load roomyFile
      loaded.2 = .ok () ∧ loaded.1.isMapped = true ∧
        pageSize ≤ loaded.1.optional.sectionAlignment.toNat ∧
        (∀ s ∈ loaded.1.sections, s.protection ≠ .noAccess) ∧ loaded.1.pageCount = 5 := by
    decide +kernel
  generalize roomyFile = file at hshown ⊢
  obtain ⟨hok, hm, hsa, haccess, hpages⟩ := hshown
  exact ⟨hpages, consumed_of_isMapped (load_eq_of_ok hok) (.inl rfl) hm hsa haccess⟩

end Image

end PeImage
