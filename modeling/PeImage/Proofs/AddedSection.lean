/-
Where an added section finds its place.

An added section begins behind the headers and behind all other sections, in memory and in the file.
In memory it is the virtual sizes that it clears, and a section without one takes the size of its
raw data, so that such a section may reach into the added one.

* `SectionHeader.memoryEnd`, `SectionHeader.fileEnd`: where a section ends, and
  `SectionHeader.Follows`: that one section begins behind the end of another;
* `Image.EndsFit`: no end of headers or sections is lost in the rounding;
* `Image.farthest`: the farthest of these ends, and `Image.toNat_freeAddress`,
  `Image.toNat_freeOffset`: the added section begins there;
* `Image.follows_of_addSection`: the place of the added section, and exactly which sections it
  follows;
* `Image.overlaps_rawSizeFile`: a file to which a section is added that overlaps another one.
-/
import PeImage.Image.Edit
import PeImage.Proofs.PageTable

namespace PeImage

namespace SectionHeader

/-! ### Ends -/

/-- Where the memory of a section ends. -/
def memoryEnd (s : SectionHeader) : ℕ := s.virtualAddress.toNat + s.effectiveSize.toNat

/-- Where the raw data of a section ends in the file. -/
def fileEnd (s : SectionHeader) : ℕ := s.rawPointer.toNat + s.rawSize.toNat

/-- Where the virtual size puts the end of a section. -/
def virtualEnd (s : SectionHeader) : ℕ := s.virtualAddress.toNat + s.virtualSize.toNat

/-- A section begins behind the end of another one, in memory and in the file. -/
structure Follows (s t : SectionHeader) : Prop where
  memory : t.memoryEnd ≤ s.virtualAddress.toNat
  file : t.fileEnd ≤ s.rawPointer.toNat

/-- A virtual size tells the size in memory, unless it is zero. -/
lemma virtualEnd_eq {s : SectionHeader} (h : s.virtualSize ≠ 0) : s.virtualEnd = s.memoryEnd := by
  rw [virtualEnd, memoryEnd, effectiveSize, if_pos h]

lemma virtualEnd_le (s : SectionHeader) : s.virtualEnd ≤ s.memoryEnd := by
  by_cases h : s.virtualSize = 0
  · simp [virtualEnd, memoryEnd, h]
  · exact (virtualEnd_eq h).le

end SectionHeader

namespace Image

open SectionHeader

variable {image : Image}

/-- The ends of headers and sections, rounded up, are words. -/
@[mk_iff]
structure EndsFit (image : Image) : Prop where
  headers_memory :
    roundUp image.optional.sizeOfHeaders.toNat image.optional.sectionAlignment.toNat < UInt32.size
  headers_file :
    roundUp image.optional.sizeOfHeaders.toNat image.optional.fileAlignment.toNat < UInt32.size
  memory : ∀ s ∈ image.sections,
    roundUp s.memoryEnd image.optional.sectionAlignment.toNat < UInt32.size
  file : ∀ s ∈ image.sections,
    roundUp s.fileEnd image.optional.fileAlignment.toNat < UInt32.size

instance : Decidable image.EndsFit := decidable_of_iff _ (endsFit_iff image).symm

/-- A section has aligned addresses behind the headers. -/
structure IsPlaced (image : Image) (s : SectionHeader) : Prop where
  memory_dvd : image.optional.sectionAlignment.toNat ∣ s.virtualAddress.toNat
  file_dvd : image.optional.fileAlignment.toNat ∣ s.rawPointer.toNat
  memory : image.optional.sizeOfHeaders.toNat ≤ s.virtualAddress.toNat
  file : image.optional.sizeOfHeaders.toNat ≤ s.rawPointer.toNat

/-! ### The farthest end -/

/-- The farthest of the end of the headers and those of the sections, where `stop` tells the end of
a section. -/
def farthest (image : Image) (stop : SectionHeader → ℕ) : ℕ :=
  image.sections.foldl (fun n s => max n (stop s)) image.optional.sizeOfHeaders.toNat

variable {stop : SectionHeader → ℕ}

/-- What holds of all ends holds of the farthest one. -/
lemma farthest_of_forall {p : ℕ → Prop} (hh : p image.optional.sizeOfHeaders.toNat)
    (hs : ∀ s ∈ image.sections, p (stop s)) : p (image.farthest stop) := by
  rw [farthest]
  generalize image.optional.sizeOfHeaders.toNat = n at hh
  revert hs
  induction image.sections generalizing n with
  | nil => exact fun _ => hh
  | cons s rest ih =>
      intro hs
      rw [List.forall_mem_cons] at hs
      exact ih _ (max_rec' p hh hs.1) hs.2

/-- No end is farther. -/
lemma le_farthest (image : Image) (stop : SectionHeader → ℕ) :
    image.optional.sizeOfHeaders.toNat ≤ image.farthest stop ∧
      ∀ s ∈ image.sections, stop s ≤ image.farthest stop := by
  rw [farthest]
  generalize image.optional.sizeOfHeaders.toNat = n
  induction image.sections generalizing n with
  | nil => simp
  | cons s rest ih =>
      obtain ⟨hn, hrest⟩ := ih (max n (stop s))
      rw [List.forall_mem_cons]
      exact ⟨le_of_max_le_left hn, le_of_max_le_right hn, hrest⟩

/-- The search for the farthest end in words, as long as no end of a section wraps. -/
lemma toNat_foldl_max {sections : List SectionHeader} (start : UInt32)
    (pos size : SectionHeader → UInt32)
    (h : ∀ s ∈ sections, (pos s).toNat + (size s).toNat < UInt32.size) :
    (sections.foldl (fun a s => max a (pos s + size s)) start).toNat =
      sections.foldl (fun n s => max n ((pos s).toNat + (size s).toNat)) start.toNat := by
  induction sections generalizing start with
  | nil => rfl
  | cons s rest ih =>
      rw [List.forall_mem_cons] at h
      rw [List.foldl_cons, List.foldl_cons, ih _ h.2, UInt32.toNat_max, UInt32.toNat_add,
        Nat.mod_eq_of_lt h.1]

lemma lt_size_of_roundUp {n : ℕ} {a : UInt32} (ha : a.toNat.isPowerOfTwo)
    (h : roundUp n a.toNat < UInt32.size) : n < UInt32.size :=
  (le_roundUp (Nat.pos_of_isPowerOfTwo ha) n).trans_lt h

/-- The free address is the farthest virtual end, rounded up. -/
lemma toNat_freeAddress (ha : image.optional.sectionAlignment.toNat.isPowerOfTwo)
    (hfit : image.EndsFit) :
    image.freeAddress.toNat =
      roundUp (image.farthest virtualEnd) image.optional.sectionAlignment.toNat := by
  have hpos := Nat.pos_of_isPowerOfTwo ha
  have hends : ∀ s ∈ image.sections,
      roundUp s.virtualEnd image.optional.sectionAlignment.toNat < UInt32.size := fun s hs =>
    (roundUp_mono hpos s.virtualEnd_le).trans_lt (hfit.memory s hs)
  have hfar : roundUp (image.farthest virtualEnd) image.optional.sectionAlignment.toNat <
      UInt32.size :=
    farthest_of_forall (p := fun n => roundUp n _ < UInt32.size) hfit.headers_memory hends
  have hfold := toNat_foldl_max image.optional.sizeOfHeaders (·.virtualAddress) (·.virtualSize)
    fun s hs => lt_size_of_roundUp ha (hends s hs)
  rw [freeAddress, toNat_alignUp_of_lt ha (by rwa [hfold]), hfold]
  rfl

/-- The free offset is the farthest end in the file, rounded up. -/
lemma toNat_freeOffset (ha : image.optional.fileAlignment.toNat.isPowerOfTwo)
    (hfit : image.EndsFit) :
    image.freeOffset.toNat =
      roundUp (image.farthest fileEnd) image.optional.fileAlignment.toNat := by
  have hfar : roundUp (image.farthest fileEnd) image.optional.fileAlignment.toNat < UInt32.size :=
    farthest_of_forall (p := fun n => roundUp n _ < UInt32.size) hfit.headers_file hfit.file
  have hfold := toNat_foldl_max image.optional.sizeOfHeaders (·.rawPointer) (·.rawSize)
    fun s hs => lt_size_of_roundUp ha (hfit.file s hs)
  rw [freeOffset, toNat_alignUp_of_lt ha (by rwa [hfold]), hfold]
  rfl

/-! ### The added section -/

lemma ne_zero_of_isPowerOfTwo {a : UInt32} (ha : a.toNat.isPowerOfTwo) : a ≠ 0 := by
  rintro rfl
  exact absurd (Nat.pos_of_isPowerOfTwo ha) (lt_irrefl 0)

/-- A section is added exactly if there is room for it, and all other parts of the image stay. -/
lemma addSection_eq_ok_iff {added : Image} (hfa : image.optional.fileAlignment ≠ 0)
    (hsa : image.optional.sectionAlignment ≠ 0) (name : String) (size : UInt32) :
    image.addSection name size = .ok added ↔ image.sections.length < maxSectionCount ∧
      { image with sections := image.sections ++ [image.newSection name size] } = added := by
  rw [addSection, requireAlignments, if_neg hfa, if_neg hsa]
  split_ifs with hfull
  · simp [Nat.not_lt.mpr hfull]
  · simp [Nat.lt_of_not_le hfull]

/-- An added section is placed behind the headers. It follows every section in memory and in the
file, except those without a virtual size whose raw data reaches beyond the virtual sizes of all
others. -/
theorem follows_of_addSection {added : Image} {name : String} {size : UInt32}
    (hfa : image.optional.fileAlignment.toNat.isPowerOfTwo)
    (hsa : image.optional.sectionAlignment.toNat.isPowerOfTwo) (hfit : image.EndsFit)
    (h : image.addSection name size = .ok added) :
    ∃ s, added = { image with sections := image.sections ++ [s] } ∧ image.IsPlaced s ∧
      ∀ t ∈ image.sections, s.Follows t ↔ (t.virtualSize = 0 →
        t.memoryEnd ≤
          roundUp (image.farthest virtualEnd) image.optional.sectionAlignment.toNat) := by
  obtain ⟨hheaders, hvirtual⟩ := le_farthest image virtualEnd
  obtain ⟨hheaders', hfile⟩ := le_farthest image fileEnd
  have hmemoryEnd := le_roundUp (Nat.pos_of_isPowerOfTwo hsa) (image.farthest virtualEnd)
  have hfileEnd := le_roundUp (Nat.pos_of_isPowerOfTwo hfa) (image.farthest fileEnd)
  have haddress : (image.newSection name size).virtualAddress.toNat = _ :=
    toNat_freeAddress hsa hfit
  have hpointer : (image.newSection name size).rawPointer.toNat = _ := toNat_freeOffset hfa hfit
  obtain ⟨-, hadded⟩ :=
    (addSection_eq_ok_iff (ne_zero_of_isPowerOfTwo hfa) (ne_zero_of_isPowerOfTwo hsa) _ _).mp h
  refine ⟨_, hadded.symm, ⟨?_, ?_, ?_, ?_⟩, fun t ht => ⟨?_, ?_⟩⟩
  · rw [haddress]
    exact dvd_roundUp _ _
  · rw [hpointer]
    exact dvd_roundUp _ _
  · rw [haddress]
    exact hheaders.trans hmemoryEnd
  · rw [hpointer]
    exact hheaders'.trans hfileEnd
  · intro hfollows _
    exact haddress ▸ hfollows.memory
  · intro hzero
    refine ⟨?_, ?_⟩
    · rw [haddress]
      by_cases hv : t.virtualSize = 0
      · exact hzero hv
      · exact (virtualEnd_eq hv ▸ hvirtual t ht).trans hmemoryEnd
    · rw [hpointer]
      exact (hfile t ht).trans hfileEnd

/-- A section added to a file whose only section has a virtual size. -/
theorem follows_dataFile :
    let image := (loadFile dataFile).1
    image.isMapped = true ∧ ∃ s, image.addSection ".new" 0x100 =
        .ok { image with sections := image.sections ++ [s] } ∧
      image.IsPlaced s ∧ ∀ t ∈ image.sections, s.Follows t := by
  have hdata : (loadFile dataFile).1.isMapped = true ∧
      (loadFile dataFile).1.optional.fileAlignment.toNat.isPowerOfTwo ∧
      (loadFile dataFile).1.optional.sectionAlignment.toNat.isPowerOfTwo ∧
      (loadFile dataFile).1.EndsFit ∧
      (loadFile dataFile).1.sections.length < maxSectionCount ∧
      ∀ t ∈ (loadFile dataFile).1.sections, t.virtualSize ≠ 0 := by
    decide +kernel
  obtain ⟨hmapped, hfa, hsa, hfit, hroom, hvirtual⟩ := hdata
  have hadded := (addSection_eq_ok_iff (ne_zero_of_isPowerOfTwo hfa)
    (ne_zero_of_isPowerOfTwo hsa) ".new" 0x100).mpr ⟨hroom, rfl⟩
  obtain ⟨s, hs, hplaced, hfollows⟩ := follows_of_addSection hfa hsa hfit hadded
  refine ⟨hmapped, s, hs ▸ hadded, hplaced, fun t ht => ?_⟩
  exact (hfollows t ht).mpr fun hzero => absurd hzero (hvirtual t ht)

/-- A file with one section that has raw data and no virtual size. -/
def rawSizeFile : ByteArray :=
  smallFile 0x1000 0x2000
    [{ virtualAddress := 0x1000, rawSize := 8, rawPointer := 224, characteristics := 0x40000000 }]
    [1, 2, 3, 4, 5, 6, 7, 8]

/-- The added section begins where the other one does. -/
theorem overlaps_rawSizeFile :
    let image := (loadFile rawSizeFile).1
    image.isMapped = true ∧ image.optional.fileAlignment.toNat.isPowerOfTwo ∧
      image.optional.sectionAlignment.toNat.isPowerOfTwo ∧ image.EndsFit ∧
      (image.addSection ".new" 0x100).map (·.sections.map fun s =>
        (s.virtualAddress.toNat, s.memoryEnd)) = .ok [(0x1000, 0x1008), (0x1000, 0x2000)] := by
  decide +kernel

end Image

end PeImage
