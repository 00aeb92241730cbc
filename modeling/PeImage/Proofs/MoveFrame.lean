/-
What a move of a loaded image may touch.

A move stores the new base, and then carries out the fixups that the directory spells. Whatever the
bytes of the directory are, and whether the move succeeds or not, nothing else changes: not the
other headers, not the other bytes, and not which pages have access.

* `Image.baseField`: the field of the base, where the headers of the file place it, and
  `Image.baseStretch_eq_baseField`: that is where a move stores the base, since the headers of what
  is mapped lie in the file;
* `Image.touched`: the addresses that the field and the entries of a directory allow a move to
  change;
* `Image.MovesWithin`: a move changes no other ones, and `Image.movesWithin_of_load`: so it is after
  a load and any number of writes and moves.
-/
import PeImage.Proofs.DirectoryEntries
import PeImage.Proofs.Updates

namespace PeImage

/-! ### Fixups behind the first page -/

/-- A fixup with its target behind the first page lies behind it, aligned or not. -/
lemma Fixup.pageSize_le {f : Fixup} (h : pageSize ≤ f.target.toNat) :
    pageSize ≤ (f.kind.start f.target).toNat := by
  have hpow : (16 : UInt32).toNat = 2 ^ 4 := rfl
  have hdown : (f.target &&& ~~~15).toNat = f.target.toNat / 2 ^ 4 * 2 ^ 4 :=
    toNat_alignDown hpow f.target
  rw [pageSize] at h ⊢
  cases f.kind with
  | ia64Bundle =>
      show 4096 ≤ (f.target &&& ~~~15).toNat
      omega
  | absolute | high | low | highLow | highAdjusted | mipsJump | dir64 => exact h

namespace Image

open Memory

variable {image loaded : Image} {file : ByteArray} {updates : List Operation} {base : UInt64}

/-! ### The field of the base -/

/-- The field of the base, of four or of eight bytes. -/
def baseField (image : Image) : Set ℕ :=
  Set.Ico (image.dos.ntOffset.toNat + optionalStart + image.layout.imageBaseOffset)
    (image.dos.ntOffset.toNat + optionalStart + image.layout.imageBaseOffset +
      image.layout.addressSize)

/-- Where the field ends in front of the end of the address space, its address is no wrapped one. -/
lemma toNat_baseAddress (h : image.dos.ntOffset.toNat + optionalStart + 32 < 2 ^ 32) :
    image.baseAddress.toNat =
      image.dos.ntOffset.toNat + optionalStart + image.layout.imageBaseOffset := by
  have hoff : image.layout.imageBaseOffset ≤ 32 := by cases image.layout <;> decide
  have hlt : optionalStart + image.layout.imageBaseOffset < 2 ^ 32 :=
    lt_of_le_of_lt (Nat.add_le_add_left hoff _) (by decide)
  rw [baseAddress, UInt32.toNat_add, UInt32.toNat_ofNat_of_lt' hlt, Nat.add_assoc]
  exact Nat.mod_eq_of_lt (by omega)

/-- So it is where a move stores the base. -/
lemma baseStretch_eq_baseField (h : image.dos.ntOffset.toNat + optionalStart + 32 < 2 ^ 32) :
    image.baseStretch = image.baseField := by
  rw [baseStretch, baseField, toNat_baseAddress h]

/-- What lies behind the end of a buffer counts as zero. -/
lemma u32At_eq_zero {b : ByteArray} {off : ℕ} (h : b.size ≤ off) : u32At b off = 0 := by
  have hzero (i : ℕ) (hi : off ≤ i) : byteAt b i = 0 := byteAt_eq_zero (h.trans hi)
  simp only [u32At, natAt, Nat.add_assoc]
  rw [hzero _ le_rfl, hzero _ (by omega), hzero _ (by omega), hzero _ (by omega)]
  rfl

/-- The headers of a captured image without grave problems lie in the file, at least up to the
alignment of sections, which stands behind the base. -/
lemma headers_lt_size {config : Config} {captured : Image} {F : ByteArray}
    (hc : capture config file = (captured, .ok F)) (hg : ¬ captured.latch.Grave) :
    captured.dos.ntOffset.toNat + optionalStart + 32 < file.size := by
  have hsection : captured.optional.sectionAlignment =
      u32At file (captured.dos.ntOffset.toNat + optionalStart + 32) := by
    rw [optional_of_capture hc hg]
    rfl
  obtain ⟨-, -, halign⟩ := sizes_of_capture hc hg
  by_contra hout
  rw [hsection, u32At_eq_zero (Nat.le_of_not_lt hout)] at halign
  exact halign rfl

/-- So the headers of what is mapped lie in front of the end of the address space, and the size of
image is bounded. -/
lemma headers_of_load (h : image.load file = (loaded, .ok ())) (hp : loaded.pageCount ≠ 0) :
    loaded.dos.ntOffset.toNat + optionalStart + 32 < 2 ^ 32 ∧
      loaded.optional.sizeOfImage ≤ largestImage := by
  obtain ⟨captured, F, hc, hl⟩ := loaded_of_load h
  have hg := not_grave_of_isMappable (hl.isMappable_of_pageCount hp)
  obtain ⟨-, hsize, -⟩ := sizes_of_capture hc hg
  have hin := headers_lt_size hc hg
  have hmax : file.size ≤ 0xFFFFFFFF := size_le_of_capture hc
  have hfits : captured.dos.ntOffset.toNat + optionalStart + 32 < 2 ^ 32 := by omega
  rw [hl.frame]
  exact ⟨hfits, hsize⟩

/-! ### What may be touched -/

/-- The addresses that a move may change: the field of the base, and the bytes of the fixups that
the entries of the directory in the given memory spell. -/
def touched (image : Image) (m : Memory) : Set ℕ :=
  image.baseField ∪ {r | ∃ d f, image.relocationDirectory? = some d ∧
    image.Spells (m.read d.rva.toNat d.size.toNat) f ∧ r ∈ f.stretch}

/-- A move to a base changes nothing but what it may. -/
structure MovesWithin (image : Image) (base : UInt64) : Prop where
  /-- Of the headers only the base changes, and every page keeps its access. -/
  updatedFrom : UpdatedFrom (image.relocate base).1 image
  /-- No other byte changes, where the directory counts as it is after the base is stored. -/
  flat : ∀ r ∉ image.touched (image.storeBase base),
    (image.relocate base).1.memory.flat r = image.memory.flat r
  /-- If the base is not stored in the directory, the directory counts as it was before the move. -/
  touched_eq : Disjoint image.baseField image.directoryStretch →
    image.touched (image.storeBase base) = image.touched image.memory
  /-- In the first page only the field of the base changes. -/
  firstPage : ∀ r < pageSize, r ∉ image.baseField →
    (image.relocate base).1.memory.flat r = image.memory.flat r

/-- What a directory spells within an image of bounded size may be touched. -/
lemma stretch_subset_touched {m : Memory} {d : Directory} {f : Fixup}
    (hsize : image.optional.sizeOfImage ≤ largestImage) (hd : image.relocationDirectory? = some d)
    (hf : f ∈ (image.directoryFixups m d).1) : f.stretch ⊆ image.touched m :=
  fun _ hr => .inr ⟨d, f, hd, spells_of_mem hsize hf, hr⟩

/-- A fixup that a directory spells lies behind the first page. -/
lemma Spells.subset_Ici {directory : ByteArray} {f : Fixup} (h : image.Spells directory f) :
    f.stretch ⊆ Set.Ici pageSize := by
  obtain ⟨c, i, hspelled⟩ := h
  have htarget : pageSize ≤ f.target.toNat := by
    rw [hspelled.target]
    exact hspelled.heeded.pageSize_le.trans (Nat.le_add_right _ _)
  exact Fixup.stretch_subset_Ici (Fixup.pageSize_le htarget)

/-- Outside of the field only addresses behind the first page may be touched. -/
lemma pageSize_le_of_touched {m : Memory} {r : ℕ} (hr : r ∈ image.touched m)
    (hbase : r ∉ image.baseField) : pageSize ≤ r := by
  obtain ⟨d, f, -, hspells, hin⟩ := hr.resolve_left hbase
  exact hspells.subset_Ici hin

/-- **What a move may touch**, of an image with whole pages and headers within bounds. -/
theorem movesWithin (hm : image.memory.WellFormed)
    (hstart : image.dos.ntOffset.toNat + optionalStart + 32 < 2 ^ 32)
    (hsize : image.optional.sizeOfImage ≤ largestImage) (base : UInt64) :
    image.MovesWithin base := by
  have hfield := baseStretch_eq_baseField hstart
  have hflat : ∀ r ∉ image.touched (image.storeBase base),
      (image.relocate base).1.memory.flat r = image.memory.flat r := by
    refine (agree_relocate hm ?_ fun d hd f hf => ?_).flat
    · rw [hfield]
      exact Set.disjoint_compl_left_iff_subset.mpr Set.subset_union_left
    · exact Set.disjoint_compl_left_iff_subset.mpr (stretch_subset_touched hsize hd hf)
  constructor
  case updatedFrom => exact updatedFrom_relocate hm base
  case flat => exact hflat
  case touched_eq =>
    intro hs
    rw [← hfield] at hs
    -- the directory is read in front of the stored base and behind it, and nowhere else
    have hread (d : Directory) (hd : image.relocationDirectory? = some d) :
        (image.storeBase base).read d.rva.toNat d.size.toNat =
          image.memory.read d.rva.toNat d.size.toNat := by
      rw [directoryStretch_eq hd] at hs
      exact ((agree_storeBase hm base).mono hs.symm.subset_compl_right).read
        (wellFormed_storeBase hm base) hm subset_rfl
    refine congrArg (image.baseField ∪ ·) (Set.ext fun r => ?_)
    refine exists_congr fun d => exists_congr fun f => and_congr_right fun hd => ?_
    rw [hread d hd]
  case firstPage =>
    intro r hr hbase
    exact hflat r fun htouched => Nat.not_lt.mpr (pageSize_le_of_touched htouched hbase) hr

/-- **A move touches nothing but its targets**: after a load and any number of writes and moves, a
move to any base leaves, whether it succeeds or not, every byte as it is but for the field of the
base and the fixups that the entries of the directory spell. -/
theorem movesWithin_of_load (h : image.load file = (loaded, .ok ()))
    (hu : ∀ op ∈ updates, op.isUpdate = true) (hp : (loaded.run updates).pageCount ≠ 0)
    (base : UInt64) : (loaded.run updates).MovesWithin base := by
  have hreachable : Reachable loaded := by
    refine ⟨image.config, [.load .contents file], ?_⟩
    show (image.load file).1 = loaded
    rw [h]
  have hrun := updatedFrom_run hreachable hu
  rw [hrun.pageCount] at hp
  obtain ⟨hstart, hsize⟩ := headers_of_load h hp
  refine movesWithin (hreachable.run updates).allWhole ?_ ?_ base
  · rwa [hrun.frame]
  · rwa [hrun.frame]

/-- Moves back and forth, with the directory overwritten in between. -/
theorem movesWithin_kindsImage :
    (kindsImage.run [.relocate 0x10000000, .write 0x138 (zeros 4)]).MovesWithin 0x400000 := by
  have hload : (loadFile kindsFile).2 = .ok () ∧ kindsImage.pageCount ≠ 0 := by decide +kernel
  have hu : ∀ op ∈ [Operation.relocate 0x10000000, .write 0x138 (zeros 4)],
      op.isUpdate = true := by
    simp [Operation.isUpdate]
  refine movesWithin_of_load (load_empty_eq hload.1) hu ?_ 0x400000
  rw [(updatedFrom_run (reachable_loadFile kindsFile) hu).pageCount]
  exact hload.2

end Image

end PeImage
