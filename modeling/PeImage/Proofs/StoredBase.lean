/-
The base of an image, and where it is stored.

A narrow image stores its base in four bytes, so it has no base of more than 32 bits. A load reads
it that way, a move makes sure of it, and no edit changes either the base or the layout.

* `Image.baseStretch`, `Image.FitsBase`: where the base is stored, and which bases can be;
* `Image.isRelocatable_iff`: of a new base, only that counts for whether an image may be moved;
* `Image.optional_loadTo`, `Image.optional_capture`: the optional header that a load leaves;
* `Image.Reachable.fitsBase`: the base of every reachable image can be stored.
-/
import PeImage.Proofs.History

namespace PeImage

namespace Image

variable {image : Image}

/-- The addresses of the stored base. -/
def baseStretch (image : Image) : Set ℕ :=
  Set.Ico image.baseAddress.toNat (image.baseAddress.toNat + image.layout.addressSize)

/-- The base is one that the headers of the image can store. -/
def FitsBase (image : Image) (base : UInt64) : Prop :=
  image.layout = .narrow → base.toNat < 2 ^ 32

/-- Of the base, only its size counts for whether an image may be moved there. -/
lemma isRelocatable_iff (base : UInt64) :
    image.isRelocatable base = true ↔ image.isRelocatable 0 = true ∧ image.FitsBase base := by
  have hshift (b : UInt64) : b >>> 32 = 0 ↔ b.toNat < 2 ^ 32 := by
    rw [← UInt64.toNat_inj, UInt64.toNat_shiftRight, Nat.shiftRight_eq_div_pow]
    show b.toNat / 2 ^ 32 = 0 ↔ _
    omega
  simp only [isRelocatable, FitsBase, Bool.and_eq_true, Bool.not_eq_true', Bool.and_eq_false_iff,
    beq_eq_false_iff_ne, bne_eq_false_iff_eq, ← hshift, ne_eq]
  simp only [UInt64.zero_shiftRight, or_true, and_true, and_congr_right_iff]
  exact fun _ => imp_iff_not_or.symm

/-- A load leaves the optional header that was captured. -/
lemma optional_loadTo (image : Image) (extent : Extent) (file : ByteArray) :
    (image.loadTo extent file).1.optional = (capture image.config file).1.optional := by
  rw [loadTo_frame]

/-- The captured optional header is the one that the file spells, in the layout that it names, or
none at all. -/
lemma optional_capture (config : Config) (file : ByteArray) :
    (capture config file).1.optional = {} ∨ ∃ off,
      (capture config file).1.optional = OptionalHeader.ofBytes (layoutAt file off) file off := by
  have hnt (image : Image) (h : image.optional = {}) :
      (image.captureNtHeaders file).1.optional = {} ∨ ∃ off,
        (image.captureNtHeaders file).1.optional =
          OptionalHeader.ofBytes (layoutAt file off) file off := by
    dsimp only [captureNtHeaders]
    split_ifs
    · exact .inl h
    · exact .inl h
    · exact .inl h
    · exact .inr ⟨_, rfl⟩
  dsimp only [capture]
  split_ifs
  · exact .inl rfl
  · exact .inl rfl
  · split
    · exact .inl rfl
    · have hcaptured := hnt { empty config with dos := DosHeader.ofBytes file } rfl
      split
      · next he =>
        rw [he] at hcaptured
        exact hcaptured
      · next he =>
        rw [he] at hcaptured
        dsimp only
        rw [captureSectionTable_frame]
        exact hcaptured

/-- A header that is read in the narrow layout has a base of four bytes. -/
lemma imageBase_lt_of_narrow (file : ByteArray) (off : ℕ)
    (h : (OptionalHeader.ofBytes (layoutAt file off) file off).layout = .narrow) :
    (OptionalHeader.ofBytes (layoutAt file off) file off).imageBase.toNat < 2 ^ 32 := by
  have hnarrow : layoutAt file off = .narrow := by
    rw [layoutAt]
    split_ifs with hw
    · -- a wide header names its layout
      rw [layoutAt, if_pos hw, OptionalHeader.layout] at h
      have hmagic : (OptionalHeader.ofBytes .wide file off).magic = Layout.wide.magic := hw.2
      rw [if_pos hmagic] at h
      cases h
    · rfl
  rw [hnarrow]
  have hlt : natAt file (off + Layout.narrow.imageBaseOffset) 4 < 2 ^ 32 := natAt_lt _ _ 4
  show (UInt64.ofNat (natAt file (off + Layout.narrow.imageBaseOffset) 4)).toNat < 2 ^ 32
  rw [UInt64.toNat_ofNat_of_lt' (lt_of_lt_of_le hlt (by decide))]
  exact hlt

/-- A move leaves a base that fits. -/
lemma fitsBase_relocate (h : image.FitsBase image.optional.imageBase) (base : UInt64) :
    (image.relocate base).1.FitsBase (image.relocate base).1.optional.imageBase := by
  rcases image.relocate_frame base with hmove | ⟨hr, pages, hmove⟩
  · rw [hmove]
    exact h
  · rw [hmove]
    exact ((isRelocatable_iff base).mp hr).2

/-- **The base of a narrow image has 32 bits**, whatever was done to it. -/
theorem Reachable.fitsBase (h : Reachable image) : image.FitsBase image.optional.imageBase := by
  have hblank : ({} : OptionalHeader).imageBase.toNat < 2 ^ 32 := by decide
  refine h.invariant (P := fun image => image.FitsBase image.optional.imageBase) ?empty ?load ?write
    ?relocate ?edit
  case empty => exact fun _ _ _ => hblank
  case load =>
    intro image extent file
    rw [FitsBase, layout, optional_loadTo]
    intro hl
    rcases optional_capture image.config file with h0 | ⟨off, h0⟩
    · rw [h0]
      exact hblank
    · rw [h0] at hl ⊢
      exact imageBase_lt_of_narrow file off hl
  case write =>
    intro image a src ih
    rw [write_frame]
    exact ih
  case relocate => exact fun _ base ih => fitsBase_relocate ih base
  case edit =>
    intro image edited hedit ih
    rw [FitsBase, hedit.layout, hedit.imageBase]
    exact ih

end Image

end PeImage
