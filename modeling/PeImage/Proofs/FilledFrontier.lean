/-
Sections that fill what the headers leave of an image, and what the rules say of them.

The rules count pages from the end of the headers on. Where the sections take exactly the pages that
are left, none is left behind the last one, so that the rules have nothing to say of the memory.
What they may say of the raw data they say only where some of it lies outside of the file.

* `Frontier.Filled`: sections take exactly what a frontier leaves; `Frontier.Filled.advance` is the
  step over one section, and `Frontier.Filled.foldl_advance` all of them;
* `SectionHeader.DataWithin`: raw data with nothing to say about;
* `Image.violated_granularRules`, `Image.first_verifyFrom`, `Image.violated_tableRules`: what a
  section, all sections and the whole table can violate;
* `Image.problem?_verifySections`: so the rules for a filled table, under every version.
-/
import PeImage.Proofs.AddedSection
import PeImage.Proofs.GranularLayout

namespace PeImage

open SectionHeader

/-! ### The frontier -/

/-- Sections tile the memory from the frontier on, and take exactly the pages that it leaves. -/
structure Frontier.Filled (f : Frontier) (alignment : UInt32) (sections : List SectionHeader) :
    Prop where
  tiles : Tiles (·.extent alignment) f.next sections
  free_eq : f.free.toNat * pageSize = Tiles.total (·.extent alignment) sections
  pageSize_le : pageSize ≤ f.next
  end_lt : f.next + Tiles.total (·.extent alignment) sections < UInt32.size

namespace Frontier.Filled

variable {image : Image} {f : Frontier} {s : SectionHeader} {rest sections : List SectionHeader}

/-- **One section**: it begins at the frontier, there are pages for it, and behind it the others
fill what is left. -/
lemma advance (hf : image.isFlat = false)
    (hsa : image.optional.sectionAlignment.toNat.isPowerOfTwo)
    (h : f.Filled image.optional.sectionAlignment (s :: rest)) :
    s.virtualAddress.toNat = f.next ∧
      s.pagesTaken image.optional.sectionAlignment ≤ f.free ∧
      (image.advance f s).next = f.next + s.extent image.optional.sectionAlignment ∧
      (image.advance f s).Filled image.optional.sectionAlignment rest := by
  obtain ⟨⟨haddress, htiles⟩, hfree, hpage, hend⟩ := h
  rw [Tiles.total_cons] at hfree hend
  have hcounted := counted_of_lt hsa (Image.isFlat_eq_false_iff.mp hf)
    (show s.extent image.optional.sectionAlignment < UInt32.size by omega)
  have htaken : s.pagesTaken image.optional.sectionAlignment ≤ f.free := by
    rw [UInt32.le_iff_toNat_le]
    refine Nat.le_of_mul_le_mul_right ?_ pageSize_pos
    rw [hfree]
    exact hcounted.le.trans (Nat.le_add_right _ _)
  obtain ⟨hnext, hsum⟩ := Image.next_add_free_advance hf htaken
  rw [hcounted] at hnext
  refine ⟨haddress, htaken, hnext, ⟨?_, ?_, ?_, ?_⟩⟩
  · rwa [hnext]
  · omega
  · omega
  · omega

/-- The size of such a section leaves room for a page, which the frontier is behind. -/
lemma lt_add_page (hsa : image.optional.sectionAlignment.toNat.isPowerOfTwo)
    (h : f.Filled image.optional.sectionAlignment (s :: rest)) :
    s.effectiveSize < s.effectiveSize + (pageSize32 - 1) := by
  have hextent := le_roundUp (Nat.pos_of_isPowerOfTwo hsa) s.effectiveSize.toNat
  have hpage := h.pageSize_le
  have hend := h.end_lt
  rw [Tiles.total_cons, extent] at hend
  have hone : (pageSize32 - 1).toNat = 4095 := rfl
  have hunit : pageSize = 4096 := rfl
  have hsize : UInt32.size = 2 ^ 32 := rfl
  rw [UInt32.lt_iff_toNat_lt, UInt32.toNat_add, hone]
  omega

/-- **All sections**: no page is left behind the last one. -/
lemma foldl_advance (hf : image.isFlat = false)
    (hsa : image.optional.sectionAlignment.toNat.isPowerOfTwo)
    (h : f.Filled image.optional.sectionAlignment sections) :
    sections.foldl image.advance f =
      ⟨f.next + Tiles.total (·.extent image.optional.sectionAlignment) sections, 0⟩ := by
  induction sections generalizing f with
  | nil =>
      have hfree : f.free = 0 := UInt32.toNat_inj.mp
        ((Nat.mul_eq_zero.mp h.free_eq).resolve_right (by decide))
      cases f
      rw [← hfree]
      rfl
  | cons s rest ih =>
      obtain ⟨-, -, hnext, hrest⟩ := h.advance hf hsa
      rw [List.foldl_cons, ih hrest, hnext, Tiles.total_cons, Nat.add_assoc]

end Frontier.Filled

/-! ### What the rules say of raw data -/

/-- Whether a problem is about the place of raw data in the file. -/
def Diagnostic.isAboutData (d : Diagnostic) : Bool :=
  d == .rawDataOverflow || d == .sectionRawSizeInvalid || d == .fileIsCut ||
    d == .fileIsCutLoadable

namespace SectionHeader

/-- The raw data of a section, if it has any, lies in a file of `fileSize` bytes, and its end can be
rounded up. -/
def DataWithin (fileAlignment : UInt32) (fileSize : ℕ) (s : SectionHeader) : Prop :=
  s.rawSize ≠ 0 → s.fileEnd ≤ fileSize ∧ roundUp s.fileEnd fileAlignment.toNat < UInt32.size

variable {fileAlignment : UInt32} {fileSize : ℕ} {s : SectionHeader}

/-- Neither the end of such data nor its rounded end wraps, and the file goes as far. -/
lemma DataWithin.dataEnd (hfa : fileAlignment.toNat.isPowerOfTwo)
    (h : s.DataWithin fileAlignment fileSize) :
    s.dataPointer ≤ s.dataEnd ∧ s.dataEnd.toNat ≤ fileSize ∧
      s.dataPointer ≤ alignUp s.dataEnd fileAlignment := by
  by_cases hr : s.rawSize = 0
  · have hp : s.dataPointer = 0 := if_neg (not_not.mpr hr)
    rw [SectionHeader.dataEnd, hp, hr]
    exact ⟨UInt32.zero_le, Nat.zero_le _, UInt32.zero_le⟩
  · obtain ⟨hfile, hround⟩ := h hr
    have hp : s.dataPointer = s.rawPointer := if_pos hr
    have hend : s.dataEnd.toNat = s.fileEnd := by
      rw [SectionHeader.dataEnd, hp, UInt32.toNat_add]
      exact Nat.mod_eq_of_lt (Image.lt_size_of_roundUp hfa hround)
    have hstart : s.dataPointer.toNat ≤ s.fileEnd := by
      rw [hp]
      exact Nat.le_add_right _ _
    refine ⟨?_, hend.trans_le hfile, ?_⟩
    · rwa [UInt32.le_iff_toNat_le, hend]
    · rw [UInt32.le_iff_toNat_le, toNat_alignUp_of_lt hfa (by rwa [hend]), hend]
      exact hstart.trans (le_roundUp (Nat.pos_of_isPowerOfTwo hfa) _)

end SectionHeader

/-! ### The rules -/

namespace Image

variable {image : Image} {fileSize : ℕ} {f : Frontier} {s : SectionHeader}
  {rest sections : List SectionHeader}

/-- A problem is about raw data, and some of it is not within the file. -/
def OnlyData (image : Image) (fileSize : ℕ) (sections : List SectionHeader) (d : Diagnostic) :
    Prop :=
  d.isAboutData = true ∧
    ∃ s ∈ sections, ¬ s.DataWithin image.optional.fileAlignment fileSize

/-- The rules for a section that begins at the frontier and has its pages there: a violated one is
about raw data. -/
lemma violated_granularRules (hf : image.isFlat = false)
    (hsa : image.optional.sectionAlignment.toNat.isPowerOfTwo)
    (hfa : image.optional.fileAlignment.toNat.isPowerOfTwo)
    (h : f.Filled image.optional.sectionAlignment (s :: rest)) (hpos : s.effectiveSize ≠ 0)
    {isLast : Bool} {r : Bool × Diagnostic}
    (hr : r ∈ image.granularRules fileSize f s isLast) (hv : r.1 = true) :
    r.2.isAboutData = true ∧ ¬ s.DataWithin image.optional.fileAlignment fileSize := by
  obtain ⟨haddress, htaken, -, -⟩ := h.advance hf hsa
  simp only [granularRules, List.mem_cons, List.not_mem_nil, or_false] at hr
  rcases hr with rfl | rfl | rfl | rfl | rfl | rfl | rfl
  case inl =>
    refine ⟨rfl, fun hd => ?_⟩
    exact absurd (hd.dataEnd hfa).1 (UInt32.not_le.mpr (of_decide_eq_true hv))
  case inr.inl =>
    exact absurd haddress.symm (bne_iff_ne.mp hv)
  case inr.inr.inl =>
    exact absurd (beq_iff_eq.mp hv) hpos
  case inr.inr.inr.inl =>
    simp only [decide_eq_true_iff] at hv
    exact absurd (h.lt_add_page hsa) (UInt32.not_lt.mpr hv)
  case inr.inr.inr.inr.inl =>
    exact absurd htaken (UInt32.not_le.mpr (of_decide_eq_true hv))
  case inr.inr.inr.inr.inr.inl =>
    refine ⟨rfl, fun hd => ?_⟩
    exact absurd (hd.dataEnd hfa).2.2 (UInt32.not_le.mpr (of_decide_eq_true hv))
  case inr.inr.inr.inr.inr.inr =>
    refine ⟨rfl, fun hd => ?_⟩
    simp only [Bool.and_eq_true, bne_iff_ne, decide_eq_true_iff] at hv
    obtain ⟨⟨-, hraw⟩, hcut⟩ := hv
    have hend := (hd.dataEnd hfa).2.1
    rw [SectionHeader.dataEnd, show s.dataPointer = s.rawPointer from if_pos hraw] at hend
    exact absurd hend (Nat.not_le.mpr hcut)

/-- The rules for sections that fill what a frontier leaves, one after the other. -/
lemma first_verifyFrom (hf : image.isFlat = false)
    (hsa : image.optional.sectionAlignment.toNat.isPowerOfTwo)
    (hfa : image.optional.fileAlignment.toNat.isPowerOfTwo)
    (hpos : ∀ s ∈ sections, s.effectiveSize ≠ 0)
    (h : f.Filled image.optional.sectionAlignment sections) {l : Latch} {index : ℕ}
    {d : Diagnostic} (hd : (image.verifyFrom fileSize l f index sections).1.first = some d) :
    l.first = some d ∨ image.OnlyData fileSize sections d := by
  induction sections generalizing f l index with
  | nil => exact .inl hd
  | cons s rest ih =>
      rw [List.forall_mem_cons] at hpos
      obtain ⟨-, -, -, hrest⟩ := h.advance hf hsa
      obtain hfirst | ⟨habout, t, ht, hdata⟩ := ih hpos.2 hrest hd
      · obtain hl | ⟨r, hr, hv, rfl⟩ := Latch.first_check_eq_some hfirst
        · exact .inl hl
        · rw [sectionRules, hf] at hr
          obtain ⟨habout, hdata⟩ := violated_granularRules hf hsa hfa h hpos.1 hr hv
          exact .inr ⟨habout, s, List.mem_cons_self, hdata⟩
      · exact .inr ⟨habout, t, List.mem_cons_of_mem s ht, hdata⟩

/-- The sections may always use up the size of image. -/
lemma slack_pos (hf : image.isFlat = false) : 0 < image.slack := by
  have hle := isFlat_eq_false_iff.mp hf
  have hunit : pageSize32.toNat = pageSize := rfl
  simp only [slack, hf, Bool.false_eq_true, if_false]
  rw [UInt32.lt_iff_toNat_lt, UInt32.toNat_div, hunit, UInt32.toNat_zero]
  exact Nat.div_pos hle pageSize_pos

/-- The rules for the whole table, when no page is left behind the last section. -/
lemma violated_tableRules (hf : image.isFlat = false)
    (hfa : image.optional.fileAlignment.toNat.isPowerOfTwo) (hfree : f.free = 0)
    {r : Bool × Diagnostic} (hr : r ∈ image.tableRules fileSize f sections) (hv : r.1 = true) :
    image.OnlyData fileSize sections r.2 := by
  -- both cuts need a section of which the end of the file cuts the raw data
  have hcut (hany : (sections.any fun s => s.isCut fileSize) = true) :
      ∃ s ∈ sections, ¬ s.DataWithin image.optional.fileAlignment fileSize := by
    obtain ⟨s, hs, hc⟩ := List.any_eq_true.mp hany
    refine ⟨s, hs, fun hd => ?_⟩
    rw [isCut, Bool.and_eq_true, decide_eq_true_iff] at hc
    exact absurd (hd.dataEnd hfa).2.1 (Nat.not_le.mpr hc.2)
  simp only [tableRules, List.mem_cons, List.not_mem_nil, or_false] at hr
  rcases hr with rfl | rfl | rfl
  case inl =>
    rw [Bool.and_eq_true, decide_eq_true_iff, hfree] at hv
    exact absurd (slack_pos hf) (UInt32.not_lt.mpr hv.2)
  case inr.inl => exact ⟨rfl, hcut (Bool.and_eq_true_iff.mp hv).1⟩
  case inr.inr => exact ⟨rfl, hcut (Bool.and_eq_true_iff.mp hv).1⟩

/-- **What the rules say of a filled table**: nothing, unless some raw data is not within the
file. -/
theorem problem?_verifySections (hf : image.isFlat = false)
    (hsa : image.optional.sectionAlignment.toNat.isPowerOfTwo)
    (hfa : image.optional.fileAlignment.toNat.isPowerOfTwo) (hlatch : image.latch = {})
    (hheaders : Obeyed image.headerSizeRules)
    (hpos : ∀ s ∈ image.sections, s.effectiveSize ≠ 0)
    (h : image.firstFrontier.Filled image.optional.sectionAlignment image.sections)
    {d : Diagnostic} (hd : (image.verifySections fileSize).problem? = some d) :
    image.OnlyData fileSize image.sections d := by
  rw [verifySections_eq, hlatch, Latch.check_of_obeyed hheaders] at hd
  obtain hsections | ⟨r, hr, hv, rfl⟩ := Latch.first_check_eq_some hd
  · exact (first_verifyFrom hf hsa hfa hpos h hsections).resolve_left nofun
  · have hfree : image.lastFrontier.free = 0 := by
      rw [lastFrontier, h.foldl_advance hf hsa]
    exact violated_tableRules hf hfa hfree hr hv

end Image

end PeImage
