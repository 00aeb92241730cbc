/-
Files that end too early.

A section has raw data behind the end of the file in one of two ways: the image does not load, or it
loads without the data. It is the last section that decides. The rules for it are spread over the
walk through the sections, where the last one that is declared is treated in its own way, and the
rules for the whole table behind that walk; and all sums are sums of words. But any sum that wraps
around is a problem of its own, which comes first.

* `Diagnostic.isOther`, `SectionHeader.EndsBehind`: all problems but these two, and what they are
  about;
* `Image.check_granularRules`: what one section leaves in the register, and
  `Image.verifyFrom_of_not_other`: what all of them do;
* `Image.verifySections_of_not_other`: what is behind the whole table;
* `Image.cut_of_loadHeaders`: which of the two problems a file has;
* `Image.cut_cutFile`: a file that cuts the data of a section that is not the last one.
-/
import PeImage.Proofs.AddedSection
import PeImage.Proofs.FailedLoad
import PeImage.Proofs.FlatLayout
import PeImage.Proofs.HeaderVerdict
import PeImage.Proofs.SectionCount

namespace PeImage

/-- Whether a problem is another one than that the file ends too early. -/
def Diagnostic.isOther (d : Diagnostic) : Bool := d != .fileIsCut && d != .fileIsCutLoadable

lemma Latch.check_singleton (violated : Bool) (d : Diagnostic) :
    ({} : Latch).check [(violated, d)] = if violated = true then ⟨some d⟩ else {} := by
  cases violated <;> rfl

namespace SectionHeader

variable {s : SectionHeader} {fileSize : ℕ}

/-- The section has raw data that ends behind the end of the file. -/
def EndsBehind (s : SectionHeader) (fileSize : ℕ) : Prop := s.rawSize ≠ 0 ∧ fileSize < s.fileEnd

instance (s : SectionHeader) (fileSize : ℕ) : Decidable (s.EndsBehind fileSize) :=
  inferInstanceAs (Decidable (_ ∧ _))

/-- A sum that is not smaller than the pointer has not wrapped around. -/
lemma toNat_rawPointer_add (h : ¬ s.dataEnd < s.dataPointer) (hr : s.rawSize ≠ 0) :
    (s.rawPointer + s.rawSize).toNat = s.fileEnd := by
  rw [dataEnd, dataPointer, if_pos hr, UInt32.lt_iff_toNat_lt, UInt32.toNat_add] at h
  have hp := s.rawPointer.toNat_lt
  have hs := s.rawSize.toNat_lt
  rw [fileEnd, UInt32.toNat_add]
  omega

/-- The test of the last section. -/
lemma endsBehind_iff (h : ¬ s.dataEnd < s.dataPointer) :
    (s.rawSize != 0 && decide ((s.rawPointer + s.rawSize).toNat > fileSize)) = true ↔
      s.EndsBehind fileSize := by
  rw [Bool.and_eq_true, bne_iff_ne, decide_eq_true_iff, EndsBehind]
  apply and_congr_right
  intro hr
  rw [toNat_rawPointer_add h hr]

/-- The test of any section does not look at those without a pointer. -/
lemma isCut_iff (h : ¬ s.dataEnd < s.dataPointer) :
    s.isCut fileSize = true ↔ s.rawPointer ≠ 0 ∧ s.EndsBehind fileSize := by
  rw [isCut, Bool.and_eq_true, bne_iff_ne, decide_eq_true_iff, EndsBehind, dataEnd]
  by_cases hr : s.rawSize = 0
  · simp [dataPointer, hr]
  · rw [dataPointer, if_pos hr, toNat_rawPointer_add h hr]
    tauto

end SectionHeader

namespace Image

open SectionHeader

variable {image : Image} {fileSize : ℕ}

/-! ### The sections -/

/-- **One section**: where no other problem is recorded, its sums are sums of numbers, and an empty
register tells whether it is the last section that ends behind the end of the file. -/
lemma check_granularRules {f : Frontier} {s : SectionHeader} {isLast : Bool}
    (h : ¬ (({} : Latch).check (image.granularRules fileSize f s isLast)).Holds
      Diagnostic.isOther) :
    ¬ s.dataEnd < s.dataPointer ∧
      ({} : Latch).check (image.granularRules fileSize f s isLast) =
        if isLast = true ∧ s.EndsBehind fileSize then ⟨some .fileIsCut⟩ else {} := by
  have hsplit : image.granularRules fileSize f s isLast =
      (image.granularRules fileSize f s isLast).take 6 ++
        [(isLast && s.rawSize != 0 && decide ((s.rawPointer + s.rawSize).toNat > fileSize),
          .fileIsCut)] := rfl
  rw [hsplit, Latch.check_append] at h ⊢
  obtain ⟨ho, he⟩ := Latch.check_of_not_holds (by simp [granularRules, Diagnostic.isOther])
    (Latch.not_holds_of_check h)
  have hsum : ¬ s.dataEnd < s.dataPointer := of_decide_eq_false (ho _ List.mem_cons_self)
  refine ⟨hsum, ?_⟩
  have htest : (isLast && s.rawSize != 0 &&
      decide ((s.rawPointer + s.rawSize).toNat > fileSize)) = true ↔
        isLast = true ∧ s.EndsBehind fileSize := by
    rw [Bool.and_assoc, Bool.and_eq_true, endsBehind_iff hsum]
  rw [he, Latch.check_singleton]
  exact if_congr htest rfl rfl

/-- **All sections**, up to the last one that is declared: where no other problem is recorded, their
sums are sums of numbers, and an empty register tells whether the last one ends behind the end of
the file. -/
lemma verifyFrom_of_not_other (hf : image.isFlat = false) {f : Frontier} {index : ℕ}
    {sections : List SectionHeader}
    (hcount : index + sections.length = image.file.sectionCount.toNat)
    (h : ¬ (image.verifyFrom fileSize {} f index sections).1.Holds Diagnostic.isOther) :
    (∀ s ∈ sections, ¬ s.dataEnd < s.dataPointer) ∧
      (image.verifyFrom fileSize {} f index sections).1 =
        if ∃ s ∈ sections.getLast?, s.EndsBehind fileSize then ⟨some .fileIsCut⟩ else {} := by
  induction sections generalizing f index with
  | nil => exact ⟨nofun, by simp [verifyFrom]⟩
  | cons s rest ih =>
      have hrules : image.sectionRules fileSize f s (index + 1 == image.file.sectionCount.toNat) =
          image.granularRules fileSize f s (index + 1 == image.file.sectionCount.toNat) := by
        simp [sectionRules, hf]
      rw [List.length_cons] at hcount
      simp only [verifyFrom, hrules] at h ⊢
      obtain ⟨hsum, hs⟩ := check_granularRules fun hl => h (holds_verifyFrom hl _ _ _)
      cases rest with
      | nil =>
          have hlast : (index + 1 == image.file.sectionCount.toNat) = true := beq_iff_eq.mpr hcount
          refine ⟨by simpa using hsum, ?_⟩
          rw [verifyFrom, hs, hlast]
          simp
      | cons s' rest' =>
          have hinner : (index + 1 == image.file.sectionCount.toNat) = false := by
            rw [List.length_cons] at hcount
            rw [beq_eq_false_iff_ne]
            omega
          rw [hinner] at hs h ⊢
          rw [hs, if_neg (by simp)] at h ⊢
          obtain ⟨hsums, hlatch⟩ := ih (by omega) h
          exact ⟨List.forall_mem_cons.mpr ⟨hsum, hsums⟩, by rw [hlatch, List.getLast?_cons_cons]⟩

/-! ### The table -/

/-- The last section ends behind the end of the file. -/
def CutsLast (image : Image) (fileSize : ℕ) : Prop :=
  ∃ s ∈ image.sections.getLast?, s.EndsBehind fileSize

/-- Some section that has a raw data pointer ends behind the end of the file. -/
def CutsSome (image : Image) (fileSize : ℕ) : Prop :=
  ∃ s ∈ image.sections, s.rawPointer ≠ 0 ∧ s.EndsBehind fileSize

instance (image : Image) (fileSize : ℕ) : Decidable (image.CutsLast fileSize) :=
  inferInstanceAs (Decidable (∃ s ∈ image.sections.getLast?, _))

instance (image : Image) (fileSize : ℕ) : Decidable (image.CutsSome fileSize) :=
  inferInstanceAs (Decidable (∃ s ∈ image.sections, _))

/-- Among sections of which one is cut, the last one is looked at once more. -/
lemma lastWithinFile_of_not_cutsLast (hsum : ∀ s ∈ image.sections, ¬ s.dataEnd < s.dataPointer)
    (hsome : image.CutsSome fileSize) (hlast : ¬ image.CutsLast fileSize) :
    lastWithinFile image.sections fileSize = true := by
  obtain ⟨t, ht, -⟩ := hsome
  obtain ⟨s, hs⟩ := List.getLast?_isSome.mpr (List.ne_nil_of_mem ht) |> Option.isSome_iff_exists.mp
  have hbehind : ¬ s.EndsBehind fileSize := fun h => hlast ⟨s, hs, h⟩
  rw [← endsBehind_iff (hsum s (List.mem_of_getLast? hs))] at hbehind
  rw [lastWithinFile, hs]
  by_cases hr : s.rawSize = 0
  · simp [hr]
  · simpa [hr, dataEnd, dataPointer] using hbehind

/-- The rules for the whole table find those sections that the walk does not. -/
lemma check_tableRules {f : Frontier} (hsum : ∀ s ∈ image.sections, ¬ s.dataEnd < s.dataPointer)
    (hlast : ¬ image.CutsLast fileSize)
    (h : ¬ (({} : Latch).check (image.tableRules fileSize f image.sections)).Holds
      Diagnostic.isOther) :
    ({} : Latch).check (image.tableRules fileSize f image.sections) =
      if image.CutsSome fileSize then ⟨some .fileIsCutLoadable⟩ else {} := by
  have hcut : (image.sections.any fun s => s.isCut fileSize) = true ↔ image.CutsSome fileSize := by
    rw [List.any_eq_true]
    exact exists_congr fun s => and_congr_right fun hs => isCut_iff (hsum s hs)
  have hconsumed : (image.config.sizeOfImageMustMatch && decide (f.free ≥ image.slack)) = false :=
    Bool.eq_false_iff.mpr fun hviolated =>
      h ⟨.sizeOfImageInvalid, by simp [tableRules, Latch.check, Latch.recordAny, hviolated], rfl⟩
  rw [tableRules, hconsumed]
  by_cases hsome : image.CutsSome fileSize
  · rw [hcut.mpr hsome, lastWithinFile_of_not_cutsLast hsum hsome hlast, if_pos hsome, Bool.or_true]
    rfl
  · rw [Bool.eq_false_iff.mpr (hcut.not.mpr hsome), if_neg hsome]
    rfl

/-- **The whole table**: where no other problem is recorded, the last section decides. -/
lemma verifySections_of_not_other (h0 : image.latch = {}) (hf : image.isFlat = false)
    (hcount : image.sections.length = image.file.sectionCount.toNat)
    (h : ¬ (image.verifySections fileSize).latch.Holds Diagnostic.isOther) :
    (image.verifySections fileSize).latch =
      if image.CutsLast fileSize then ⟨some .fileIsCut⟩
      else if image.CutsSome fileSize then ⟨some .fileIsCutLoadable⟩ else {} := by
  rw [verifySections_eq, h0] at h ⊢
  have hwalk := Latch.not_holds_of_check h
  have hheaders : ¬ (({} : Latch).check image.headerSizeRules).Holds Diagnostic.isOther := fun hl =>
    hwalk (holds_verifyFrom hl _ _ _)
  obtain ⟨-, hsize⟩ :=
    Latch.check_of_not_holds (by simp [headerSizeRules, Diagnostic.isOther]) hheaders
  rw [hsize] at h hwalk ⊢
  obtain ⟨hsum, hlatch⟩ := verifyFrom_of_not_other hf (by rwa [Nat.zero_add]) hwalk
  rw [hlatch] at h ⊢
  by_cases hlast : image.CutsLast fileSize
  · rw [if_pos hlast]
    exact congrArg (Latch.check · _) (if_pos hlast)
  · have hempty : (if ∃ s ∈ image.sections.getLast?, s.EndsBehind fileSize
        then (⟨some .fileIsCut⟩ : Latch) else {}) = {} := if_neg hlast
    rw [hempty] at h ⊢
    rw [if_neg hlast]
    exact check_tableRules hsum hlast h

/-! ### Captures -/

section

variable {config : Config} {captured nt : Image} {file F : ByteArray}

/-- The rules for the headers do not look at the end of the raw data. -/
lemma isOther_test (config : Config) (file : ByteArray) (start : ℕ) :
    ∀ r ∈ HeaderRule.all.map (HeaderRule.test config file start), r.2.isOther = true := by
  simp only [List.forall_mem_map]
  intro rule _
  cases rule <;> rfl

/-- The register of a section-granular image of which the file has the whole section table. -/
lemma latch_of_capture (h : capture config file = (captured, .ok F)) (hf : captured.isFlat = false)
    (htable : captured.tableOffset + captured.file.sectionCount.toNat * SectionHeader.size ≤
      file.size) (hother : ¬ captured.latch.Holds Diagnostic.isOther) :
    captured.sections.length = captured.file.sectionCount.toNat ∧
      captured.latch = if captured.CutsLast file.size then ⟨some .fileIsCut⟩
        else if captured.CutsSome file.size then ⟨some .fileIsCutLoadable⟩ else {} := by
  have hreads := readsTable_of_capture h
  have hlength : captured.sections.length = captured.file.sectionCount.toNat := by
    rw [hreads.length_eq, if_neg (by omega), min_eq_left]
    rw [SectionHeader.size] at htable ⊢
    omega
  refine ⟨hlength, ?_⟩
  obtain ⟨-, nt, hnt, ht⟩ := capture_ok h
  have hempty : nt.latch = {} := by
    have hheaders : ¬ nt.latch.Holds Diagnostic.isOther := fun hl =>
      hother (by simpa only [ht] using holds_captureSectionTable hl file)
    rw [latch_captureNtHeaders rfl hnt] at hheaders ⊢
    exact (Latch.check_of_not_holds (isOther_test _ _ _) hheaders).2
  have hsize := hreads.size_eq
  dsimp only [captureSectionTable] at ht
  split_ifs at ht with hout
  · obtain ⟨rfl, -⟩ := Prod.mk.inj ht
    have hin : nt.tableOffset ≤ file.size := le_trans (Nat.le_add_right _ _) htable
    exact absurd hin (Nat.not_le.mpr hout)
  · obtain ⟨rfl, rfl⟩ := Prod.mk.inj ht
    rw [← hsize]
    exact verifySections_of_not_other hempty hf hlength hother

/-- No section of a flat image keeps it from loading. -/
lemma not_cut_verifyFrom (hf : image.isFlat = true) {l : Latch} (hl : ¬ l.Holds (· == .fileIsCut))
    (f : Frontier) (index : ℕ) (sections : List SectionHeader) :
    ¬ (image.verifyFrom fileSize l f index sections).1.Holds (· == .fileIsCut) := by
  induction sections generalizing l f index with
  | nil => exact hl
  | cons s rest ih =>
      refine ih (Latch.not_holds_check hl ?_) _ _
      simp [sectionRules, hf, flatRules]

/-- Neither does its whole table. -/
lemma not_cut_verifySections (hf : image.isFlat = true)
    (hl : ¬ image.latch.Holds (· == .fileIsCut)) :
    ¬ (image.verifySections fileSize).latch.Holds (· == .fileIsCut) := by
  rw [verifySections_eq]
  have hsize : ¬ (image.latch.check image.headerSizeRules).Holds (· == .fileIsCut) :=
    Latch.not_holds_check hl (by simp [headerSizeRules])
  refine Latch.not_holds_check (not_cut_verifyFrom hf hsize _ _ _) ?_
  simp [tableRules, hf]

lemma not_cut_of_capture (h : capture config file = (captured, .ok F))
    (hf : captured.isFlat = true) : ¬ captured.latch.Holds (· == .fileIsCut) := by
  obtain ⟨-, nt, hnt, ht⟩ := capture_ok h
  have hempty : ¬ ({} : Latch).Holds (· == .fileIsCut) := by
    rintro ⟨d, hd, -⟩
    cases hd
  have hheaders : ¬ nt.latch.Holds (· == .fileIsCut) := by
    rw [latch_captureNtHeaders rfl hnt]
    refine Latch.not_holds_check hempty fun r hr _ => ?_
    have hother := isOther_test _ _ _ r hr
    simp only [Diagnostic.isOther, Bool.and_eq_true, bne_iff_ne] at hother
    exact beq_eq_false_iff_ne.mpr hother.1
  dsimp only [captureSectionTable] at ht
  split_ifs at ht
  · obtain ⟨rfl, -⟩ := Prod.mk.inj ht
    have hrule : ∀ r ∈ [(true, Diagnostic.sectionTableOutOfFile)], r.1 = true →
        (r.2 == .fileIsCut) = false := by simp
    exact Latch.not_holds_check hheaders hrule
  · obtain ⟨rfl, -⟩ := Prod.mk.inj ht
    exact not_cut_verifySections hf hheaders

/-- What remains of a file that does not load does not say that it is cut. -/
lemma first_ofFile_ne (file : ByteArray) : (Remains.ofFile file).latch.first ≠ some .fileIsCut := by
  rw [Remains.ofFile]
  split_ifs
  · simp
  · simp
  · cases hv : (DosHeader.ofBytes file).verify file.size with
    | ok =>
        dsimp only [Remains.ofUnsigned]
        split_ifs <;> simp
    | error cause =>
        rw [DosHeader.verify] at hv
        split_ifs at hv <;> cases hv <;> simp

end

/-! ### Loads -/

/-- **Files that end too early**: where nothing else is wrong with a section-granular image, and the
file has all of its section table, the last section decides whether it loads without the data that
is not there. A flat image always does. -/
theorem cut_of_loadHeaders (image : Image) (file : ByteArray) :
    let after := (image.loadHeaders file).1
    (pageSize ≤ after.optional.sectionAlignment.toNat →
      after.tableOffset + after.file.sectionCount.toNat * SectionHeader.size ≤ file.size →
      after.problem? ∈ [none, some .fileIsCut, some .fileIsCutLoadable] →
        after.sections.length = after.file.sectionCount.toNat ∧
          after.problem? = if after.CutsLast file.size then some .fileIsCut
            else if after.CutsSome file.size then some .fileIsCutLoadable else none) ∧
      (after.optional.sectionAlignment.toNat < pageSize → after.problem? ≠ some .fileIsCut) := by
  intro after
  have hafter : after = (capture image.config file).1 := fst_loadTo_headers image file
  cases hc : capture image.config file with
  | mk captured result =>
  rw [hc] at hafter
  rw [hafter]
  cases result with
  | error fault =>
      -- nothing but the problem is left of a file that does not load
      rw [eq_remains_of_capture hc]
      exact ⟨fun hsa => absurd (show pageSize ≤ 0 from hsa) (by decide),
        fun _ => first_ofFile_ne file⟩
  | ok F =>
      constructor
      · intro hsa htable hproblem
        have hother : ¬ captured.latch.Holds Diagnostic.isOther := by
          rintro ⟨d, hd, hk⟩
          rw [problem?, hd] at hproblem
          simp only [List.mem_cons, Option.some.injEq, List.not_mem_nil, or_false] at hproblem
          rcases hproblem with h | rfl | rfl
          · cases h
          · cases hk
          · cases hk
        obtain ⟨hlength, hlatch⟩ :=
          latch_of_capture hc (isFlat_eq_false_iff.mpr hsa) htable hother
        refine ⟨hlength, ?_⟩
        rw [problem?, hlatch]
        split_ifs <;> rfl
      · intro hsa hproblem
        exact not_cut_of_capture hc (isFlat_iff.mpr hsa) ⟨_, hproblem, rfl⟩

/-- Two sections with eight bytes of raw data each, at the given offsets in a file of 272 bytes. -/
def cutFile (first last : UInt32) : ByteArray :=
  smallFile 0x1000 0x3000
    [{ virtualSize := 0x1000, virtualAddress := 0x1000, rawSize := 8, rawPointer := first },
      { virtualSize := 0x1000, virtualAddress := 0x2000, rawSize := 8, rawPointer := last }]
    [1, 2, 3, 4, 5, 6, 7, 8]

/-- The data of the first section is cut, but not that of the last one. -/
theorem cut_cutFile :
    let after := ((empty (.ofVersion .generic)).loadHeaders (cutFile 265 264)).1
    ¬ after.CutsLast (cutFile 265 264).size ∧ after.CutsSome (cutFile 265 264).size ∧
      after.problem? = some .fileIsCutLoadable := by
  have hshown :
      let after := ((empty (.ofVersion .generic)).loadHeaders (cutFile 265 264)).1
      pageSize ≤ after.optional.sectionAlignment.toNat ∧
        after.tableOffset + after.file.sectionCount.toNat * SectionHeader.size ≤
          (cutFile 265 264).size ∧
        after.problem? ∈ [none, some .fileIsCut, some .fileIsCutLoadable] ∧
        ¬ after.CutsLast (cutFile 265 264).size ∧ after.CutsSome (cutFile 265 264).size := by
    decide +kernel
  generalize cutFile 265 264 = file at hshown ⊢
  obtain ⟨hsa, htable, hproblem, hlast, hsome⟩ := hshown
  obtain ⟨-, hcut⟩ := (cut_of_loadHeaders (empty (.ofVersion .generic)) file).1 hsa htable hproblem
  rw [if_neg hlast, if_pos hsome] at hcut
  exact ⟨hlast, hsome, hcut⟩

end Image

end PeImage
