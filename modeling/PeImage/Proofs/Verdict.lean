/-
What the register of problems says about the rules behind it.

The register keeps the first problem, so one that is free of grave problems at the end was so at
every step, and each rule that stands for a grave problem was obeyed.

* `Latch.Holds`: a register with a problem of some kind, which it keeps;
* `Diagnostic.isGrave`, `Latch.Grave`: the problems that no captured image can have and be mapped;
* `Obeyed`: a list of rules without a violation; `Latch.check_of_not_holds`: the rules for problems
  of a kind that a register without one of that kind has been through were obeyed;
* `Image.SectionsObey`: the rules of one section after the other, from a frontier on;
* `Image.Obeys`: all rules of a section-granular image;
* `Image.headers_of_capture`: capturing leaves an image without grave problems only if its headers
  obey their rules, and `Image.obeys_of_capture`: a section-granular image only if it obeys all
  rules.
-/
import PeImage.Image.Load
import Mathlib

namespace PeImage

/-- Whether a problem keeps an image from being mapped. A harmless cut does not, and neither does a
flat image whose sections lie elsewhere in memory than in the file. -/
def Diagnostic.isGrave (d : Diagnostic) : Bool :=
  d != .fileIsCutLoadable && d != .flatLayoutMismatch

/-- No rule of the list is violated. -/
def Obeyed (rules : List (Bool × Diagnostic)) : Prop := ∀ r ∈ rules, r.1 = false

/-! ### The register -/

namespace Latch

variable {l : Latch} {rules : List (Bool × Diagnostic)} {kind : Diagnostic → Bool}

/-- The register holds a problem of the kind. -/
def Holds (kind : Diagnostic → Bool) (l : Latch) : Prop := ∃ d, l.first = some d ∧ kind d = true

/-- A problem stays. -/
lemma Holds.check (h : l.Holds kind) (rules : List (Bool × Diagnostic)) :
    (l.check rules).Holds kind := by
  obtain ⟨d, hd, hk⟩ := h
  cases l with
  | mk first =>
      cases hd
      exact ⟨d, rfl, hk⟩

lemma not_holds_of_check (h : ¬ (l.check rules).Holds kind) : ¬ l.Holds kind := by
  intro hl
  exact h (hl.check rules)

/-- What a check records is a violated rule, unless something is recorded before. -/
lemma first_check_eq_some {d : Diagnostic}
    (h : (l.check rules).first = some d) :
    l.first = some d ∨ ∃ r ∈ rules, r.1 = true ∧ r.2 = d := by
  cases l with
  | mk first =>
      cases first with
      | some e => exact .inl h
      | none =>
          obtain ⟨r, hr, rfl⟩ := Option.map_eq_some_iff.mp h
          exact .inr ⟨r, List.mem_of_find?_eq_some hr, List.find?_some hr, rfl⟩

/-- A problem of a kind only comes from a violated rule for it. -/
lemma not_holds_check (hl : ¬ l.Holds kind) (hr : ∀ r ∈ rules, r.1 = true → kind r.2 = false) :
    ¬ (l.check rules).Holds kind := by
  rintro ⟨d, hd, hk⟩
  obtain hfirst | ⟨r, hmem, hviolated, rfl⟩ := first_check_eq_some hd
  · exact hl ⟨d, hfirst, hk⟩
  · rw [hr r hmem hviolated] at hk
    cases hk

/-- The register holds a problem that keeps the image from being mapped. -/
def Grave (l : Latch) : Prop := ∃ d, l.first = some d ∧ d.isGrave = true

/-- Recording a grave problem leaves a grave problem, unless a harmless one is kept. -/
lemma grave_record_of_empty {d : Diagnostic} (h : d.isGrave = true) :
    (({} : Latch).record d).Grave := ⟨d, rfl, h⟩

lemma not_grave_of_check (h : ¬ (l.check rules).Grave) : ¬ l.Grave := not_holds_of_check h

lemma check_of_obeyed (h : Obeyed rules) (l : Latch) : l.check rules = l := by
  have hn : rules.find? (·.1) = none := by
    rw [List.find?_eq_none]
    intro r hr
    simp [h r hr]
  cases l with
  | mk first => cases first <;> simp [check, recordAny, hn]

/-- Rules for problems of a kind that leave an empty register without one were obeyed. -/
lemma check_of_not_holds (hr : ∀ r ∈ rules, kind r.2 = true)
    (h : ¬ (({} : Latch).check rules).Holds kind) :
    Obeyed rules ∧ ({} : Latch).check rules = {} := by
  have ho : Obeyed rules := by
    cases hfind : rules.find? (·.1) with
    | none =>
        intro r hmem
        simpa using List.find?_eq_none.mp hfind r hmem
    | some r =>
        exact absurd ⟨r.2, by simp [check, recordAny, hfind],
          hr r (List.mem_of_find?_eq_some hfind)⟩ h
  exact ⟨ho, check_of_obeyed ho _⟩

lemma check_of_not_grave (hr : ∀ r ∈ rules, r.2.isGrave = true)
    (h : ¬ (({} : Latch).check rules).Grave) : Obeyed rules ∧ ({} : Latch).check rules = {} :=
  check_of_not_holds hr h

/-- An image that loads has no grave problem. -/
lemma not_grave_of_isLoadable (h : l.isLoadable = true) : ¬ l.Grave := by
  rintro ⟨d, hd, hg⟩
  rcases (isLoadable_iff l).mp h with hn | hc
  · simp [hn] at hd
  · rw [hc] at hd
    cases hd
    exact absurd hg (by decide)

end Latch

/-- An optional header with the magic number of a file that goes on is of the layout that was read
there. -/
lemma OptionalHeader.layout_ofBytes {file : ByteArray} {off : ℕ} (h : off + 2 < file.size) :
    (OptionalHeader.ofBytes (Image.layoutAt file off) file off).layout =
      Image.layoutAt file off := by
  rw [layout, Image.layoutAt]
  exact if_congr (and_iff_right h).symm rfl rfl

namespace Image

/-- An image with such a header is of that layout, too. -/
lemma layout_eq_layoutAt {image : Image} {file : ByteArray} {off : ℕ}
    (ho : image.optional = .ofBytes (layoutAt file off) file off) (h : off + 2 < file.size) :
    image.layout = layoutAt file off := by
  rw [layout, ho]
  exact OptionalHeader.layout_ofBytes h

/-- Neither has one that is to be mapped. -/
lemma not_grave_of_isMappable {image : Image} (h : image.isMappable = true) :
    ¬ image.latch.Grave := by
  rw [isMappable, Bool.or_eq_true] at h
  rcases h with hl | hm
  · exact Latch.not_grave_of_isLoadable hl
  · rintro ⟨d, hd, hg⟩
    rw [Bool.and_eq_true, beq_iff_eq, problem?, hd] at hm
    cases hm.2
    exact absurd hg (by decide)

/-! ### The headers -/

/-- What a capture of the NT headers that does not fail can do: it stops in front of the signature
of a file too short for complete headers, or it goes through all steps. -/
lemma captureNtHeaders_ok {image nt : Image} {file : ByteArray}
    (h : image.captureNtHeaders file = (nt, .ok ())) :
    nt = image.record .headersOutOfFile ∨
      nt = (({ image with ntSignature := u32At file image.dos.ntOffset.toNat }.captureFileHeader
        file image.dos.ntOffset.toNat).captureOptionalHeader file
          (image.dos.ntOffset.toNat + optionalStart)).verifyHeaders := by
  dsimp only [captureNtHeaders] at h
  split_ifs at h
  · exact .inl (Prod.mk.inj h).1.symm
  · cases (Prod.mk.inj h).2
  · cases (Prod.mk.inj h).2
  · exact .inr (Prod.mk.inj h).1.symm

/-- The NT headers of an image without grave problems obey all rules, and nothing at all is
recorded. -/
lemma captureNtHeaders_obeyed {image nt : Image} {file : ByteArray} (h0 : image.latch = {})
    (h : image.captureNtHeaders file = (nt, .ok ())) (hg : ¬ nt.latch.Grave) :
    nt.latch = {} ∧ Obeyed nt.headerRules := by
  rcases captureNtHeaders_ok h with rfl | rfl
  · refine absurd ?_ hg
    rw [record, h0]
    exact Latch.grave_record_of_empty rfl
  · -- three lists of rules, one behind the other; the last register is free of grave problems
    have h2 := Latch.not_grave_of_check hg
    have h1 := Latch.not_grave_of_check h2
    simp only [captureFileHeader, h0] at h1
    have e1 := (Latch.check_of_not_grave (by simp [Diagnostic.isGrave]) h1).2
    simp only [captureOptionalHeader, captureFileHeader, h0, e1] at h2
    have e2 := (Latch.check_of_not_grave (by simp [Diagnostic.isGrave]) h2).2
    simp only [verifyHeaders, captureOptionalHeader, captureFileHeader, h0, e1, e2] at hg
    have e3 := Latch.check_of_not_grave (by simp [headerRules, Diagnostic.isGrave]) hg
    simp only [verifyHeaders, captureOptionalHeader, captureFileHeader, h0, e1, e2]
    exact e3.symm

/-! ### The sections -/

/-- Sections of which the first has position `index` and begins at `f` obey their rules. -/
def SectionsObey (image : Image) (fileSize : ℕ) : Frontier → ℕ → List SectionHeader → Prop
  | _, _, [] => True
  | f, index, s :: rest =>
      Obeyed (image.sectionRules fileSize f s (index + 1 == image.file.sectionCount.toNat)) ∧
        SectionsObey image fileSize (image.advance f s) (index + 1) rest

/-- The rules do not look at the register. -/
lemma sectionsObey_latch (image : Image) (l : Latch) (fileSize : ℕ) (f : Frontier) (index : ℕ)
    (sections : List SectionHeader) :
    { image with latch := l }.SectionsObey fileSize f index sections ↔
      image.SectionsObey fileSize f index sections := by
  induction sections generalizing f index with
  | nil => exact Iff.rfl
  | cons s rest ih => exact and_congr_right fun _ => ih _ _

/-- The frontier behind all sections. -/
def lastFrontier (image : Image) : Frontier :=
  image.sections.foldl image.advance image.firstFrontier

section

variable {image : Image} {fileSize : ℕ}

/-- How far the memory is taken does not depend on the register. -/
lemma verifyFrom_snd (l : Latch) (f : Frontier) (index : ℕ) (sections : List SectionHeader) :
    (image.verifyFrom fileSize l f index sections).2 = sections.foldl image.advance f := by
  induction sections generalizing l f index with
  | nil => rfl
  | cons s rest ih => exact ih _ _ _

/-- A problem stays while sections are verified. -/
lemma holds_verifyFrom {l : Latch} {kind : Diagnostic → Bool} (h : l.Holds kind) (f : Frontier)
    (index : ℕ) (sections : List SectionHeader) :
    (image.verifyFrom fileSize l f index sections).1.Holds kind := by
  induction sections generalizing l f index with
  | nil => exact h
  | cons s rest ih => exact ih (h.check _) _ _

lemma grave_verifyFrom {l : Latch} (h : l.Grave) (f : Frontier) (index : ℕ)
    (sections : List SectionHeader) :
    (image.verifyFrom fileSize l f index sections).1.Grave := holds_verifyFrom h f index sections

/-- Every rule for a section of a section-granular image stands for a grave problem. -/
lemma isGrave_granularRules (f : Frontier) (s : SectionHeader) (isLast : Bool) :
    ∀ r ∈ image.granularRules fileSize f s isLast, r.2.isGrave = true := by
  simp [granularRules, Diagnostic.isGrave]

/-- Sections of a section-granular image that leave an empty register without a grave problem obey
their rules. -/
lemma verifyFrom_of_not_grave (hf : image.isFlat = false) {f : Frontier} {index : ℕ}
    {sections : List SectionHeader}
    (h : ¬ (image.verifyFrom fileSize {} f index sections).1.Grave) :
    image.SectionsObey fileSize f index sections ∧
      (image.verifyFrom fileSize {} f index sections).1 = {} := by
  induction sections generalizing f index with
  | nil => exact ⟨trivial, rfl⟩
  | cons s rest ih =>
      have hs : image.sectionRules fileSize f s (index + 1 == image.file.sectionCount.toNat) =
          image.granularRules fileSize f s (index + 1 == image.file.sectionCount.toNat) := by
        simp [sectionRules, hf]
      simp only [verifyFrom] at h ⊢
      -- the register behind the first section is not grave, since grave problems stay
      have h1 := fun hl => h (grave_verifyFrom hl _ _ _)
      obtain ⟨ho, he⟩ := Latch.check_of_not_grave
        (by rw [hs]; exact isGrave_granularRules f s _) h1
      rw [he] at h ⊢
      obtain ⟨hr, hl⟩ := ih h
      exact ⟨⟨ho, hr⟩, hl⟩

/-- The register behind all rules for the table. -/
lemma verifySections_eq (image : Image) (fileSize : ℕ) :
    image.verifySections fileSize =
      { image with
        latch := (image.verifyFrom fileSize (image.latch.check image.headerSizeRules)
          image.firstFrontier 0 image.sections).1.check
            (image.tableRules fileSize image.lastFrontier image.sections) } := by
  have h : image.lastFrontier = (image.verifyFrom fileSize
      (image.latch.check image.headerSizeRules) image.firstFrontier 0 image.sections).2 :=
    (verifyFrom_snd _ _ _ _).symm
  rw [h]
  rfl

end

/-! ### The whole capture -/

/-- A section-granular image that obeys all rules of the headers and of the sections. -/
structure Obeys (image : Image) (fileSize : ℕ) : Prop where
  /-- The optional header obeys its rules. -/
  headers : Obeyed image.headerRules
  /-- So does the size of headers. -/
  headerSize : Obeyed image.headerSizeRules
  /-- So do the sections, which follow the headers. -/
  sections : image.SectionsObey fileSize image.firstFrontier 0 image.sections
  /-- Where the size of image must match, it does. -/
  consumed : image.config.sizeOfImageMustMatch = true → image.lastFrontier.free < image.slack

/-- What a capture that does not fail can do: the NT headers are captured, and then the section
table. -/
lemma capture_ok {config : Config} {file F : ByteArray} {image : Image}
    (h : capture config file = (image, .ok F)) :
    DosHeader.size < file.size ∧ ∃ nt : Image,
      { empty config with dos := DosHeader.ofBytes file }.captureNtHeaders file = (nt, .ok ()) ∧
        nt.captureSectionTable file = (image, F) := by
  dsimp only [capture] at h
  split_ifs at h with h1 h2
  · cases (Prod.mk.inj h).2
  · cases (Prod.mk.inj h).2
  · refine ⟨Nat.lt_of_not_le h2, ?_⟩
    split at h
    · cases (Prod.mk.inj h).2
    · split at h
      · cases (Prod.mk.inj h).2
      · next nt hnt =>
        refine ⟨nt, hnt, ?_⟩
        obtain ⟨hi, hF⟩ := Prod.mk.inj h
        exact Prod.ext hi (Except.ok.inj hF)

/-- The table rule that stands for a grave problem without a cut: the size of image. -/
lemma consumed_of_not_grave {image : Image} {fileSize : ℕ}
    (h : ¬ (({} : Latch).check
      (image.tableRules fileSize image.lastFrontier image.sections)).Grave)
    (hm : image.config.sizeOfImageMustMatch = true) : image.lastFrontier.free < image.slack := by
  by_contra hlt
  refine h ⟨.sizeOfImageInvalid, ?_, rfl⟩
  simp [Latch.check, Latch.recordAny, tableRules, hm, UInt32.not_lt.mp hlt]

/-- The rules for the section table of a section-granular image without grave problems. -/
lemma verifySections_obeyed {image : Image} {fileSize : ℕ} (h0 : image.latch = {})
    (hf : image.isFlat = false) (hg : ¬ (image.verifySections fileSize).latch.Grave) :
    Obeyed image.headerSizeRules ∧
      image.SectionsObey fileSize image.firstFrontier 0 image.sections ∧
      (image.config.sizeOfImageMustMatch = true → image.lastFrontier.free < image.slack) := by
  rw [verifySections_eq, h0] at hg
  have h2 := Latch.not_grave_of_check hg
  have h1 : ¬ (({} : Latch).check image.headerSizeRules).Grave := fun hl =>
    h2 (grave_verifyFrom hl _ _ _)
  obtain ⟨ho, e1⟩ := Latch.check_of_not_grave (by simp [headerSizeRules, Diagnostic.isGrave]) h1
  simp only [e1] at h2 hg
  obtain ⟨hs, e2⟩ := verifyFrom_of_not_grave hf h2
  rw [e2] at hg
  exact ⟨ho, hs, consumed_of_not_grave hg⟩

/-- A problem with the headers stays while the section table is captured. -/
lemma holds_captureSectionTable {nt : Image} {kind : Diagnostic → Bool} (h : nt.latch.Holds kind)
    (file : ByteArray) : (nt.captureSectionTable file).1.latch.Holds kind := by
  dsimp only [captureSectionTable]
  split_ifs
  · exact h.check [(true, .sectionTableOutOfFile)]
  · rw [verifySections_eq]
    exact (holds_verifyFrom (h.check _) _ _ _).check _

/-- A register without grave problems behind the section table had none in front of it either. -/
lemma not_grave_of_captureSectionTable {nt image : Image} {file F : ByteArray}
    (h : nt.captureSectionTable file = (image, F)) (hg : ¬ image.latch.Grave) :
    ¬ nt.latch.Grave := by
  intro hl
  have hstays := holds_captureSectionTable hl file
  rw [h] at hstays
  exact hg hstays

/-- The headers of a captured image without grave problems, flat or not, obey their rules, and
nothing was recorded when the section table was reached. -/
lemma captured_of_not_grave {config : Config} {file F : ByteArray} {image : Image}
    (h : capture config file = (image, .ok F)) (hg : ¬ image.latch.Grave) :
    ∃ nt : Image, nt.captureSectionTable file = (image, F) ∧ nt.latch = {} ∧
      Obeyed nt.headerRules := by
  obtain ⟨-, nt, hnt, ht⟩ := capture_ok h
  obtain ⟨h0, ho⟩ := captureNtHeaders_obeyed rfl hnt (not_grave_of_captureSectionTable ht hg)
  exact ⟨nt, ht, h0, ho⟩

/-- **The headers of what is mapped**: a captured image without grave problems, flat or not, obeys
the rules for its headers. -/
theorem headers_of_capture {config : Config} {file F : ByteArray} {image : Image}
    (h : capture config file = (image, .ok F)) (hg : ¬ image.latch.Grave) :
    Obeyed image.headerRules := by
  obtain ⟨nt, ht, -, ho⟩ := captured_of_not_grave h hg
  dsimp only [captureSectionTable] at ht
  split_ifs at ht
  · obtain ⟨rfl, -⟩ := Prod.mk.inj ht
    exact ho
  · obtain ⟨rfl, -⟩ := Prod.mk.inj ht
    exact ho

/-- A captured image without grave problems has a size, which leaves room for rounding it, and
sections with an alignment. -/
lemma sizes_of_capture {config : Config} {file F : ByteArray} {image : Image}
    (h : capture config file = (image, .ok F)) (hg : ¬ image.latch.Grave) :
    0 < image.optional.sizeOfImage.toNat ∧ image.optional.sizeOfImage ≤ largestImage ∧
      image.optional.sectionAlignment ≠ 0 := by
  have ho := headers_of_capture h hg
  simp only [Obeyed, headerRules, List.forall_mem_cons, List.not_mem_nil, false_implies,
    implies_true, and_true] at ho
  obtain ⟨-, -, -, -, halign, -, -, -, hlarge, -, -, -, -, hzero, -⟩ := ho
  refine ⟨?_, UInt32.not_lt.mp (decide_eq_false_iff_not.mp hlarge), beq_eq_false_iff_ne.mp halign⟩
  by_contra hneg
  have h0 : image.optional.sizeOfImage = 0 :=
    UInt32.toNat_inj.mp (Nat.eq_zero_of_not_pos hneg)
  rw [h0] at hzero
  cases hzero

/-- What is captured is no larger than a file can be. -/
lemma size_le_of_capture {config : Config} {file F : ByteArray} {image : Image}
    (h : capture config file = (image, .ok F)) : file.size ≤ maxFileSize := by
  by_contra hbig
  rw [capture, if_pos (Nat.lt_of_not_le hbig)] at h
  cases (Prod.mk.inj h).2

/-- The optional header of a captured image without grave problems is the one at its place in the
file, in the layout that it names. -/
lemma optional_of_capture {config : Config} {file F : ByteArray} {image : Image}
    (h : capture config file = (image, .ok F)) (hg : ¬ image.latch.Grave) :
    let off := image.dos.ntOffset.toNat + optionalStart
    image.optional = OptionalHeader.ofBytes (layoutAt file off) file off := by
  obtain ⟨-, nt, hnt, ht⟩ := capture_ok h
  rcases captureNtHeaders_ok hnt with rfl | rfl
  · refine absurd ?_ (not_grave_of_captureSectionTable ht hg)
    exact Latch.grave_record_of_empty rfl
  · dsimp only [captureSectionTable] at ht
    split_ifs at ht
    · obtain ⟨rfl, -⟩ := Prod.mk.inj ht
      rfl
    · obtain ⟨rfl, -⟩ := Prod.mk.inj ht
      rfl

/-- **All rules hold of what is mapped**: a captured section-granular image without grave problems
obeys every rule. -/
theorem obeys_of_capture {config : Config} {file F : ByteArray} {image : Image}
    (h : capture config file = (image, .ok F)) (hg : ¬ image.latch.Grave)
    (hf : image.isFlat = false) : image.Obeys F.size := by
  obtain ⟨nt, ht, h0, -⟩ := captured_of_not_grave h hg
  have ho := headers_of_capture h hg
  dsimp only [captureSectionTable] at ht
  split_ifs at ht
  · obtain ⟨rfl, -⟩ := Prod.mk.inj ht
    -- a table behind the end of the file is a grave problem
    refine absurd ?_ hg
    rw [record, h0]
    exact Latch.grave_record_of_empty rfl
  · obtain ⟨rfl, rfl⟩ := Prod.mk.inj ht
    obtain ⟨hh, hs, hc⟩ := verifySections_obeyed (by exact h0) (by exact hf) hg
    rw [verifySections_eq]
    exact ⟨ho, hh, (sectionsObey_latch _ _ _ _ _ _).mpr hs, hc⟩

end Image

end PeImage
