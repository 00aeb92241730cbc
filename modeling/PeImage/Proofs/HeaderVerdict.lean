/-
Which headers are accepted, and what is recorded of those that are not.

The rules for the headers are stated on what the file holds at their place, as if it went on with
zeros. A capture that does not fail records nothing exactly if all of them hold, and else the
problem that the first one stands for that does not.

* `HeaderRule`, `HeaderRule.all`: the rules, in the order in which they are looked at;
  `HeaderRule.diagnostic`: the problem that a violation is;
* `fileHeaderAt`, `optionalHeaderAt`, `HeaderRule.Holds`: what the rules say;
* `Image.headerRules_eq`, `Image.latch_captureNtHeaders`: the tests of the capture are those of the
  rules, in three stages, of which each one finds the headers read as far as it looks at them, or a
  problem recorded;
* `Image.verdict_captureNtHeaders`: what a capture says about the headers.
-/
import PeImage.Alignment.Rounding
import PeImage.Proofs.Outcome

namespace PeImage

open Image

/-! ### The rules -/

/-- A rule for the NT headers. -/
inductive HeaderRule where
  /-- Newer versions want complete narrow headers in the file. -/
  | wholeHeaders
  /-- The file header ends in front of the end of the file. -/
  | fileHeaderInFile
  /-- The file header is not blank. -/
  | fileHeaderUsed
  /-- The image is marked executable. -/
  | executable
  /-- There are not too many sections. -/
  | sectionCount
  /-- The declared end of the headers fits into 32 bits. -/
  | headerEnd
  /-- The magic number names a layout. -/
  | magic
  /-- An app container image can be relocated. -/
  | appContainer
  /-- The headers of a section-granular image have a size. -/
  | sizeOfHeadersUsed
  /-- There is a file alignment. -/
  | fileAlignmentUsed
  /-- It is a power of two. -/
  | fileAlignmentPower
  /-- There is a section alignment. -/
  | sectionAlignmentUsed
  /-- It is a power of two. -/
  | sectionAlignmentPower
  /-- Sections are aligned at least as in the file. -/
  | sectionAlignmentLarge
  /-- The file alignment counts in sectors, or is that of sections. -/
  | fileAlignmentSectors
  /-- The image is not too large. -/
  | sizeOfImageBounded
  /-- The machine runs narrow images, if this is one. -/
  | narrowMachine
  /-- The machine runs wide images, if this is one. -/
  | wideMachine
  /-- The headers are no larger than the image. -/
  | headersInImage
  /-- On 64-bit hosts the size of the optional header is aligned. -/
  | optionalSizeAligned
  /-- The image has a page. -/
  | sizeOfImageUsed
  /-- The base is aligned. -/
  | baseAligned
  deriving DecidableEq, Repr

namespace HeaderRule

/-- The rules that the file header is tested for. -/
def fileRules : List HeaderRule :=
  [.fileHeaderInFile, .fileHeaderUsed, .executable, .sectionCount, .headerEnd]

/-- The rules that the optional header is tested for, behind its magic number. -/
def optionalRules : List HeaderRule :=
  [.appContainer, .sizeOfHeadersUsed, .fileAlignmentUsed, .fileAlignmentPower,
   .sectionAlignmentUsed, .sectionAlignmentPower, .sectionAlignmentLarge, .fileAlignmentSectors,
   .sizeOfImageBounded, .narrowMachine, .wideMachine, .headersInImage, .optionalSizeAligned,
   .sizeOfImageUsed, .baseAligned]

/-- All rules, in the order in which they are looked at. -/
def all : List HeaderRule := .wholeHeaders :: fileRules ++ .magic :: optionalRules

lemma mem_all (rule : HeaderRule) : rule ∈ all := by cases rule <;> decide

/-- The problem that a violation is. -/
def diagnostic : HeaderRule → Diagnostic
  | .wholeHeaders | .fileHeaderInFile => .headersOutOfFile
  | .fileHeaderUsed => .fileHeaderInvalid
  | .executable | .sectionCount | .appContainer => .notExecutable
  | .headerEnd => .headerEndOverflow
  | .magic => .optionalMagicInvalid
  | .sizeOfHeadersUsed => .sizeOfHeadersZero
  | .fileAlignmentUsed => .fileAlignmentZero
  | .fileAlignmentPower => .fileAlignmentNotPowerOfTwo
  | .sectionAlignmentUsed => .sectionAlignmentZero
  | .sectionAlignmentPower => .sectionAlignmentNotPowerOfTwo
  | .sectionAlignmentLarge => .sectionAlignmentTooSmall
  | .fileAlignmentSectors => .sectionAlignmentInvalid
  | .sizeOfImageBounded => .sizeOfImageTooBig
  | .narrowMachine => .machine32Invalid
  | .wideMachine => .machine64Invalid
  | .headersInImage => .sizeOfHeadersInvalid
  | .optionalSizeAligned => .optionalSizeUnaligned
  | .sizeOfImageUsed => .sizeOfImageZero
  | .baseAligned => .imageBaseUnaligned

end HeaderRule

/-! ### What the rules say -/

/-- The file header of the NT headers at `start`, as if the file went on with zeros. -/
def fileHeaderAt (file : ByteArray) (start : ℕ) : FileHeader :=
  .ofBytes file (start + ntSignatureSize)

/-- The optional header of the NT headers at `start`, in the layout that its magic number names, as
if the file went on with zeros. -/
def optionalHeaderAt (file : ByteArray) (start : ℕ) : OptionalHeader :=
  .ofBytes (if u16At file (start + optionalStart) = Layout.wide.magic then .wide else .narrow) file
    (start + optionalStart)

namespace HeaderRule

variable (config : Config) (file : ByteArray) (start : ℕ)

/-- What a rule says of the NT headers at `start`. -/
def Holds (rule : HeaderRule) : Prop :=
  let h := fileHeaderAt file start
  let o := optionalHeaderAt file start
  match rule with
  | .wholeHeaders =>
    config.version = .win7 ∨ config.version = .win10 → start + 248 ≤ file.size
  | .fileHeaderInFile => start + 24 < file.size
  | .fileHeaderUsed => ¬ (h.machine = 0 ∧ h.optionalSize = 0)
  | .executable => h.has .executableImage = true
  | .sectionCount => h.sectionCount.toNat ≤ config.maxSections
  | .headerEnd => start + 24 + h.optionalSize.toNat < 2 ^ 32
  | .magic => o.magic = 0x10B ∨ o.magic = 0x20B ∧ start + 24 + 2 < file.size
  | .appContainer =>
    config.version = .win10 → ¬ ((h.machine = Machine.i386 ∨ h.machine = Machine.amd64) ∧
      o.has .appContainer = true ∧ h.has .relocsStripped = true)
  | .sizeOfHeadersUsed => 4096 ≤ o.sectionAlignment.toNat → o.sizeOfHeaders ≠ 0
  | .fileAlignmentUsed => o.fileAlignment ≠ 0
  | .fileAlignmentPower => o.fileAlignment ≠ 0 → o.fileAlignment.toNat.isPowerOfTwo
  | .sectionAlignmentUsed => o.sectionAlignment ≠ 0
  | .sectionAlignmentPower => o.sectionAlignment ≠ 0 → o.sectionAlignment.toNat.isPowerOfTwo
  | .sectionAlignmentLarge => o.fileAlignment ≤ o.sectionAlignment
  | .fileAlignmentSectors => 512 ∣ o.fileAlignment.toNat ∨ o.sectionAlignment = o.fileAlignment
  | .sizeOfImageBounded => o.sizeOfImage.toNat ≤ 0x77000000
  | .narrowMachine =>
    o.magic = 0x10B →
      h.machine = Machine.i386 ∨ h.machine = Machine.armNt ∧ config.armImages = true
  | .wideMachine =>
    o.magic = 0x20B →
      h.machine = Machine.amd64 ∨ h.machine = Machine.ia64 ∨
        h.machine = Machine.arm64 ∧ config.armImages = true
  | .headersInImage => o.sizeOfHeaders ≤ o.sizeOfImage
  | .optionalSizeAligned => config.wideHost = true → 8 ∣ h.optionalSize.toNat
  | .sizeOfImageUsed => o.sizeOfImage ≠ 0
  | .baseAligned => 0x10000 ∣ o.imageBase.toNat

instance decidableHolds : (rule : HeaderRule) → Decidable (rule.Holds config file start)
  | .wholeHeaders | .appContainer | .sizeOfHeadersUsed | .fileAlignmentPower
  | .sectionAlignmentPower | .narrowMachine | .wideMachine | .optionalSizeAligned =>
    inferInstanceAs (Decidable (_ → _))
  | .fileHeaderInFile | .headerEnd => inferInstanceAs (Decidable (_ < _))
  | .fileHeaderUsed | .fileAlignmentUsed | .sectionAlignmentUsed | .sizeOfImageUsed =>
    inferInstanceAs (Decidable (¬ _))
  | .executable => inferInstanceAs (Decidable (_ = true))
  | .sectionCount | .sizeOfImageBounded => inferInstanceAs (Decidable (_ ≤ _))
  | .magic | .fileAlignmentSectors => inferInstanceAs (Decidable (_ ∨ _))
  | .sectionAlignmentLarge | .headersInImage => inferInstanceAs (Decidable (_ ≤ _))
  | .baseAligned => inferInstanceAs (Decidable (_ ∣ _))

/-- The test for a rule: whether it is violated, and what that is. -/
def test (rule : HeaderRule) : Bool × Diagnostic :=
  (decide (¬ rule.Holds config file start), rule.diagnostic)

variable {config file start}

/-- A condition that says that a rule is violated is its test. -/
lemma eq_test {rule : HeaderRule} {violated : Bool} {d : Diagnostic} (hd : d = rule.diagnostic)
    (h : violated = true ↔ ¬ rule.Holds config file start) :
    (violated, d) = rule.test config file start := by
  rw [test, hd, Prod.mk.injEq, Bool.eq_iff_iff, decide_eq_true_iff]
  exact ⟨h, rfl⟩

end HeaderRule

/-! ### Tests of single fields -/

lemma and_sectorSize32_eq_zero_iff (v : UInt32) : v &&& (sectorSize32 - 1) = 0 ↔ 512 ∣ v.toNat := by
  rw [← UInt32.toNat_inj, UInt32.toNat_and, Nat.dvd_iff_mod_eq_zero]
  exact (Nat.and_two_pow_sub_one_eq_mod v.toNat 9).congr_left

lemma and_seven_eq_zero_iff (v : UInt16) : v &&& 7 = 0 ↔ 8 ∣ v.toNat := by
  rw [← UInt16.toNat_inj, UInt16.toNat_and, Nat.dvd_iff_mod_eq_zero]
  exact (Nat.and_two_pow_sub_one_eq_mod v.toNat 3).congr_left

lemma and_baseGranularity_eq_zero_iff (v : UInt64) :
    v &&& (baseGranularity - 1) = 0 ↔ 0x10000 ∣ v.toNat := by
  rw [← UInt64.toNat_inj, UInt64.toNat_and, Nat.dvd_iff_mod_eq_zero]
  exact (Nat.and_two_pow_sub_one_eq_mod v.toNat 16).congr_left

lemma pagesFor_eq_zero_iff (v : UInt32) : pagesFor v = 0 ↔ v = 0 := by
  rw [← UInt32.toNat_inj, ← UInt32.toNat_inj, toNat_pagesFor, UInt32.toNat_zero, pageSize]
  omega

lemma isPowerOfTwoOrZero_eq_false_iff (v : UInt32) :
    isPowerOfTwoOrZero v = false ↔ ¬ (v ≠ 0 → v.toNat.isPowerOfTwo) := by
  rw [← Bool.not_eq_true, isPowerOfTwoOrZero_iff, ← or_iff_not_imp_left]
  rfl

/-! ### The tests of the capture -/

namespace Latch

variable {l : Latch}

/-- Rules in two lists are checked one list after the other. -/
lemma check_append (l : Latch) (rules rules' : List (Bool × Diagnostic)) :
    l.check (rules ++ rules') = (l.check rules).check rules' := by
  rw [check_eq_foldl, check_eq_foldl, check_eq_foldl, List.foldl_append]

/-- A register that holds a problem keeps it. -/
lemma check_of_first {d : Diagnostic} (h : l.first = some d) (rules : List (Bool × Diagnostic)) :
    l.check rules = l := by
  cases l with
  | mk first =>
      cases h
      rfl

/-- What an empty register holds behind the tests of rules. -/
lemma first_check_test (config : Config) (file : ByteArray) (start : ℕ)
    (rules : List HeaderRule) :
    (({} : Latch).check (rules.map (HeaderRule.test config file start))).first =
      (rules.find? fun rule => ¬ rule.Holds config file start).map HeaderRule.diagnostic := by
  rw [check, recordAny, List.find?_map, Option.map_map]
  rfl

end Latch

namespace Image

open HeaderRule

variable {image nt : Image} {file : ByteArray} {start : ℕ}

/-- The tests of the optional header, once both headers are read, are those of the rules. -/
lemma headerRules_eq (hfile : image.file = fileHeaderAt file start)
    (hoptional : image.optional = optionalHeaderAt file start) :
    image.headerRules = optionalRules.map (test image.config file start) := by
  simp only [headerRules, optionalRules, List.map_cons, List.map_nil, List.cons.injEq, and_true]
  refine ⟨eq_test rfl ?appContainer, eq_test rfl ?sizeOfHeadersUsed, eq_test rfl ?fileAlignmentUsed,
    eq_test rfl ?fileAlignmentPower, eq_test rfl ?sectionAlignmentUsed,
    eq_test rfl ?sectionAlignmentPower, eq_test rfl ?sectionAlignmentLarge,
    eq_test rfl ?fileAlignmentSectors, eq_test rfl ?sizeOfImageBounded, eq_test rfl ?narrowMachine,
    eq_test rfl ?wideMachine, eq_test rfl ?headersInImage, eq_test rfl ?optionalSizeAligned,
    eq_test rfl ?sizeOfImageUsed, eq_test rfl ?baseAligned⟩
  all_goals simp only [Holds, ← hfile, ← hoptional]
  case appContainer => simp [Config.checksAppContainer, isBadAppContainer, and_assoc]
  case sizeOfHeadersUsed => simp [isFlat, UInt32.lt_iff_toNat_lt, pageSize32]
  case fileAlignmentPower => rw [Bool.not_eq_true', isPowerOfTwoOrZero_eq_false_iff]
  case sectionAlignmentPower => rw [Bool.not_eq_true', isPowerOfTwoOrZero_eq_false_iff]
  case fileAlignmentSectors => simp [and_sectorSize32_eq_zero_iff]
  case sizeOfImageBounded =>
    rw [decide_eq_true_iff, gt_iff_lt, UInt32.lt_iff_toNat_lt, Nat.not_le]
    rfl
  case narrowMachine => simp [isMachine32, Layout.magic, imp_iff_not_or]
  case wideMachine => simp [isMachine64, Layout.magic, imp_iff_not_or, and_assoc]
  case optionalSizeAligned => simp [and_seven_eq_zero_iff]
  case sizeOfImageUsed => simp [pagesFor_eq_zero_iff]
  case baseAligned => simp [and_baseGranularity_eq_zero_iff]
  case fileAlignmentUsed | sectionAlignmentUsed | sectionAlignmentLarge | headersInImage => simp

/-- The tests of the file header are those of the rules. One that is not read is not looked at,
because it is said to be cut. -/
lemma latch_captureFileHeader (h0 : image.latch = {}) (file : ByteArray) (start : ℕ) :
    (image.captureFileHeader file start).latch =
      ({} : Latch).check (fileRules.map (test image.config file start)) := by
  have hfile : (.fileHeaderInFile : HeaderRule).Holds image.config file start ↔
      start + ntSignatureSize + FileHeader.size < file.size := Iff.rfl
  by_cases hin : start + ntSignatureSize + FileHeader.size < file.size
  · have htests : fileRules.map (test image.config file start) =
        [(false, .headersOutOfFile),
         ((fileHeaderAt file start).machine == 0 && (fileHeaderAt file start).optionalSize == 0,
          .fileHeaderInvalid),
         (!(fileHeaderAt file start).has .executableImage, .notExecutable),
         (decide ((fileHeaderAt file start).sectionCount.toNat > image.config.maxSections),
          .notExecutable),
         (decide (start + optionalStart + (fileHeaderAt file start).optionalSize.toNat ≥
            UInt32.size), .headerEndOverflow)] := by
      refine Eq.symm ?_
      simp only [fileRules, List.map_cons, List.map_nil, List.cons.injEq, and_true]
      refine ⟨eq_test rfl ?fileHeaderInFile, eq_test rfl ?fileHeaderUsed, eq_test rfl ?executable,
        eq_test rfl ?sectionCount, eq_test rfl ?headerEnd⟩
      case fileHeaderInFile => simp [hfile, hin]
      case fileHeaderUsed => simp [Holds]
      case executable => simp [Holds]
      case sectionCount => simp [Holds]
      case headerEnd => simp [Holds, optionalStart, ntSignatureSize, FileHeader.size, UInt32.size]
    rw [htests]
    simp only [captureFileHeader, h0, hin, decide_true, if_true]
    rfl
  · have hcut : fileRules.map (test image.config file start) = (true, .headersOutOfFile) ::
        [.fileHeaderUsed, .executable, .sectionCount, .headerEnd].map
          (test image.config file start) := by
      simp [fileRules, test, hfile, hin, diagnostic]
    rw [hcut]
    simp only [captureFileHeader, h0, hin, decide_false, Bool.not_false]
    rfl

/-- A file header that is read is the one in the file. -/
lemma file_captureFileHeader
    (h : (.fileHeaderInFile : HeaderRule).Holds image.config file start) :
    (image.captureFileHeader file start).file = fileHeaderAt file start := by
  have hin : start + ntSignatureSize + FileHeader.size < file.size := h
  simp only [captureFileHeader, hin, decide_true, if_true]
  rfl

/-- The rule for the magic number, in terms of the layout that is read: a wide one has its own
magic number, and a narrow one must. -/
lemma holds_magic_iff (config : Config) (file : ByteArray) (start : ℕ) :
    (.magic : HeaderRule).Holds config file start ↔
      layoutAt file (start + optionalStart) = .wide ∨
        u16At file (start + optionalStart) = Layout.narrow.magic := by
  have hrule : (.magic : HeaderRule).Holds config file start ↔
      u16At file (start + optionalStart) = Layout.narrow.magic ∨
        u16At file (start + optionalStart) = Layout.wide.magic ∧
          start + optionalStart + 2 < file.size := Iff.rfl
  rw [hrule, layoutAt]
  split_ifs with hwide
  · simp [hwide]
  · have hno : ¬ (u16At file (start + optionalStart) = Layout.wide.magic ∧
        start + optionalStart + 2 < file.size) := fun h => hwide h.symm
    simp [hno]

/-- The test of the magic number is that of its rule. -/
lemma latch_captureOptionalHeader (image : Image) (file : ByteArray) (start : ℕ) :
    (image.captureOptionalHeader file (start + optionalStart)).latch =
      image.latch.check [test image.config file start .magic] := by
  have hmagic : (layoutAt file (start + optionalStart) == .narrow &&
      u16At file (start + optionalStart) != Layout.narrow.magic) = true ↔
        ¬ (.magic : HeaderRule).Holds image.config file start := by
    rw [holds_magic_iff]
    cases layoutAt file (start + optionalStart) <;> simp
  rw [← eq_test rfl hmagic]
  rfl

/-- An optional header with a magic number that names a layout is read in that layout. -/
lemma optional_captureOptionalHeader (h : (.magic : HeaderRule).Holds image.config file start) :
    (image.captureOptionalHeader file (start + optionalStart)).optional =
      optionalHeaderAt file start := by
  have hlayout : layoutAt file (start + optionalStart) =
      if u16At file (start + optionalStart) = Layout.wide.magic then .wide else .narrow := by
    rcases (holds_magic_iff _ _ _).mp h with hwide | hnarrow
    · rw [hwide, if_pos]
      rw [layoutAt] at hwide
      split_ifs at hwide with hnamed
      exact hnamed.2
    · rw [layoutAt, hnarrow, if_neg (by simp [Layout.magic]), if_neg (by simp [Layout.magic])]
  rw [optionalHeaderAt, ← hlayout]
  rfl

/-- Where a rule of the list is violated, an empty register holds a problem behind the tests. -/
lemma exists_first_check_test {config : Config} {rules : List HeaderRule} {rule : HeaderRule}
    (hmem : rule ∈ rules) (h : ¬ rule.Holds config file start) :
    ∃ d, (({} : Latch).check (rules.map (test config file start))).first = some d := by
  have hfind : (rules.find? fun rule => ¬ rule.Holds config file start).isSome = true :=
    List.find?_isSome.mpr ⟨rule, hmem, decide_eq_true h⟩
  obtain ⟨first, hfirst⟩ := Option.isSome_iff_exists.mp hfind
  exact ⟨first.diagnostic, by rw [Latch.first_check_test, hfirst, Option.map_some]⟩

/-- **The register behind the capture** holds the problem of the first rule that does not hold. -/
lemma latch_captureNtHeaders (h0 : image.latch = {})
    (h : image.captureNtHeaders file = (nt, .ok ())) :
    nt.latch = ({} : Latch).check
      (HeaderRule.all.map (test image.config file image.dos.ntOffset.toNat)) := by
  set start := image.dos.ntOffset.toNat with hstart
  have hwhole : (image.config.requiresWholeHeaders &&
      decide (start + optionalStart + Layout.narrow.size > file.size)) = true ↔
        ¬ (.wholeHeaders : HeaderRule).Holds image.config file start := by
    simp [Holds, Config.requiresWholeHeaders, optionalStart, ntSignatureSize, FileHeader.size,
      Layout.size]
  rw [HeaderRule.all, List.cons_append, List.map_cons, ← eq_test rfl hwhole]
  dsimp only [captureNtHeaders] at h
  split_ifs at h with hcut
  · obtain ⟨rfl, -⟩ := Prod.mk.inj h
    rw [hcut, record, h0]
    rfl
  · cases (Prod.mk.inj h).2
  · cases (Prod.mk.inj h).2
  · obtain ⟨rfl, -⟩ := Prod.mk.inj h
    set read := { image with ntSignature := u32At file start }.captureFileHeader file start
    have hread : read.latch = ({} : Latch).check (fileRules.map (test image.config file start)) :=
      latch_captureFileHeader h0 file start
    set captured := read.captureOptionalHeader file (start + optionalStart)
    have hcaptured : captured.latch = ({} : Latch).check
        ((fileRules ++ [HeaderRule.magic]).map (test image.config file start)) := by
      rw [List.map_append, Latch.check_append, ← hread]
      exact latch_captureOptionalHeader read file start
    have hlatch : captured.verifyHeaders.latch = captured.latch.check captured.headerRules := rfl
    have hskip (rules : List (Bool × Diagnostic)) (d : Diagnostic) :
        ({} : Latch).check ((false, d) :: rules) = ({} : Latch).check rules := rfl
    have hsplit : fileRules ++ .magic :: optionalRules =
        (fileRules ++ [HeaderRule.magic]) ++ optionalRules := by
      rw [List.append_assoc, List.singleton_append]
    rw [Bool.eq_false_iff.mpr hcut, hskip, hsplit, List.map_append, Latch.check_append,
      ← hcaptured, hlatch]
    -- the tests of the optional header only matter where both headers were read
    by_cases hok : (.fileHeaderInFile : HeaderRule).Holds image.config file start ∧
        (.magic : HeaderRule).Holds image.config file start
    · have hfile : captured.file = fileHeaderAt file start := file_captureFileHeader hok.1
      have hoptional : captured.optional = optionalHeaderAt file start :=
        optional_captureOptionalHeader hok.2
      rw [headerRules_eq hfile hoptional]
      rfl
    · obtain ⟨d, hd⟩ : ∃ d, captured.latch.first = some d := by
        rw [hcaptured]
        rcases not_and_or.mp hok with hno | hno
        · exact exists_first_check_test (by decide) hno
        · exact exists_first_check_test (by decide) hno
      rw [Latch.check_of_first hd, Latch.check_of_first hd]

/-- **What a capture says about the headers** that does not fail: no problem is recorded exactly if
all rules hold of what the file holds at their place, and a problem is recorded exactly if it is
what the first rule stands for that does not hold. -/
theorem verdict_captureNtHeaders (h0 : image.latch = {})
    (h : image.captureNtHeaders file = (nt, .ok ())) :
    let start := image.dos.ntOffset.toNat
    (nt.problem? = none ↔ ∀ rule : HeaderRule, rule.Holds image.config file start) ∧
      ∀ d, nt.problem? = some d ↔ ∃ front rule back, HeaderRule.all = front ++ rule :: back ∧
        (∀ r ∈ front, r.Holds image.config file start) ∧
        ¬ rule.Holds image.config file start ∧ rule.diagnostic = d := by
  intro start
  rw [problem?, latch_captureNtHeaders h0 h, Latch.first_check_test]
  constructor
  · rw [Option.map_eq_none_iff, List.find?_eq_none]
    constructor
    · intro hall rule
      simpa using hall rule (mem_all rule)
    · intro hall rule _
      simpa using hall rule
  · intro d
    rw [Option.map_eq_some_iff]
    constructor
    · rintro ⟨rule, hfind, rfl⟩
      obtain ⟨hno, front, back, hall, hfront⟩ := List.find?_eq_some_iff_append.mp hfind
      exact ⟨front, rule, back, hall, by simpa using hfront, by simpa using hno, rfl⟩
    · rintro ⟨front, rule, back, hall, hfront, hno, rfl⟩
      refine ⟨rule, List.find?_eq_some_iff_append.mpr ⟨?_, front, back, hall, ?_⟩, rfl⟩
      · exact decide_eq_true hno
      · simpa using hfront

/-- A file with a section alignment that is no power of two and no multiple of the file alignment,
and with too large an image. -/
def oddFile : ByteArray := smallFile 0x300 0x78000000 [] (List.replicate 128 0)

/-- The image in front of the capture of its NT headers, under the strictest rules. -/
def oddImage : Image := { empty (.ofVersion .win10) with dos := .ofBytes oddFile }

/-- The first problem is recorded, and the second one is not. -/
theorem verdict_oddFile :
    ∃ nt, oddImage.captureNtHeaders oddFile = (nt, .ok ()) ∧
      nt.problem? = some .sectionAlignmentNotPowerOfTwo ∧
      ¬ HeaderRule.sizeOfImageBounded.Holds oddImage.config oddFile
        oddImage.dos.ntOffset.toNat := by
  have hfacts : (oddImage.captureNtHeaders oddFile).2 = .ok () ∧
      (∀ r ∈ HeaderRule.all.take 12,
        r.Holds oddImage.config oddFile oddImage.dos.ntOffset.toNat) ∧
      ¬ HeaderRule.sectionAlignmentPower.Holds oddImage.config oddFile
        oddImage.dos.ntOffset.toNat ∧
      ¬ HeaderRule.sizeOfImageBounded.Holds oddImage.config oddFile
        oddImage.dos.ntOffset.toNat := by
    decide +kernel
  obtain ⟨hok, hfront, hpower, hbounded⟩ := hfacts
  cases hcapture : oddImage.captureNtHeaders oddFile with
  | mk nt result =>
      rw [hcapture] at hok
      obtain rfl : result = .ok () := hok
      have hverdict := verdict_captureNtHeaders rfl hcapture
      refine ⟨nt, rfl, (hverdict.2 _).mpr ?_, hbounded⟩
      exact ⟨HeaderRule.all.take 12, .sectionAlignmentPower, HeaderRule.all.drop 13, rfl, hfront,
        hpower, rfl⟩

end Image

end PeImage
