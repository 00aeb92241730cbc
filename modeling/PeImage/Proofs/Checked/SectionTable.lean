/-
Capture and verification of the section table in machine words.

* `resolveNameChecked_eq`: the name of a section, of which the digits are taken one by one;
* `captureSectionsChecked_eq`: the walk over the table stops at the first header that does not lie
  in the file, which is where the count of complete headers ends;
* `verifySectionsChecked_eq`: the sums of the layout rules. Every section takes less than `2 ^ 32`
  bytes and there are less than `2 ^ 16` of them, so that their sum stays within 64 bits;
* `captureChecked_eq`: so every capture goes through.
-/
import PeImage.Proofs.Checked.Access
import PeImage.Proofs.Checked.Headers
import PeImage.Proofs.FlatMapping
import PeImage.Proofs.SectionCount

namespace PeImage

open Checked

namespace Image

variable {image : Image} {file : ByteArray}

/-! ### Names -/

/-- The number that the digits at the start of a name spell, modulo `2 ^ 32`. -/
def leadingNumberChecked (name : List UInt8) : Checked UInt32 :=
  (name.takeWhile isDigit).foldlM (fun n b => do
    return n * 10 + UInt32.ofNat (← sub b.toNat 0x30)) 0

/-- The offset in the string table to which a stored name refers. -/
def longNameOffsetChecked? (image : Image) (name : List UInt8) : Checked (Option UInt32) := do
  if image.file.symbolTable = 0 then return none
  else if (← get name 0) = 0x2F then
    within 1 name.length name.length
    let strings := image.file.symbolTable + image.file.symbolCount * symbolSize
    return some (strings + (← leadingNumberChecked (name.drop 1)))
  else return none

/-- The name to be shown for a section. -/
def resolveNameChecked (image : Image) (file : ByteArray) (s : SectionHeader) :
    Checked String := do
  let long ← match ← image.longNameOffsetChecked? s.rawName.toList with
    | some off => readTerminatedChecked longNameRules file off.toNat
    | none => pure ""
  return if long.isEmpty then s.shortName else long

lemma leadingNumberChecked_eq (name : List UInt8) :
    leadingNumberChecked name = .ok (leadingNumber name) := by
  refine foldlM_eq (fun _ rest => ∀ b ∈ rest, isDigit b = true) ?_
    fun b hb => List.mem_takeWhile_imp hb
  intro n b rest hrest
  obtain ⟨hb, hrest⟩ := List.forall_mem_cons.mp hrest
  refine ⟨?_, hrest⟩
  have hle : 0x30 ≤ b := by
    simp only [isDigit, Bool.and_eq_true, decide_eq_true_eq] at hb
    exact hb.1
  have hle' : 0x30 ≤ b.toNat := UInt8.le_iff_toNat_le.mp hle
  have hdigit : UInt32.ofNat (b.toNat - 0x30) = (b - 0x30).toUInt32 := by
    refine UInt32.toNat_inj.mp ?_
    have hlt := b.toNat_lt
    rw [UInt32.toNat_ofNat_of_lt' (show b.toNat - 0x30 < 2 ^ 32 by omega), UInt8.toNat_toUInt32,
      UInt8.toNat_sub_of_le _ _ hle]
    rfl
  rw [sub_eq hle', ok_bind, hdigit, pure_eq_ok]

lemma longNameOffsetChecked?_eq (image : Image) {name : List UInt8} (hname : name ≠ []) :
    image.longNameOffsetChecked? name = .ok (image.longNameOffset? name) := by
  cases name with
  | nil => exact absurd rfl hname
  | cons b digits =>
      rw [longNameOffsetChecked?, get_eq (a := b) rfl, ok_bind, List.drop_one, List.tail_cons,
        leadingNumberChecked_eq, ok_bind,
        within_eq (by rw [List.length_cons]; omega) (Nat.le_refl _), ok_bind]
      unfold longNameOffset?
      by_cases hb : b = 0x2F
      · subst hb
        rw [if_pos rfl]
        split_ifs <;> rfl
      · rw [if_neg hb, ite_self]
        split
        · next h => exact absurd (List.cons.inj h).1 hb
        · rfl

lemma resolveNameChecked_eq (image : Image) (file : ByteArray) (s : SectionHeader) :
    image.resolveNameChecked file s = .ok (image.resolveName file s) := by
  have hname : s.rawName.toList ≠ [] := by
    rw [← List.length_pos_iff, Vector.length_toList]
    decide
  rw [resolveNameChecked, longNameOffsetChecked?_eq image hname, ok_bind]
  unfold resolveName
  cases image.longNameOffset? s.rawName.toList with
  | none => rfl
  | some off =>
      dsimp only
      rw [readTerminatedChecked_eq, ok_bind]
      rfl

/-! ### Capture -/

/-- Offset of the section table in the file. -/
def tableOffsetChecked (image : Image) : Checked ℕ := do
  add 64 (← add 64 image.dos.ntOffset.toNat optionalStart) image.file.optionalSize.toNat

/-- Captures the section header at `off`: the file after the clearing, and the header. -/
def captureSectionChecked (image : Image) (file : ByteArray) (off : ℕ) :
    Checked (ByteArray × SectionHeader) := do
  let s := SectionHeader.ofBytes file off
  let file ← if image.clearsPointer s then do
      let field ← add 64 off SectionHeader.rawPointerOffset
      replace file field (← add 64 field 4) (zeros 4)
    else pure file
  return (file, { s with name := ← image.resolveNameChecked file s })

/-- Captures at most `n` section headers from `off` on, as far as the file holds them completely,
behind those in `acc`. -/
def captureSectionsFromChecked (image : Image) (file : ByteArray) (off : ℕ)
    (acc : Array SectionHeader) : ℕ → Checked (ByteArray × Array SectionHeader)
  | 0 => return (file, acc)
  | n + 1 => do
    let next ← add 64 off SectionHeader.size
    if next > file.size then return (file, acc)
    else
      let (file, s) ← image.captureSectionChecked file off
      captureSectionsFromChecked image file next (acc.push s) n

/-- Captures the section table: the file after the clearing, and the headers. -/
def captureSectionsChecked (image : Image) (file : ByteArray) :
    Checked (ByteArray × List SectionHeader) := do
  let (file, sections) ← image.captureSectionsFromChecked file (← image.tableOffsetChecked) #[]
    image.file.sectionCount.toNat
  return (file, sections.toList)

lemma tableOffsetChecked_eq (image : Image) :
    image.tableOffsetChecked = .ok image.tableOffset := by
  have hstart := image.dos.ntOffset.toNat_lt
  have hoptional := image.file.optionalSize.toNat_lt
  have hopt : optionalStart = 24 := rfl
  rw [tableOffsetChecked, add_eq (by omega), ok_bind, add_eq (by omega)]
  rfl

lemma captureSectionChecked_eq (image : Image) {off : ℕ}
    (hoff : off + SectionHeader.size ≤ file.size) (hfile : file.size < 2 ^ 32) :
    image.captureSectionChecked file off = .ok (image.captureSection file off) := by
  have hsize : SectionHeader.size = 40 := rfl
  have hpointer : SectionHeader.rawPointerOffset = 20 := rfl
  dsimp only [captureSectionChecked, captureSection]
  split_ifs
  · rw [add_eq (by omega), ok_bind, add_eq (by omega), ok_bind,
      replace_eq (by omega) (by omega) (by rw [size_zeros]; omega), ok_bind,
      resolveNameChecked_eq, ok_bind]
    rfl
  · rw [pure_eq_ok, ok_bind, resolveNameChecked_eq, ok_bind]
    rfl

lemma captureSectionsFromChecked_eq (image : Image) {off n : ℕ} (acc : Array SectionHeader)
    (hoff : off ≤ file.size) (hfile : file.size < 2 ^ 32) :
    image.captureSectionsFromChecked file off acc n = .ok (image.captureSectionsFrom file off acc
      (min n ((file.size - off) / SectionHeader.size))) := by
  induction n generalizing file off acc with
  | zero =>
      rw [Nat.zero_min]
      rfl
  | succ n ih =>
      have hsize : SectionHeader.size = 40 := rfl
      rw [captureSectionsFromChecked, add_eq (by omega), ok_bind]
      by_cases hin : off + SectionHeader.size ≤ file.size
      · have hcaptured := image.size_captureSection hin
        rw [if_neg (Nat.not_lt.mpr hin), captureSectionChecked_eq image hin hfile, ok_bind]
        dsimp only
        rw [ih _ (by omega) (by omega), hcaptured,
          show min (n + 1) ((file.size - off) / SectionHeader.size) =
            min n ((file.size - (off + SectionHeader.size)) / SectionHeader.size) + 1 by
              rw [hsize] at hin ⊢
              omega]
        rfl
      · rw [if_pos (Nat.lt_of_not_le hin),
          show min (n + 1) ((file.size - off) / SectionHeader.size) = 0 by
            rw [hsize] at hin ⊢
            omega]
        rfl

lemma captureSectionsChecked_eq (image : Image) (hoff : image.tableOffset ≤ file.size)
    (hfile : file.size < 2 ^ 32) :
    image.captureSectionsChecked file = .ok (image.captureSections file) := by
  rw [captureSectionsChecked, tableOffsetChecked_eq, ok_bind,
    captureSectionsFromChecked_eq image #[] hoff hfile]
  rfl

/-! ### Verification -/

/-- Records the first rule for the size of headers that the image violates. -/
def checkHeaderSize (image : Image) : Checked Latch := do
  if image.isFlat then return image.latch
  else
    let h := image.optional
    let rest ← sub32 h.sectionAlignment 1
    let taken ← div32 (alignUp h.sizeOfHeaders h.sectionAlignment) pageSize32
    return image.latch.check
      [(decide (h.sizeOfHeaders + rest < h.sizeOfHeaders), .sizeOfHeadersOverflow),
       (decide (taken > (← pagesForChecked h.sizeOfImage)), .sizeOfHeadersInvalid)]

/-- The frontier in front of the first section. -/
def firstFrontierChecked (image : Image) : Checked Frontier := do
  let h := image.optional
  let pages ← pagesForChecked h.sizeOfImage
  if image.isFlat then return ⟨0, pages - (← div32 image.alignedSize pageSize32)⟩
  else
    let taken ← div32 (alignUp h.sizeOfHeaders h.sectionAlignment) pageSize32
    return ⟨← add 64 0 (← mul 64 taken.toNat pageSize), pages - taken⟩

/-- Verifies sections of which the first has position `index` and begins at `f`. -/
def verifyFromChecked (image : Image) (fileSize : ℕ) (latch : Latch) (f : Frontier) (index : ℕ) :
    List SectionHeader → Checked (Latch × Frontier)
  | [] => return (latch, f)
  | s :: rest => do
    if image.isFlat then
      verifyFromChecked image fileSize (latch.check (flatRules s)) f (index + 1) rest
    else
      let _ ← add 64 f.next s.effectiveSize.toNat
      let taken ← div32 (alignUp s.effectiveSize image.optional.sectionAlignment) pageSize32
      let last ← sub image.file.sectionCount.toNat 1
      let next ← add 64 f.next (← mul 64 taken.toNat pageSize)
      verifyFromChecked image fileSize
        (latch.check (image.granularRules fileSize f s (index == last))) ⟨next, f.free - taken⟩
        (index + 1) rest

/-- Records the first rule that the captured sections violate. -/
def verifySectionsChecked (image : Image) (fileSize : ℕ) : Checked Image := do
  let latch ← image.checkHeaderSize
  let f ← image.firstFrontierChecked
  let (latch, f) ← image.verifyFromChecked fileSize latch f 0 image.sections
  let _ ← div32 image.optional.sectionAlignment pageSize32
  return { image with latch := latch.check (image.tableRules fileSize f image.sections) }

/-- Whole pages of a word take no more bytes than the word counts. -/
lemma div_mul_pageSize_le (x : UInt32) : (x / pageSize32).toNat * pageSize < 2 ^ 32 := by
  have hx := x.toNat_lt
  rw [UInt32.toNat_div, show pageSize32.toNat = 4096 from rfl, show pageSize = 4096 from rfl]
  omega

lemma div32_pageSize32 (x : UInt32) : div32 x pageSize32 = .ok (x / pageSize32) :=
  div32_eq (by decide)

lemma checkHeaderSize_eq (image : Image) :
    image.checkHeaderSize = .ok (image.latch.check image.headerSizeRules) := by
  rw [checkHeaderSize, headerSizeRules]
  by_cases hflat : image.isFlat = true
  · rw [if_pos hflat, hflat]
    cases image.latch with
    | mk first => cases first <;> rfl
  · have hone : 1 ≤ image.optional.sectionAlignment := by
      rw [isFlat, decide_eq_true_eq, UInt32.not_lt] at hflat
      exact UInt32.le_trans (by decide) hflat
    rw [if_neg hflat, Bool.eq_false_iff.mpr hflat]
    dsimp only
    rw [sub32_eq hone, ok_bind, div32_pageSize32, ok_bind, pagesForChecked_eq]
    rfl

lemma firstFrontierChecked_eq (image : Image) :
    image.firstFrontierChecked = .ok image.firstFrontier ∧ image.firstFrontier.next < 2 ^ 32 := by
  dsimp only [firstFrontierChecked, firstFrontier]
  rw [pagesForChecked_eq, ok_bind, div32_pageSize32, ok_bind, div32_pageSize32, ok_bind]
  split_ifs with hflat
  · exact ⟨rfl, Nat.two_pow_pos 32⟩
  · have htaken := div_mul_pageSize_le
      (alignUp image.optional.sizeOfHeaders image.optional.sectionAlignment)
    rw [mul_eq (by omega), ok_bind, add_eq (by omega), ok_bind, Nat.zero_add]
    exact ⟨rfl, htaken⟩

lemma verifyFromChecked_eq (image : Image) (fileSize : ℕ) (latch : Latch) {f : Frontier} {index : ℕ}
    {sections : List SectionHeader}
    (hcount : index + sections.length ≤ image.file.sectionCount.toNat)
    (hnext : f.next / 2 ^ 32 ≤ index) :
    image.verifyFromChecked fileSize latch f index sections =
      .ok (image.verifyFrom fileSize latch f index sections) := by
  induction sections generalizing latch f index with
  | nil => rfl
  | cons s rest ih =>
      rw [List.length_cons] at hcount
      have hmax := image.file.sectionCount.toNat_lt
      have hsize := s.effectiveSize.toNat_lt
      rw [verifyFromChecked, verifyFrom]
      dsimp only [sectionRules, advance]
      by_cases hflat : image.isFlat = true
      · rw [if_pos hflat, if_pos hflat, if_pos hflat]
        exact ih _ (by omega) (by omega)
      · have htaken := div_mul_pageSize_le
          (alignUp s.effectiveSize image.optional.sectionAlignment)
        have hlast : (index == image.file.sectionCount.toNat - 1) =
            (index + 1 == image.file.sectionCount.toNat) := by
          rw [Bool.eq_iff_iff, beq_iff_eq, beq_iff_eq]
          omega
        rw [if_neg hflat, if_neg hflat, if_neg hflat, add_eq (by omega), ok_bind, div32_pageSize32,
          ok_bind, sub_eq (by omega), ok_bind, mul_eq (by omega), ok_bind, add_eq (by omega),
          ok_bind, hlast]
        exact ih _ (by omega) (by dsimp only; omega)

lemma verifySectionsChecked_eq (image : Image) (fileSize : ℕ)
    (hcount : image.sections.length ≤ image.file.sectionCount.toNat) :
    image.verifySectionsChecked fileSize = .ok (image.verifySections fileSize) := by
  obtain ⟨hfrontier, hnext⟩ := image.firstFrontierChecked_eq
  rw [verifySectionsChecked, checkHeaderSize_eq, ok_bind, hfrontier, ok_bind,
    verifyFromChecked_eq image fileSize _ (by omega) (by omega), ok_bind]
  dsimp only
  rw [div32_pageSize32]
  rfl

/-- Captures and verifies the section table: the image, and the file after the clearing. -/
def captureSectionTableChecked (image : Image) (file : ByteArray) :
    Checked (Image × ByteArray) := do
  if (← image.tableOffsetChecked) > file.size then
    return (image.record .sectionTableOutOfFile, file)
  else
    let (file, sections) ← image.captureSectionsChecked file
    let image ← { image with sections := sections }.verifySectionsChecked file.size
    return (image, file)

lemma captureSectionTableChecked_eq (image : Image) (hfile : file.size < 2 ^ 32) :
    image.captureSectionTableChecked file = .ok (image.captureSectionTable file) := by
  rw [captureSectionTableChecked, tableOffsetChecked_eq, ok_bind, captureSectionTable]
  split_ifs with hout
  · rfl
  · have hlength : (image.captureSections file).2.length ≤ image.file.sectionCount.toNat := by
      rw [length_captureSections, tableLength]
      exact Nat.min_le_left _ _
    rw [captureSectionsChecked_eq image (Nat.le_of_not_lt hout) hfile, ok_bind]
    dsimp only
    rw [verifySectionsChecked_eq _ _ hlength, ok_bind]
    rfl

/-! ### The whole capture -/

/-- Captures the headers and the section table of a file: the image, and the file after the clearing
of raw data pointers. -/
def captureChecked (config : Config) (file : ByteArray) :
    Checked (Image × Except Fault ByteArray) := do
  let image := empty config
  if file.size > maxFileSize then return (image.record .fileTooBig, .error .fileTooBig)
  else if file.size ≤ DosHeader.size then return (image, .error .invalidFile)
  else
    let dos := DosHeader.ofBytes file
    match dos.verify file.size with
    | .error cause => return (image.refuse cause, .error .invalidFile)
    | .ok () =>
      match ← { image with dos := dos }.captureNtHeadersChecked file with
      | (image, .error fault) => return (image, .error fault)
      | (image, .ok ()) =>
        let (image, file) ← image.captureSectionTableChecked file
        return (image, .ok file)

/-- **Every capture goes through**, of whatever bytes. -/
theorem captureChecked_eq (config : Config) (file : ByteArray) :
    captureChecked config file = .ok (capture config file) := by
  dsimp only [captureChecked, capture]
  split_ifs with hmax hsmall
  · rfl
  · rfl
  · have hfile : file.size < 2 ^ 32 := by
      rw [show maxFileSize = 2 ^ 32 - 1 from rfl] at hmax
      omega
    cases (DosHeader.ofBytes file).verify file.size with
    | error cause => rfl
    | ok =>
        dsimp only
        rw [captureNtHeadersChecked_eq, ok_bind]
        generalize captureNtHeaders _ file = captured
        obtain ⟨nt, fault | -⟩ := captured
        · rfl
        · dsimp only
          rw [captureSectionTableChecked_eq nt hfile]
          rfl

end Image

end PeImage
