/-
How many sections an image can get.

The file header counts sections in sixteen bits. A load captures no more than it counts, and adding
a section to a full table is refused; splitting one is not.

* `Image.FitsCount`: the file header can count the sections;
* `Image.fitsCount_perform_iff`: of all operations, only a split of a section in a full table breaks
  that, and always does;
* `Image.fitsCount_run_iff`: so all images along a history fit exactly if there is no such split in
  it; and recomputing the headers stores the number of sections exactly if it fits;
* `Image.splits_fullFile`: a file with a full table, of which a section is split.
-/
import PeImage.Proofs.Acceptance
import PeImage.Proofs.EntryPoints
import PeImage.Proofs.TableWalk

namespace PeImage

namespace Image

variable {image : Image}

/-- The file header can count the sections. -/
def FitsCount (image : Image) : Prop := image.sections.length ≤ maxSectionCount

/-- The operation splits a section while the table is full. -/
def SplitsFull (image : Image) : Operation → Prop
  | .splitSection i front back off =>
      image.sections.length = maxSectionCount ∧
        ∃ split, image.splitSection i front back off = .ok split
  | _ => False

/-! ### Loads -/

/-- A capture leaves no sections where it ends early, and else those of the section table. -/
lemma sections_capture (config : Config) (file : ByteArray) :
    (capture config file).1.sections = [] ∨ file.size ≤ maxFileSize ∧
      ∃ nt : Image, (capture config file).1 = (nt.captureSectionTable file).1 ∧
        nt.sections = [] := by
  dsimp only [capture]
  split_ifs with hmax
  · exact .inl rfl
  · exact .inl rfl
  · split
    · exact .inl rfl
    · have hnt := captureNtHeaders_frame { empty config with dos := DosHeader.ofBytes file } file
      split
      · next nt fault hcapture =>
        rw [hcapture] at hnt
        exact .inl hnt.2.2.1
      · next nt hcapture =>
        rw [hcapture] at hnt
        exact .inr ⟨Nat.le_of_not_gt hmax, nt, rfl, hnt.2.2.1⟩

/-- The captured section headers lie in the file, and are no more than the file header counts. -/
lemma table_of_capture (config : Config) (file : ByteArray)
    (h : (capture config file).1.sections ≠ []) :
    let captured := (capture config file).1
    captured.sections.length ≤ maxSectionCount ∧ file.size ≤ maxFileSize ∧
      captured.tableOffset + captured.sections.length * SectionHeader.size ≤ file.size := by
  obtain hnone | ⟨hmax, nt, hnt, hsections⟩ := sections_capture config file
  · exact absurd hnone h
  by_cases hin : nt.tableOffset ≤ file.size
  · have hcount := nt.file.sectionCount.toNat_lt
    have hoffset : (nt.captureSectionTable file).1.tableOffset = nt.tableOffset := by
      rw [captureSectionTable_frame]
      rfl
    simp only [hnt, hoffset, sections_captureSectionTable hin, length_captureSections,
      tableLength, maxSectionCount, SectionHeader.size]
    omega
  · rw [hnt, captureSectionTable, if_pos (Nat.lt_of_not_le hin)] at h
    exact absurd hsections h

/-- A capture has no more sections than the file header can count. -/
lemma fitsCount_capture (config : Config) (file : ByteArray) :
    (capture config file).1.FitsCount := by
  by_cases hnone : (capture config file).1.sections = []
  · rw [FitsCount, hnone]
    exact Nat.zero_le _
  · exact (table_of_capture config file hnone).1

/-- A load of any kind keeps the number of sections within what the file header can count. -/
lemma fitsCount_perform_load (h : image.FitsCount) {op : Operation} (he : op.isEdit = false)
    (hu : op.isUpdate = false) : (image.perform op).FitsCount := by
  rcases perform_load image he hu with ⟨extent, file, hop⟩ | ⟨latch, hop⟩ | hop
  · rw [hop, loadTo_frame]
    exact fitsCount_capture image.config file
  · rw [hop]
    exact Nat.zero_le _
  · rwa [hop]

/-! ### Edits -/

/-- Changing one section keeps their number. -/
lemma length_orElse_modifySection (image : Image) (i : ℕ) (f : SectionHeader → SectionHeader) :
    (image.orElse (image.modifySection i f)).sections.length = image.sections.length := by
  unfold modifySection
  split_ifs
  · exact List.length_modify ..
  · rfl

lemma length_orElse_setDirectory (image : Image) (i : ℕ) (rva size : Option UInt32) :
    (image.orElse (image.setDirectory i rva size)).sections.length = image.sections.length := by
  unfold setDirectory
  split_ifs <;> rfl

/-- A section is added only where there is room for it. -/
lemma fitsCount_orElse_addSection (h : image.FitsCount) (name : String) (size : UInt32) :
    (image.orElse (image.addSection name size)).FitsCount := by
  unfold addSection
  split
  · exact h
  · split_ifs with hfull
    · exact h
    · show (image.sections ++ [_]).length ≤ maxSectionCount
      rw [List.length_append, List.length_singleton]
      omega

/-- A split makes two sections of one. -/
lemma length_of_splitSection {split : Image} {i : ℕ} {front back : String} {off : UInt32}
    (h : image.splitSection i front back off = .ok split) :
    split.sections.length = image.sections.length + 1 := by
  obtain ⟨-, -, s, hs, -, -, rfl⟩ := splitSection_eq_ok_iff.mp h
  obtain ⟨hi, -⟩ := List.getElem?_eq_some_iff.mp hs
  simp only [List.length_append, List.length_take, List.length_cons, List.length_drop]
  omega

/-- A split breaks the limit exactly if the table is full. -/
lemma fitsCount_orElse_splitSection_iff (h : image.FitsCount) (i : ℕ) (front back : String)
    (off : UInt32) :
    (image.orElse (image.splitSection i front back off)).FitsCount ↔
      ¬ image.SplitsFull (.splitSection i front back off) := by
  cases hs : image.splitSection i front back off with
  | error fault => simp [orElse, SplitsFull, hs, h]
  | ok split =>
      have hlength := length_of_splitSection hs
      simp only [FitsCount] at h
      simp only [orElse, FitsCount, SplitsFull, hs, hlength, Except.ok.injEq, exists_eq', and_true]
      omega

lemma length_enlargeLastSection (image : Image) (increment : UInt32) :
    (image.enlargeLastSection increment).sections.length = image.sections.length := by
  unfold enlargeLastSection
  split
  · rfl
  · next last hlast =>
    have hne : image.sections ≠ [] := by
      rintro hnil
      rw [hnil] at hlast
      cases hlast
    have hpos := List.length_pos_of_ne_nil hne
    simp only [List.length_append, List.length_dropLast, List.length_singleton]
    omega

lemma length_orElse_removeSection_le (image : Image) (i : ℕ) :
    (image.orElse (image.removeSection i)).sections.length ≤ image.sections.length := by
  unfold removeSection
  split
  · exact le_rfl
  · simp only [orElse, List.length_append, List.length_take, List.length_map, List.length_drop]
    omega

lemma length_makeValid (image : Image) :
    image.makeValid.sections.length = image.sections.length := List.length_map _

/-! ### Histories -/

/-- **One operation** leaves a number of sections that the file header can count, unless it splits a
section of a full table. -/
theorem fitsCount_perform_iff (h : image.FitsCount) (op : Operation) :
    (image.perform op).FitsCount ↔ ¬ image.SplitsFull op := by
  -- all but splits keep the limit, and are no splits of a full table
  suffices hkeep : (∀ i front back off, op ≠ .splitSection i front back off) →
      (image.perform op).FitsCount by
    cases op with
    | splitSection i front back off => exact fitsCount_orElse_splitSection_iff h i front back off
    | _ => exact iff_of_true (hkeep fun _ _ _ _ => nofun) id
  intro hop
  cases op with
  | load | loadSource | loadEntry | loadStream => exact fitsCount_perform_load h rfl rfl
  | write a src =>
      show (image.write a src).1.FitsCount
      rw [write_frame]
      exact h
  | relocate base =>
      show (image.relocate base).1.FitsCount
      rcases relocate_frame image base with hr | ⟨-, pages, hr⟩ <;> rw [hr] <;> exact h
  | setSymbolTable | setCharacteristics | setEntryPoint | setCode => exact h
  | setDirectory i rva size => exact (length_orElse_setDirectory image i rva size).trans_le h
  | addSection name size => exact fitsCount_orElse_addSection h name size
  | setSectionName i | setSectionMemory i | setSectionData i | setSectionCharacteristics i =>
      exact (length_orElse_modifySection image i _).trans_le h
  | splitSection i front back off => exact absurd rfl (hop i front back off)
  | enlargeLastSection increment => exact (length_enlargeLastSection image increment).trans_le h
  | removeSection i => exact (length_orElse_removeSection_le image i).trans h
  | makeValid => exact (length_makeValid image).trans_le h

lemma run_append (image : Image) (before after : List Operation) :
    image.run (before ++ after) = (image.run before).run after := List.foldl_append

/-- The number of sections that the recomputed file header holds, which counts modulo `2 ^ 16`. -/
lemma toNat_sectionCount_makeValid (image : Image) :
    image.makeValid.file.sectionCount.toNat = image.sections.length % 2 ^ 16 := UInt16.toNat_ofNat'

/-- **The limit of the section table**: all images along a history have a number of sections that
the file header can count exactly if no operation of the history splits a section of a full table.
Recomputing the headers of an image stores the number of its sections exactly if it is such a
number. -/
theorem fitsCount_run_iff (config : Config) (history : List Operation) :
    ((∀ before after, history = before ++ after → ((empty config).run before).FitsCount) ↔
      ∀ before op after, history = before ++ op :: after →
        ¬ ((empty config).run before).SplitsFull op) ∧
      ∀ image : Image, image.makeValid.file.sectionCount.toNat = image.makeValid.sections.length ↔
        image.FitsCount := by
  have hstep (before : List Operation) (op : Operation)
      (h : ((empty config).run before).FitsCount) :
      ((empty config).run (before ++ [op])).FitsCount ↔
        ¬ ((empty config).run before).SplitsFull op := by
    rw [run_append]
    exact fitsCount_perform_iff h op
  refine ⟨⟨fun hfits before op after he => ?_, fun hsplits before => ?_⟩, fun image => ?_⟩
  · exact (hstep before op (hfits before (op :: after) he)).mp
      (hfits (before ++ [op]) after (by simp [he]))
  · -- the images along the history, one operation after the other
    induction before using List.reverseRecOn with
    | nil => exact fun _ _ => Nat.zero_le _
    | append_singleton before op ih =>
        intro after he
        rw [List.append_assoc, List.singleton_append] at he
        exact (hstep before op (ih (op :: after) he)).mpr (hsplits before op after he)
  · rw [toNat_sectionCount_makeValid, length_makeValid, FitsCount, maxSectionCount]
    omega

/-! ### A full table -/

/-- A load of the headers ends with what is captured. -/
lemma fst_loadTo_headers (image : Image) (file : ByteArray) :
    (image.loadTo .headers file).1 = (capture image.config file).1 := by
  unfold loadTo
  split <;> next hc => rw [hc]

/-- The first captured section is the one with which the table begins. -/
lemma getElem?_captureSections_zero {file : ByteArray} (h : image.tableLength file.size ≠ 0) :
    (image.captureSections file).2[0]? =
      some (image.captureSection file image.tableOffset).2 := by
  obtain ⟨n, hn⟩ := Nat.exists_eq_succ_of_ne_zero h
  rw [captureSections, Array.getElem?_toList, hn, captureSectionsFrom]
  exact getElem?_captureSectionsFrom_of_lt _ _ n Nat.one_pos

/-- A section of some size can be split at its start. -/
lemma exists_splitSection_zero {s : SectionHeader} {i : ℕ} (hf : image.optional.fileAlignment ≠ 0)
    (ha : image.optional.sectionAlignment ≠ 0) (hs : image.section? i = some s)
    (hv : s.virtualSize ≠ 0) (front back : String) :
    ∃ split, image.splitSection i front back 0 = .ok split := by
  have hpos : 0 < s.virtualSize := by
    rw [UInt32.lt_iff_toNat_lt]
    exact Nat.pos_of_ne_zero fun h => hv (UInt32.toNat_inj.mp h)
  exact ⟨_, splitSection_eq_ok_iff.mpr ⟨hf, ha, s, hs, UInt32.zero_and, hpos, rfl⟩⟩

/-- Headers with one section of a page, which declare as many sections as they can. -/
def fullHeaders : ByteArray :=
  overwrite (smallFile 0x1000 0x1000 [{ virtualSize := 0x1000 }] []) 70
    (encode 2 maxSectionCount)

/-- The size of a file with these headers and a complete section table. -/
def fullSize : ℕ := 224 + 0xFFFE * SectionHeader.size

/-- A file with a full section table, of which all sections but the first are blank. -/
def fullFile : ByteArray := fullHeaders ++ zeros (0xFFFE * SectionHeader.size)

/-- What the headers spell. -/
lemma spelled_fullHeaders :
    fullHeaders.size = 224 ∧ (DosHeader.ofBytes fullHeaders).magic = DosHeader.signature ∧
      (DosHeader.ofBytes fullHeaders).ntOffset = 64 ∧
      u32At fullHeaders 64 = ntSignatureValue ∧
      (FileHeader.ofBytes fullHeaders 68).sectionCount = 0xFFFF ∧
      (FileHeader.ofBytes fullHeaders 68).optionalSize = 96 ∧
      u32At fullHeaders 120 = 0x1000 ∧ u32At fullHeaders 124 = 0x200 ∧
      u32At fullHeaders 192 = 0x1000 := by
  decide +kernel

lemma size_fullFile : fullFile.size = fullSize := by
  rw [fullFile, ByteArray.size_append, spelled_fullHeaders.1, size_zeros, fullSize]

/-- What goes on with zeros reads as what it begins with. -/
lemma byteAt_fullFile (i : ℕ) : byteAt fullFile i = byteAt fullHeaders i := by
  rw [fullFile, byteAt_append, byteAt_zeros]
  split_ifs with h
  · rfl
  · exact (byteAt_eq_zero (Nat.le_of_not_gt h)).symm

-- the file is long, so what follows is about any file of this size that reads like it
section Full

variable {file : ByteArray} (hread : ∀ i, byteAt file i = byteAt fullHeaders i)
include hread

lemma u16At_full (off : ℕ) : u16At file off = u16At fullHeaders off := by
  rw [u16At, u16At, natAt_congr fun _ _ => hread _]

lemma u32At_full (off : ℕ) : u32At file off = u32At fullHeaders off := by
  rw [u32At, u32At, natAt_congr fun _ _ => hread _]

variable (hsize : file.size = fullSize)
include hsize

/-- What is captured of the headers of a full file. -/
lemma capture_full : ∃ nt : Image,
    (capture (.ofVersion .generic) file).1 = (nt.captureSectionTable file).1 ∧
      nt.file.sectionCount = 0xFFFF ∧ nt.tableOffset = 184 ∧
      nt.optional.sectionAlignment = 0x1000 ∧ nt.optional.fileAlignment = 0x200 := by
  obtain ⟨-, hmagic, hoffset, hsig, hcount, hoptional, hsa, hfa, -⟩ := spelled_fullHeaders
  rw [← u32At_full hread] at hsig hsa hfa
  have hdos : DosHeader.ofBytes file = DosHeader.ofBytes fullHeaders :=
    DosHeader.ofBytes_congr fun i _ => hread i
  have hstart : (DosHeader.ofBytes fullHeaders).ntOffset.toNat = 64 := by
    rw [hoffset]
    rfl
  have hverify : (DosHeader.ofBytes fullHeaders).verify file.size = .ok () := by
    rw [DosHeader.verify, hmagic, hstart, hsize]
    rfl
  let captured : Image := { empty (.ofVersion .generic) with dos := DosHeader.ofBytes fullHeaders }
  let nt : Image := (({ captured with ntSignature := ntSignatureValue }.captureFileHeader
    file 64).captureOptionalHeader file 88).verifyHeaders
  have hnt : captured.captureNtHeaders file = (nt, .ok ()) := by
    have hlen : ¬ 64 + ntSignatureSize ≥ file.size := by
      rw [hsize]
      decide
    have hgeneric : (Config.ofVersion .generic).requiresWholeHeaders = false := rfl
    simp only [captureNtHeaders, captured, empty, hstart, hsig, hgeneric, Bool.false_and, hlen]
    rfl
  have hfile : nt.file = FileHeader.ofBytes fullHeaders 68 := by
    have hcomplete : 64 + ntSignatureSize + FileHeader.size < file.size := by
      rw [hsize]
      decide
    show (if decide _ = true then _ else _) = _
    rw [decide_eq_true hcomplete, if_pos rfl]
    simp only [FileHeader.ofBytes, u16At_full hread, u32At_full hread]
    rfl
  refine ⟨nt, ?_, by rw [hfile, hcount], ?_, hsa, hfa⟩
  · have hmax : ¬ file.size > maxFileSize := by
      rw [hsize]
      decide
    have hmin : ¬ file.size ≤ DosHeader.size := by
      rw [hsize]
      decide
    have hcaptured : { empty (.ofVersion .generic) with
        dos := DosHeader.ofBytes fullHeaders } = captured := rfl
    simp only [capture, hmax, hmin, if_false, hdos, hverify, hcaptured, hnt]
  · rw [tableOffset, hfile, hoptional]
    show (DosHeader.ofBytes fullHeaders).ntOffset.toNat + _ + _ = 184
    rw [hstart]
    rfl

/-- The table of a full file is full, and its first section can be split. -/
lemma splits_full {full split : Image}
    (hfull : full = (empty (.ofVersion .generic)).run [.load .headers file])
    (hsplit : split = full.run [.splitSection 0 "a" "b" 0]) :
    full.sections.length = 0xFFFF ∧ split.sections.length = 0x10000 := by
  obtain ⟨nt, hnt, hcount, htable, hsa, hfa⟩ := capture_full hread hsize
  have hin : nt.tableOffset ≤ file.size := by
    rw [htable, hsize]
    decide
  have hcaptured : full = (nt.captureSectionTable file).1 := by
    rw [hfull, ← hnt]
    exact fst_loadTo_headers (empty (.ofVersion .generic)) file
  have hsections : full.sections = (nt.captureSections file).2 := by
    rw [hcaptured, sections_captureSectionTable hin]
  have hoptional : full.optional = nt.optional := by rw [hcaptured, captureSectionTable_frame]
  have hlength : nt.tableLength file.size = 0xFFFF := by
    rw [tableLength, hcount, htable, hsize]
    rfl
  have hfirst : full.section? 0 = some (nt.captureSection file 184).2 := by
    rw [section?, hsections, getElem?_captureSections_zero (by rw [hlength]; decide), htable]
  have hvirtual : (nt.captureSection file 184).2.virtualSize ≠ 0 := by
    obtain ⟨-, -, -, -, -, -, -, -, hpage⟩ := spelled_fullHeaders
    show u32At file 192 ≠ 0
    rw [u32At_full hread, hpage]
    decide
  obtain ⟨image, himage⟩ := exists_splitSection_zero (by rw [hoptional, hfa]; decide)
    (by rw [hoptional, hsa]; decide) hfirst hvirtual "a" "b"
  have hafter : split = image := by
    rw [hsplit]
    show full.orElse (full.splitSection 0 "a" "b" 0) = image
    rw [himage, orElse]
  have hall : full.sections.length = 0xFFFF := by
    rw [hsections, length_captureSections, hlength]
  exact ⟨hall, by rw [hafter, length_of_splitSection himage, hall]⟩

end Full

/-- The table of the file is full, and yet its first section is split in two. The recomputed headers
then count no sections at all. -/
theorem splits_fullFile :
    let full := (empty (.ofVersion .generic)).run [.load .headers fullFile]
    let split := full.run [.splitSection 0 "a" "b" 0]
    full.sections.length = 0xFFFF ∧ split.sections.length = 0x10000 ∧
      split.makeValid.file.sectionCount = 0 := by
  obtain ⟨hfull, hlong⟩ := splits_full byteAt_fullFile size_fullFile rfl rfl
  refine ⟨hfull, hlong, UInt16.toNat_inj.mp ?_⟩
  rw [toNat_sectionCount_makeValid, hlong]
  rfl

end Image

end PeImage
