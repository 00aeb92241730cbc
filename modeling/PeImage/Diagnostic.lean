/-
Structural problems of an image, and the register that keeps the first of them.

A problem recorded while an image is captured or mapped does not stop the work; it decides whether
the image counts as loadable afterwards.

* `Diagnostic`: the problems, each with a stable `code` and a one-line `description`;
  `Diagnostic.all` lists them in the order in which they are numbered.
* `Latch`: the register. `Latch.record` keeps an earlier problem over a later one, so what stays is
  the root cause; `Latch.check` records the first violated rule of a list of rules.
-/

namespace PeImage

/-- A structural problem that does not stop the loading of an image. -/
inductive Diagnostic where
  /-- The file has more bytes than 32 bits can count. -/
  | fileTooBig
  /-- The offset of the NT headers is no multiple of four. -/
  | headerOffsetUnaligned
  /-- The offset of the NT headers lies past the end of the file. -/
  | headerOffsetOutOfFile
  /-- The declared end of the NT headers does not fit into 32 bits. -/
  | headerEndOverflow
  /-- The end of the file cuts the NT headers. -/
  | headersOutOfFile
  /-- The NT headers do not start with their signature. -/
  | signatureMissing
  /-- Machine and size of the optional header are both zero. -/
  | fileHeaderInvalid
  /-- Not marked executable, too many sections, or an app container image without relocations. -/
  | notExecutable
  /-- The magic of the optional header names neither layout. -/
  | optionalMagicInvalid
  /-- A section-granular image has headers of size zero. -/
  | sizeOfHeadersZero
  /-- The file alignment is zero. -/
  | fileAlignmentZero
  /-- The file alignment has more than one bit set. -/
  | fileAlignmentNotPowerOfTwo
  /-- The section alignment is zero. -/
  | sectionAlignmentZero
  /-- The section alignment has more than one bit set. -/
  | sectionAlignmentNotPowerOfTwo
  /-- Sections are aligned more loosely in memory than in the file. -/
  | sectionAlignmentTooSmall
  /-- A file alignment below a sector that differs from the section alignment. -/
  | sectionAlignmentInvalid
  /-- The size of image exceeds what the memory manager maps. -/
  | sizeOfImageTooBig
  /-- A PE32 image for a machine that does not run it. -/
  | machine32Invalid
  /-- A PE32+ image for a machine that does not run it. -/
  | machine64Invalid
  /-- The headers are larger than the image. -/
  | sizeOfHeadersInvalid
  /-- On 64-bit Windows, a size of the optional header that is no multiple of eight. -/
  | optionalSizeUnaligned
  /-- The size of image covers no page. -/
  | sizeOfImageZero
  /-- The image base is no multiple of 64 KB. -/
  | imageBaseUnaligned
  /-- The section table starts past the end of the file. -/
  | sectionTableOutOfFile
  /-- The size of headers does not fit into 32 bits once aligned. -/
  | sizeOfHeadersOverflow
  /-- The end of a section's raw data does not fit into 32 bits. -/
  | rawDataOverflow
  /-- A section of a flat image lies elsewhere in memory than in the file. -/
  | flatLayoutMismatch
  /-- A section does not start where the one before it ends, or cannot be placed. -/
  | sectionAddressInvalid
  /-- The virtual size of a section overflows or exceeds the image. -/
  | sectionSizeInvalid
  /-- The aligned end of a section's raw data does not fit into 32 bits. -/
  | sectionRawSizeInvalid
  /-- The sections do not use up the size of image. -/
  | sizeOfImageInvalid
  /-- The end of the file cuts the raw data of the last section. -/
  | fileIsCut
  /-- The end of the file cuts raw data that the image loads without. -/
  | fileIsCutLoadable
  deriving DecidableEq, Repr, Inhabited

namespace Diagnostic

/-- All problems, in the order of their numbers. -/
def all : List Diagnostic :=
  [.fileTooBig, .headerOffsetUnaligned, .headerOffsetOutOfFile, .headerEndOverflow,
   .headersOutOfFile, .signatureMissing, .fileHeaderInvalid, .notExecutable,
   .optionalMagicInvalid, .sizeOfHeadersZero, .fileAlignmentZero, .fileAlignmentNotPowerOfTwo,
   .sectionAlignmentZero, .sectionAlignmentNotPowerOfTwo, .sectionAlignmentTooSmall,
   .sectionAlignmentInvalid, .sizeOfImageTooBig, .machine32Invalid, .machine64Invalid,
   .sizeOfHeadersInvalid, .optionalSizeUnaligned, .sizeOfImageZero, .imageBaseUnaligned,
   .sectionTableOutOfFile, .sizeOfHeadersOverflow, .rawDataOverflow, .flatLayoutMismatch,
   .sectionAddressInvalid, .sectionSizeInvalid, .sectionRawSizeInvalid, .sizeOfImageInvalid,
   .fileIsCut, .fileIsCutLoadable]

/-- The stable name. -/
def code : Diagnostic → String
  | .fileTooBig => "LDR_ERROR_FILE_TOO_BIG"
  | .headerOffsetUnaligned => "LDR_ERROR_E_LFANEW_UNALIGNED"
  | .headerOffsetOutOfFile => "LDR_ERROR_E_LFANEW_OUT_OF_FILE"
  | .headerEndOverflow => "LDR_ERROR_NTHEADER_OFFSET_OVERFLOW"
  | .headersOutOfFile => "LDR_ERROR_NTHEADER_OUT_OF_FILE"
  | .signatureMissing => "LDR_ERROR_NO_NT_SIGNATURE"
  | .fileHeaderInvalid => "LDR_ERROR_FILE_HEADER_INVALID"
  | .notExecutable => "LDR_ERROR_IMAGE_NON_EXECUTABLE"
  | .optionalMagicInvalid => "LDR_ERROR_NO_OPTHDR_MAGIC"
  | .sizeOfHeadersZero => "LDR_ERROR_SIZE_OF_HEADERS_ZERO"
  | .fileAlignmentZero => "LDR_ERROR_FILE_ALIGNMENT_ZERO"
  | .fileAlignmentNotPowerOfTwo => "LDR_ERROR_FILE_ALIGNMENT_NOT_POW2"
  | .sectionAlignmentZero => "LDR_ERROR_SECTION_ALIGNMENT_ZERO"
  | .sectionAlignmentNotPowerOfTwo => "LDR_ERROR_SECTION_ALIGNMENT_NOT_POW2"
  | .sectionAlignmentTooSmall => "LDR_ERROR_SECTION_ALIGNMENT_TOO_SMALL"
  | .sectionAlignmentInvalid => "LDR_ERROR_SECTION_ALIGNMENT_INVALID"
  | .sizeOfImageTooBig => "LDR_ERROR_SIZE_OF_IMAGE_TOO_BIG"
  | .machine32Invalid => "LDR_ERROR_INVALID_MACHINE32"
  | .machine64Invalid => "LDR_ERROR_INVALID_MACHINE64"
  | .sizeOfHeadersInvalid => "LDR_ERROR_SIZE_OF_HEADERS_INVALID"
  | .optionalSizeUnaligned => "LDR_ERROR_SIZE_OF_OPTHDR_NOT_ALIGNED"
  | .sizeOfImageZero => "LDR_ERROR_SIZE_OF_IMAGE_ZERO"
  | .imageBaseUnaligned => "LDR_ERROR_IMAGE_BASE_NOT_ALIGNED"
  | .sectionTableOutOfFile => "LDR_ERROR_SECTION_HEADERS_OUT_OF_IMAGE"
  | .sizeOfHeadersOverflow => "LDR_ERROR_SECTION_HEADERS_OVERFLOW"
  | .rawDataOverflow => "LDR_ERROR_RAW_DATA_OVERFLOW"
  | .flatLayoutMismatch => "LDR_ERROR_SECTION_SIZE_MISMATCH"
  | .sectionAddressInvalid => "LDR_ERROR_INVALID_SECTION_VA"
  | .sectionSizeInvalid => "LDR_ERROR_INVALID_SECTION_VSIZE"
  | .sectionRawSizeInvalid => "LDR_ERROR_INVALID_SECTION_RAWSIZE"
  | .sizeOfImageInvalid => "LDR_ERROR_INVALID_SIZE_OF_IMAGE"
  | .fileIsCut => "LDR_ERROR_FILE_IS_CUT"
  | .fileIsCutLoadable => "LDR_ERROR_FILE_IS_CUT_LOADABLE"

/-- What is wrong, in one line. -/
def description : Diagnostic → String
  | .fileTooBig => "The file is larger than 4 GB"
  | .headerOffsetUnaligned => "The NT header offset is not aligned to 4 bytes"
  | .headerOffsetOutOfFile => "The NT header offset points outside the file"
  | .headerEndOverflow => "The NT header offset plus the header size overflows"
  | .headersOutOfFile => "The NT headers are cut by the end of the file"
  | .signatureMissing => "The NT signature is missing"
  | .fileHeaderInvalid => "The file header is invalid"
  | .notExecutable => "The image is not executable"
  | .optionalMagicInvalid => "The optional header magic is invalid"
  | .sizeOfHeadersZero => "The size of headers is zero"
  | .fileAlignmentZero => "The file alignment is zero"
  | .fileAlignmentNotPowerOfTwo => "The file alignment is not a power of two"
  | .sectionAlignmentZero => "The section alignment is zero"
  | .sectionAlignmentNotPowerOfTwo => "The section alignment is not a power of two"
  | .sectionAlignmentTooSmall => "The section alignment is smaller than the file alignment"
  | .sectionAlignmentInvalid => "The section alignment must equal a file alignment below 512"
  | .sizeOfImageTooBig => "The size of image is too big"
  | .machine32Invalid => "The machine is not supported for 32-bit images"
  | .machine64Invalid => "The machine is not supported for 64-bit images"
  | .sizeOfHeadersInvalid => "The size of headers is larger than the image"
  | .optionalSizeUnaligned => "The size of the optional header is not aligned to 8 bytes"
  | .sizeOfImageZero => "The size of image is zero"
  | .imageBaseUnaligned => "The image base is not aligned to 64 KB"
  | .sectionTableOutOfFile => "The section headers are outside the file"
  | .sizeOfHeadersOverflow => "The size of headers overflows when aligned"
  | .rawDataOverflow => "The raw data of a section overflows"
  | .flatLayoutMismatch => "The section layout differs between file and memory"
  | .sectionAddressInvalid => "The section virtual address is invalid"
  | .sectionSizeInvalid => "The section virtual size is invalid"
  | .sectionRawSizeInvalid => "The section raw size is invalid"
  | .sizeOfImageInvalid => "The size of image does not match the sections"
  | .fileIsCut => "The file is cut"
  | .fileIsCutLoadable => "The file is cut, but still loadable"

/-- Description and name together, for a report. -/
def report (d : Diagnostic) : String := d.description ++ " (" ++ d.code ++ ")"

/-- The problem with the given stable name. -/
def ofCode? (name : String) : Option Diagnostic := all.find? fun d => d.code == name

theorem mem_all (d : Diagnostic) : d ∈ all := by cases d <;> decide

end Diagnostic

/-! ### The register -/

/-- The first problem recorded since the last `clear`, if there was one. -/
structure Latch where
  /-- The recorded problem. -/
  first : Option Diagnostic := none
  deriving DecidableEq, Repr, Inhabited

namespace Latch

/-- Records a problem unless an earlier one is kept. -/
def record (l : Latch) (d : Diagnostic) : Latch := ⟨l.first <|> some d⟩

/-- Records a problem that may be absent. -/
def recordAny (l : Latch) (d : Option Diagnostic) : Latch := ⟨l.first <|> d⟩

/-- Records `d` where `violated` holds. -/
def recordIf (l : Latch) (violated : Bool) (d : Diagnostic) : Latch :=
  if violated then l.record d else l

/-- Records the first rule of the list that is violated. A rule is the condition of its violation
together with the problem it stands for. -/
def check (l : Latch) (rules : List (Bool × Diagnostic)) : Latch :=
  l.recordAny ((rules.find? (·.1)).map (·.2))

/-- Forgets the recorded problem. -/
def clear (_ : Latch) : Latch := {}

/-- Whether an image with this register loads: nothing is recorded, or only a harmless cut. -/
def isLoadable (l : Latch) : Bool :=
  l.first == none || l.first == some .fileIsCutLoadable

@[simp] theorem record_of_some (d e : Diagnostic) : (Latch.mk (some d)).record e = ⟨some d⟩ := rfl

@[simp] theorem record_of_none (d : Diagnostic) : (Latch.mk none).record d = ⟨some d⟩ := rfl

/-- Checking the rules one by one is checking the list. -/
theorem check_eq_foldl (l : Latch) (rules : List (Bool × Diagnostic)) :
    l.check rules = rules.foldl (fun l r => l.recordIf r.1 r.2) l := by
  induction rules generalizing l with
  | nil => cases l with | mk first => cases first <;> rfl
  | cons r rules ih =>
    rw [List.foldl_cons, ← ih]
    obtain ⟨violated, d⟩ := r
    cases l with
    | mk first => cases first <;> cases violated <;> simp [check, recordAny, recordIf, record]

theorem isLoadable_iff (l : Latch) :
    l.isLoadable = true ↔ l.first = none ∨ l.first = some .fileIsCutLoadable := by
  simp [isLoadable]

end Latch

end PeImage
