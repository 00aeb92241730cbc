/-
The rules for where sections lie, in memory and in the file.

The sections of a section-granular image tile the memory behind the headers, each from the end of
the one before it, and must not use up more pages than the size of image provides. A flat image is
mapped as it is in the file, so each of its sections must lie in memory where it lies in the file.

* `Frontier`: how far the memory is taken, and the number of pages left. The number of pages counts
  modulo `2 ^ 32`, which is why an earlier violation can hide a later one.
* `Image.sectionRules`: the rules for one section.
* `Image.verifySections`: all rules, recorded in order; at the end those for the size of image and
  for raw data behind the end of the file.
-/
import PeImage.Image.SectionTable

namespace PeImage

/-- How far the memory of an image is taken by headers and sections. -/
structure Frontier where
  /-- The first address that is not taken. -/
  next : Nat
  /-- The number of pages that the size of image leaves. -/
  free : UInt32

namespace SectionHeader

/-- The end of the raw data in the file, modulo `2 ^ 32`. -/
def dataEnd (s : SectionHeader) : UInt32 := s.dataPointer + s.rawSize

/-- The number of pages that a section takes when sections have the given alignment. -/
def pagesTaken (s : SectionHeader) (alignment : UInt32) : UInt32 :=
  alignUp s.effectiveSize alignment / pageSize32

/-- Whether the end of the file cuts the raw data. -/
def isCut (s : SectionHeader) (fileSize : Nat) : Bool :=
  s.dataPointer != 0 && decide (s.dataEnd.toNat > fileSize)

end SectionHeader

namespace Image

/-! ### One section -/

/-- The rules for a section of a flat image. -/
def flatRules (s : SectionHeader) : List (Bool × Diagnostic) :=
  [(decide (s.dataEnd < s.dataPointer), .rawDataOverflow),
   (s.virtualAddress != s.dataPointer || decide (s.rawSize < s.effectiveSize),
     .flatLayoutMismatch)]

/-- The rules for a section of a section-granular image, which begins at the frontier. `isLast`
says whether it is the last one that the file header declares. -/
def granularRules (image : Image) (fileSize : Nat) (f : Frontier) (s : SectionHeader)
    (isLast : Bool) : List (Bool × Diagnostic) :=
  [(decide (s.dataEnd < s.dataPointer), .rawDataOverflow),
   (f.next != s.virtualAddress.toNat, .sectionAddressInvalid),
   (s.effectiveSize == 0, .sectionSizeInvalid),
   (decide (s.effectiveSize + (pageSize32 - 1) ≤ s.effectiveSize), .sectionSizeInvalid),
   (decide (s.pagesTaken image.optional.sectionAlignment > f.free), .sectionSizeInvalid),
   (decide (alignUp s.dataEnd image.optional.fileAlignment < s.dataPointer),
     .sectionRawSizeInvalid),
   (isLast && s.rawSize != 0 && decide ((s.rawPointer + s.rawSize).toNat > fileSize),
     .fileIsCut)]

/-- The rules for a section. -/
def sectionRules (image : Image) (fileSize : Nat) (f : Frontier) (s : SectionHeader)
    (isLast : Bool) : List (Bool × Diagnostic) :=
  if image.isFlat then flatRules s else image.granularRules fileSize f s isLast

/-- The frontier behind a section. A flat image has none. -/
def advance (image : Image) (f : Frontier) (s : SectionHeader) : Frontier :=
  if image.isFlat then f
  else
    let taken := s.pagesTaken image.optional.sectionAlignment
    ⟨f.next + taken.toNat * pageSize, f.free - taken⟩

/-! ### The headers -/

/-- The number of pages that the headers of a section-granular image take. -/
def headerPages (image : Image) : UInt32 :=
  alignUp image.optional.sizeOfHeaders image.optional.sectionAlignment / pageSize32

/-- The rules for the size of headers of a section-granular image. -/
def headerSizeRules (image : Image) : List (Bool × Diagnostic) :=
  let h := image.optional
  [(!image.isFlat && decide (h.sizeOfHeaders + (h.sectionAlignment - 1) < h.sizeOfHeaders),
     .sizeOfHeadersOverflow),
   (!image.isFlat && decide (image.headerPages > pagesFor h.sizeOfImage), .sizeOfHeadersInvalid)]

/-- The frontier in front of the first section. -/
def firstFrontier (image : Image) : Frontier :=
  let pages := pagesFor image.optional.sizeOfImage
  if image.isFlat then ⟨0, pages - image.alignedSize / pageSize32⟩
  else ⟨image.headerPages.toNat * pageSize, pages - image.headerPages⟩

/-! ### The whole table -/

/-- Verifies sections of which the first has position `index` and begins at `f`. -/
def verifyFrom (image : Image) (fileSize : Nat) (latch : Latch) (f : Frontier) (index : Nat) :
    List SectionHeader → Latch × Frontier
  | [] => (latch, f)
  | s :: rest =>
    let isLast := index + 1 == image.file.sectionCount.toNat
    verifyFrom image fileSize (latch.check (image.sectionRules fileSize f s isLast))
      (image.advance f s) (index + 1) rest

/-- The number of pages that the sections may leave of the size of image, and one more. -/
def slack (image : Image) : UInt32 :=
  if image.isFlat then 1 else image.optional.sectionAlignment / pageSize32

/-- Whether the raw data of the last section lies within the file. -/
def lastWithinFile (sections : List SectionHeader) (fileSize : Nat) : Bool :=
  match sections.getLast? with
  | some s => s.rawSize == 0 || decide (s.dataEnd.toNat ≤ fileSize)
  | none => false

/-- The rules that need the whole table: the size of image, and raw data that the end of the file
cuts. A flat image loads all the same, and so does one of which only earlier sections are cut. -/
def tableRules (image : Image) (fileSize : Nat) (f : Frontier) (sections : List SectionHeader) :
    List (Bool × Diagnostic) :=
  let cut := sections.any fun s => s.isCut fileSize
  let harmless := image.isFlat || lastWithinFile sections fileSize
  [(image.config.sizeOfImageMustMatch && decide (f.free ≥ image.slack), .sizeOfImageInvalid),
   (cut && harmless, .fileIsCutLoadable),
   (cut && !harmless, .fileIsCut)]

/-- Records the first rule that the captured sections violate. -/
def verifySections (image : Image) (fileSize : Nat) : Image :=
  let latch := image.latch.check image.headerSizeRules
  let (latch, f) := image.verifyFrom fileSize latch image.firstFrontier 0 image.sections
  { image with latch := latch.check (image.tableRules fileSize f image.sections) }

/-- Captures and verifies the section table: the image, and the file after the clearing. A table
that starts behind the end of the file is not looked at. -/
def captureSectionTable (image : Image) (file : ByteArray) : Image × ByteArray :=
  if image.tableOffset > file.size then (image.record .sectionTableOutOfFile, file)
  else
    let (file, sections) := image.captureSections file
    ({ image with sections := sections }.verifySections file.size, file)

end Image

end PeImage
