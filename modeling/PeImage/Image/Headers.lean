/-
Capture and validation of the NT headers.

Only a missing signature ends the capture. Everything else is recorded, and the capture goes on with
whatever the file holds; what it does not hold counts as zero.

* `Image.captureFileHeader`, `Image.captureOptionalHeader`: reading the two headers.
* `Image.headerRules`: the rules that the headers must satisfy, in the order in which a violation is
  recorded.
* `Image.captureNtHeaders`: the whole step.
-/
import PeImage.Image.Basic

namespace PeImage

namespace Image

/-! ### The file header -/

/-- Reads the file header behind the signature at `start`, and records what is wrong with it. A
header that the end of the file cuts or touches is not read. -/
def captureFileHeader (image : Image) (file : ByteArray) (start : Nat) : Image :=
  let off := start + ntSignatureSize
  let complete := decide (off + FileHeader.size < file.size)
  let header := if complete then FileHeader.ofBytes file off else {}
  { image with
    file := header
    latch := image.latch.check
      [(!complete, .headersOutOfFile),
       (header.machine == 0 && header.optionalSize == 0, .fileHeaderInvalid),
       (!header.has .executableImage, .notExecutable),
       (decide (header.sectionCount.toNat > image.config.maxSections), .notExecutable),
       (decide (start + optionalStart + header.optionalSize.toNat ≥ UInt32.size),
         .headerEndOverflow)] }

/-! ### The optional header -/

/-- The layout of the optional header at `off`. It follows the magic number and not the declared
size; a magic number that the end of the file cuts or touches counts as narrow. -/
def layoutAt (file : ByteArray) (off : Nat) : Layout :=
  if off + 2 < file.size ∧ u16At file off = Layout.wide.magic then .wide else .narrow

/-- The number of directories, of `n` declared ones, of which at least one byte lies in a file of
`fileSize` bytes, when the first of them is at `first`. A file that ends before the first directory
leaves the declared number as it is. -/
def directoriesInFile (n first fileSize : Nat) : Nat :=
  if first < fileSize ∧ first + n * Directory.entrySize > fileSize then
    (fileSize - first + (Directory.entrySize - 1)) / Directory.entrySize
  else n

/-- Reads the optional header at `off`, with the offsets that tools need. -/
def captureOptionalHeader (image : Image) (file : ByteArray) (off : Nat) : Image :=
  let l := layoutAt file off
  let header := OptionalHeader.ofBytes l file off
  { image with
    optional := header
    latch := image.latch.check
      [(l == .narrow && header.magic != Layout.narrow.magic, .optionalMagicInvalid)]
    presentDirectories := UInt32.ofNat
      (directoriesInFile header.directoryCount.toNat (off + l.directoriesOffset) file.size)
    checksumOffset := UInt32.ofNat (off + l.checksumOffset)
    securityOffset := UInt32.ofNat (off + l.directoryOffset .security) }

/-! ### Validation -/

/-- Whether the image asks for an app container without being relocatable, which only x86 machines
care about. -/
def isBadAppContainer (image : Image) : Bool :=
  (image.file.machine == Machine.i386 || image.file.machine == Machine.amd64) &&
    image.optional.has .appContainer && image.file.has .relocsStripped

/-- Whether the machine runs images of the narrow layout. -/
def isMachine32 (image : Image) : Bool :=
  image.file.machine == Machine.i386 ||
    (image.file.machine == Machine.armNt && image.config.armImages)

/-- Whether the machine runs images of the wide layout. -/
def isMachine64 (image : Image) : Bool :=
  image.file.machine == Machine.amd64 || image.file.machine == Machine.ia64 ||
    (image.file.machine == Machine.arm64 && image.config.armImages)

/-- The rules for the optional header, each as the condition of its violation. -/
def headerRules (image : Image) : List (Bool × Diagnostic) :=
  let h := image.optional
  [(image.config.checksAppContainer && image.isBadAppContainer, .notExecutable),
   (!image.isFlat && h.sizeOfHeaders == 0, .sizeOfHeadersZero),
   (h.fileAlignment == 0, .fileAlignmentZero),
   (!isPowerOfTwoOrZero h.fileAlignment, .fileAlignmentNotPowerOfTwo),
   (h.sectionAlignment == 0, .sectionAlignmentZero),
   (!isPowerOfTwoOrZero h.sectionAlignment, .sectionAlignmentNotPowerOfTwo),
   (decide (h.sectionAlignment < h.fileAlignment), .sectionAlignmentTooSmall),
   (h.fileAlignment &&& (sectorSize32 - 1) != 0 && h.sectionAlignment != h.fileAlignment,
     .sectionAlignmentInvalid),
   (decide (h.sizeOfImage > largestImage), .sizeOfImageTooBig),
   (h.magic == Layout.narrow.magic && !image.isMachine32, .machine32Invalid),
   (h.magic == Layout.wide.magic && !image.isMachine64, .machine64Invalid),
   (decide (h.sizeOfHeaders > h.sizeOfImage), .sizeOfHeadersInvalid),
   (image.config.wideHost && image.file.optionalSize &&& 7 != 0, .optionalSizeUnaligned),
   (pagesFor h.sizeOfImage == 0, .sizeOfImageZero),
   (h.imageBase &&& (baseGranularity - 1) != 0, .imageBaseUnaligned)]

/-- Records the first rule that the optional header violates. -/
def verifyHeaders (image : Image) : Image :=
  { image with latch := image.latch.check image.headerRules }

/-! ### The whole step -/

/-- Reads and validates the NT headers. The signature must be there and be followed by at least one
byte. Newer versions stop early, without a fault, where the file is too short for complete narrow
headers. -/
def captureNtHeaders (image : Image) (file : ByteArray) : Image × Except Fault Unit :=
  let start := image.dos.ntOffset.toNat
  if image.config.requiresWholeHeaders && start + optionalStart + Layout.narrow.size > file.size
  then (image.record .headersOutOfFile, .ok ())
  else if start + ntSignatureSize ≥ file.size then
    (image.record .headersOutOfFile, .error .invalidFile)
  else
    let image := { image with ntSignature := u32At file start }
    if image.ntSignature ≠ ntSignatureValue then
      (image.record .signatureMissing, .error .invalidFile)
    else
      let image := image.captureFileHeader file start
      let image := image.captureOptionalHeader file (start + optionalStart)
      (image.verifyHeaders, .ok ())

end Image

end PeImage
