/-
The state of a loaded image, and what can be asked about it without touching its contents.

* `Contents`: what the load left behind to be read: nothing, pages, or the bytes of a file that
  could not be mapped.
* `Image`: the captured headers with contents, rules and the register of problems.
* `Image.isLoadable`, `Image.isMapped`: the verdict of a load.
* `HeaderField`, `Image.fieldOffset`: where tools find a field, counted from the NT headers.
-/
import PeImage.Config
import PeImage.Diagnostic
import PeImage.Header.Dos
import PeImage.Header.File
import PeImage.Header.Optional
import PeImage.Header.Section
import PeImage.Memory

namespace PeImage

/-! ### The state -/

/-- What can be read of a loaded image. -/
inductive Contents where
  /-- Nothing. -/
  | unmapped
  /-- The pages of the image in memory. -/
  | mapped (pages : Array Page)
  /-- The bytes of the file, for an image that is not mapped. -/
  | raw (file : ByteArray)

instance : Inhabited Contents := ⟨.unmapped⟩

/-- A loaded image. -/
structure Image where
  /-- The rules of its loads. -/
  config : Config
  /-- The first problem of the last load. -/
  latch : Latch := {}
  /-- The DOS header. -/
  dos : DosHeader := {}
  /-- The signature of the NT headers. -/
  ntSignature : UInt32 := 0
  /-- The file header. -/
  file : FileHeader := {}
  /-- The optional header. -/
  optional : OptionalHeader := {}
  /-- The section headers. -/
  sections : List SectionHeader := []
  /-- What can be read. -/
  contents : Contents := .unmapped
  /-- The number of directories of which at least one byte lies in the file. -/
  presentDirectories : UInt32 := 0
  /-- Offset of the checksum in the file. -/
  checksumOffset : UInt32 := 0
  /-- Offset of the directory of certificates in the file. -/
  securityOffset : UInt32 := 0

namespace Image

/-- The state before anything is loaded. -/
def empty (config : Config) : Image where
  config := config

instance : Inhabited Image := ⟨empty default⟩

/-- Records a problem. -/
def record (image : Image) (d : Diagnostic) : Image :=
  { image with latch := image.latch.record d }

/-! ### Sizes and layout -/

/-- The letters `PE` and two zeros. -/
def ntSignatureValue : UInt32 := 0x4550

/-- Bytes in the signature of the NT headers. -/
def ntSignatureSize : Nat := 4

/-- Bytes in front of the optional header, counted from the NT headers. -/
def optionalStart : Nat := ntSignatureSize + FileHeader.size

/-- Whether the image is mapped as one flat piece, because its sections are not aligned to pages. -/
def isFlat (image : Image) : Bool := image.optional.sectionAlignment < pageSize32

/-- The size of image in whole pages. -/
def alignedSize (image : Image) : UInt32 := alignUp image.optional.sizeOfImage pageSize32

/-- The layout of the optional header. -/
def layout (image : Image) : Layout := image.optional.layout

/-- Bits in an address of the image. -/
def bits (image : Image) : Nat := 8 * image.layout.addressSize

/-- The bit that marks an import by number. -/
def ordinalMask (image : Image) : UInt64 :=
  match image.layout with
  | .narrow => 0x80000000
  | .wide => 0x8000000000000000

/-! ### The verdict -/

/-- The first problem of the last load. -/
def problem? (image : Image) : Option Diagnostic := image.latch.first

/-- Whether nothing, or only a harmless cut, is recorded. -/
def isLoadable (image : Image) : Bool := image.latch.isLoadable

/-- The pages, none for an image that is not mapped. -/
def pages (image : Image) : Array Page :=
  match image.contents with
  | .mapped pages => pages
  | .unmapped | .raw _ => #[]

/-- The number of pages. -/
def pageCount (image : Image) : Nat := image.pages.size

/-- The page at a position. -/
def page? (image : Image) (i : Nat) : Option Page := image.pages[i]?

/-- Whether the image is loadable and mapped. -/
def isMapped (image : Image) : Bool := image.isLoadable && image.pageCount != 0

/-- The memory that a table of pages makes up under the size of image. -/
def memoryOf (image : Image) (pages : Array Page) : Memory := ⟨pages, image.alignedSize.toNat⟩

/-- The memory of the image. -/
def memory (image : Image) : Memory := image.memoryOf image.pages

/-! ### Directories and sections -/

/-- The directory at a position, zero where there is none. -/
def directory (image : Image) (i : Nat) : Directory := (image.optional.directory? i).getD {}

/-- The section at a position. -/
def section? (image : Image) (i : Nat) : Option SectionHeader := image.sections[i]?

/-- The offset at which the raw data of a section really starts: section-granular images are read
in whole sectors. -/
def dataStart (image : Image) (s : SectionHeader) : UInt32 :=
  if image.isFlat then s.rawPointer else alignDown s.rawPointer sectorSize32

/-! ### Offsets of fields -/

/-- A field that tools patch in the file. -/
inductive HeaderField where
  /-- The size of the optional header, which is a size and no offset. -/
  | optionalHeaderSize
  /-- The number of directories. -/
  | directoryCount
  /-- The first directory. -/
  | directories
  /-- The directory of a table. -/
  | directory (kind : DirectoryKind)
  deriving DecidableEq, Repr

/-- The offset of a field from the NT headers; for the size of the optional header, that size. -/
def fieldOffset (image : Image) : HeaderField → Nat
  | .optionalHeaderSize => image.layout.size
  | .directoryCount => optionalStart + image.layout.directoryCountOffset
  | .directories => optionalStart + image.layout.directoriesOffset
  | .directory kind => optionalStart + image.layout.directoryOffset kind

end Image

end PeImage
