/-
Building the pages of an image from the bytes of its file.

A section-granular image is mapped region by region: the headers at address zero, then each section
at its address. Within a region, pages that the file backs come first and pages of zeros follow.
What no region covers stays inaccessible. A flat image is one region that lays the file over the
memory byte by byte.

* `Region`: a stretch of memory with the stretch of the file behind it; `Region.page` is the page at
  each position of it, and `Region.place` puts them into a table.
* `Image.flatPages`, `Image.granularPages`: the table of an image.
* `Image.buildPages`: the whole step. A section that finds no place leaves the image without pages.
-/
import PeImage.Image.Headers
import PeImage.Image.Placement

namespace PeImage

/-! ### Regions -/

/-- A stretch of the memory of an image, with what backs it. -/
structure Region where
  /-- The address. -/
  address : UInt32
  /-- The size in memory; zero stands for the size in the file. -/
  virtualSize : UInt32
  /-- The offset in the file. -/
  rawPointer : UInt32
  /-- The size in the file. -/
  rawSize : UInt32
  /-- The protection of the pages. -/
  protection : PageProtection
  /-- Whether the region holds the headers, whose end is exact and not rounded to the alignment of
  the file. -/
  isHeader : Bool

namespace Region

/-- The region of a section. -/
def ofSection (s : SectionHeader) : Region where
  address := s.virtualAddress
  virtualSize := s.virtualSize
  rawPointer := s.rawPointer
  rawSize := s.rawSize
  protection := s.protection
  isHeader := false

/-- The region of `size` bytes from the start of both file and memory. -/
def ofHeaders (size : UInt32) : Region where
  address := 0
  virtualSize := size
  rawPointer := 0
  rawSize := size
  protection := .readOnly
  isHeader := true

/-- The size in memory, in whole pages. -/
def size (r : Region) : UInt32 :=
  alignUp (if r.virtualSize ≠ 0 then r.virtualSize else r.rawSize) pageSize32

/-- The number of bytes from the file that the size in memory has room for. -/
def dataSize (r : Region) : UInt32 := min r.rawSize r.size

/-- The number of pages. -/
def pageCount (r : Region) : Nat := r.size.toNat / pageSize

/-- The number of pages that the file backs. A region at offset zero of the file has none, unless it
holds the headers. -/
def dataPageCount (r : Region) : Nat :=
  if r.rawPointer ≠ 0 ∨ r.isHeader = true then (alignUp r.dataSize pageSize32).toNat / pageSize
  else 0

/-- The offset in the file of the first page. Raw data is addressed in whole sectors. -/
def dataStart (r : Region) : Nat := (alignDown r.rawPointer sectorSize32).toNat

/-- The offset in the file at which the data of the region ends. -/
def dataEnd (r : Region) (fileAlignment : UInt32) : Nat :=
  if r.isHeader then r.dataStart + r.dataSize.toNat
  else (alignUp (r.rawPointer + r.dataSize) fileAlignment).toNat

/-- The page at position `k` of the region. A page that the file backs holds bytes up to the end of
the data, the end of the file or the end of the page, and zeros behind them; one that begins behind
the end of the file is a page of zeros. -/
def page (r : Region) (file : ByteArray) (fileAlignment : UInt32) (k : Nat) : Page :=
  let off := r.dataStart + k * pageSize
  if k < r.dataPageCount ∧ off < file.size then
    .ofBytes (window file off (min pageSize (r.dataEnd fileAlignment - off)))
  else .zero

/-- The position in a table of the first page of the region. -/
def firstPage (r : Region) : Nat := r.address.toNat / pageSize

/-- Puts the pages of the region into a table, none for a region without access. Fails where the
table is too short. -/
def fill (r : Region) (file : ByteArray) (fileAlignment : UInt32) (pages : Array Page) :
    Option (Array Page) :=
  if r.protection = .noAccess ∨ r.pageCount = 0 then some pages
  else if r.firstPage + r.pageCount ≤ pages.size then
    some <| r.pageCount.fold
      (fun k _ pages => pages.setIfInBounds (r.firstPage + k) (r.page file fileAlignment k)) pages
  else none

/-- Puts the region into a table: the table, and the address at which the next region is due. An
address that wraps to zero is a failure like a table that is too short. -/
def place (r : Region) (file : ByteArray) (h : OptionalHeader) (pages : Array Page) :
    Option (Array Page × UInt32) :=
  match r.fill file h.fileAlignment pages with
  | none => none
  | some pages =>
    let next := r.address + alignUp r.size h.sectionAlignment
    if next = 0 then none else some (pages, next)

end Region

namespace Image

/-! ### Flat images -/

/-- The size of a flat image in memory, at least one page. -/
def flatSize (image : Image) : UInt32 :=
  let size := alignUp image.optional.sizeOfImage image.config.flatGranularity
  let size := if image.config.wideHost then alignUp size pageSize32 else size
  max size pageSize32

/-- The pages of a flat image: the file from its start, with full access. -/
def flatPages (image : Image) (file : ByteArray) : Option (Array Page) :=
  let region := { Region.ofHeaders image.flatSize with protection := .executeWriteCopy }
  let pages := Array.replicate (pagesFor image.flatSize).toNat .inaccessible
  (region.place file image.optional pages).map (·.1)

/-! ### Section-granular images -/

/-- Whether the section table leaves the first page, as far as the oldest rules can tell: the offset
of the NT headers counts twice. -/
def tableLeavesFirstPage (image : Image) : Bool :=
  let start := image.dos.ntOffset
  let upToTable := UInt32.ofNat (optionalStart + image.file.optionalSize.toNat)
  let table := UInt32.ofNat ((image.file.sectionCount.toNat + 1) * SectionHeader.size)
  start + upToTable + table > pageSize32 - start

/-- The size of the headers in memory. -/
def mappedHeaderSize (image : Image) : UInt32 :=
  let h := image.optional
  if image.config.extendsHeaderPage && image.tableLeavesFirstPage then
    alignUp h.sizeOfHeaders h.sectionAlignment
  else h.sizeOfHeaders

/-- Places sections one after the other. -/
def placeSections (file : ByteArray) (h : OptionalHeader) (pages : Array Page) :
    List SectionHeader → Option (Array Page)
  | [] => some pages
  | s :: rest =>
    match (Region.ofSection s).place file h pages with
    | some (pages, _) => placeSections file h pages rest
    | none => none

/-- Whether the headers alone, which end at `headerEnd`, make up the image. -/
def headersSpanImage (image : Image) (headerEnd : UInt32) : Bool :=
  let h := image.optional
  headerEnd ≤ h.sizeOfImage && h.sizeOfImage - headerEnd ≤ h.sectionAlignment

/-- The pages of a section-granular image. Headers without a place are a fault. A section without a
place is a problem and leaves an empty table. An image without sections that its headers do not
make up is a problem too, but its table stands. -/
def granularPages (image : Image) (file : ByteArray) : Image × Except Fault (Array Page) :=
  let h := image.optional
  let pages := Array.replicate (image.alignedSize.toNat / pageSize) .inaccessible
  match (Region.ofHeaders image.mappedHeaderSize).place file h pages with
  | none => (image, .error .invalidFile)
  | some (pages, headerEnd) =>
    if image.sections.isEmpty then
      if image.headersSpanImage headerEnd then (image, .ok pages)
      else (image.record .sizeOfImageInvalid, .ok pages)
    else
      match placeSections file h pages image.sections with
      | some pages => (image, .ok pages)
      | none => (image.record .sectionAddressInvalid, .ok #[])

/-- The pages of an image. -/
def buildPages (image : Image) (file : ByteArray) : Image × Except Fault (Array Page) :=
  if image.isFlat then
    match image.flatPages file with
    | some pages => (image, .ok pages)
    | none => (image, .error .invalidFile)
  else image.granularPages file

end Image

end PeImage
