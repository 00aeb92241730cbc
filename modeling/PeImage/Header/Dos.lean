/-
The DOS header, with which every image starts.

Only the signature and the offset of the NT headers matter to the loader; the rest is kept so that
the header can be written back.
-/
import PeImage.Diagnostic
import PeImage.Header.Record

namespace PeImage

/-- The header of the DOS program in front of an image. -/
structure DosHeader where
  /-- The letters `MZ`. -/
  magic : UInt16 := 0
  /-- Bytes on the last page. -/
  lastPageBytes : UInt16 := 0
  /-- Pages in the file. -/
  pages : UInt16 := 0
  /-- Number of relocations. -/
  relocations : UInt16 := 0
  /-- Size of the header in paragraphs. -/
  headerParagraphs : UInt16 := 0
  /-- Least number of extra paragraphs. -/
  minParagraphs : UInt16 := 0
  /-- Greatest number of extra paragraphs. -/
  maxParagraphs : UInt16 := 0
  /-- Initial stack segment. -/
  stackSegment : UInt16 := 0
  /-- Initial stack pointer. -/
  stackPointer : UInt16 := 0
  /-- Checksum. -/
  checksum : UInt16 := 0
  /-- Initial instruction pointer. -/
  instructionPointer : UInt16 := 0
  /-- Initial code segment. -/
  codeSegment : UInt16 := 0
  /-- Offset of the relocation table. -/
  relocationTable : UInt16 := 0
  /-- Number of the overlay. -/
  overlay : UInt16 := 0
  /-- Reserved. -/
  reserved : Vector UInt16 4 := Vector.replicate 4 0
  /-- Identifier of the manufacturer. -/
  oemId : UInt16 := 0
  /-- Information for the manufacturer. -/
  oemInfo : UInt16 := 0
  /-- Reserved. -/
  reservedTail : Vector UInt16 10 := Vector.replicate 10 0
  /-- Offset of the NT headers. -/
  ntOffset : UInt32 := 0
  deriving DecidableEq, Repr

instance : Inhabited DosHeader := ⟨{}⟩

namespace DosHeader

/-- Bytes in the header. -/
def size : Nat := 64

/-- The signature `MZ`. -/
def signature : UInt16 := 0x5A4D

/-- The header that the first bytes of a buffer spell. -/
def ofBytes (b : ByteArray) : DosHeader where
  magic := u16At b 0
  lastPageBytes := u16At b 2
  pages := u16At b 4
  relocations := u16At b 6
  headerParagraphs := u16At b 8
  minParagraphs := u16At b 10
  maxParagraphs := u16At b 12
  stackSegment := u16At b 14
  stackPointer := u16At b 16
  checksum := u16At b 18
  instructionPointer := u16At b 20
  codeSegment := u16At b 22
  relocationTable := u16At b 24
  overlay := u16At b 26
  reserved := Vector.ofFn fun i => u16At b (28 + 2 * i)
  oemId := u16At b 36
  oemInfo := u16At b 38
  reservedTail := Vector.ofFn fun i => u16At b (40 + 2 * i)
  ntOffset := u32At b 60

/-- Reads the header at the start of a buffer. -/
def read (b : ByteArray) : Except Fault DosHeader :=
  if size ≤ b.size then .ok (ofBytes b) else .error .outOfBounds

/-- The fields in front of the reserved ones. -/
def words (h : DosHeader) : List UInt16 :=
  [h.magic, h.lastPageBytes, h.pages, h.relocations, h.headerParagraphs, h.minParagraphs,
   h.maxParagraphs, h.stackSegment, h.stackPointer, h.checksum, h.instructionPointer,
   h.codeSegment, h.relocationTable, h.overlay]

/-- The fields in the order in which they are stored. -/
def fields (h : DosHeader) : List Field :=
  h.words.map .u16 ++ h.reserved.toList.map .u16 ++ [.u16 h.oemId, .u16 h.oemInfo] ++
    h.reservedTail.toList.map .u16 ++ [.u32 h.ntOffset]

/-- Writes the header to the start of a buffer. -/
def write (h : DosHeader) (b : ByteArray) : ByteArray × Except Fault Unit :=
  writeFields b 0 h.fields

/-- Whether an input of `fileSize` bytes with this header is an image: signature, alignment of the
NT headers, and their offset, in this order. A refusal carries the problem to record, except that a
missing signature has none. -/
def verify (h : DosHeader) (fileSize : Nat) : Except (Option Diagnostic) Unit :=
  if h.magic ≠ signature then .error none
  else if h.ntOffset.toNat % 4 ≠ 0 then .error (some .headerOffsetUnaligned)
  else if h.ntOffset.toNat > fileSize then .error (some .headerOffsetOutOfFile)
  else .ok ()

end DosHeader

end PeImage
