/-
Section headers: where a section lies in the file and in memory.

* `SectionHeader`: the stored fields and the resolved name, which is not stored in the header.
* `SectionHeader.effectiveSize`: the size in memory, for which a virtual size of zero stands for
  the size of the raw data.
* `SectionHeader.shortName`: the name that the eight stored bytes spell.
-/
import PeImage.Header.Protection
import PeImage.Header.Record
import PeImage.Text.Utf8

namespace PeImage

/-- Bytes of a name that is stored in a header. -/
def shortNameSize : Nat := 8

/-- The header of a section. -/
structure SectionHeader where
  /-- The name as stored, filled with zeros. -/
  rawName : Vector UInt8 shortNameSize := Vector.replicate _ 0
  /-- Size in memory. -/
  virtualSize : UInt32 := 0
  /-- Address. -/
  virtualAddress : UInt32 := 0
  /-- Size in the file. -/
  rawSize : UInt32 := 0
  /-- Offset in the file. -/
  rawPointer : UInt32 := 0
  /-- Offset of the relocations in the file. -/
  relocationPointer : UInt32 := 0
  /-- Offset of the line numbers in the file. -/
  lineNumberPointer : UInt32 := 0
  /-- Number of relocations. -/
  relocationCount : UInt16 := 0
  /-- Number of line numbers. -/
  lineNumberCount : UInt16 := 0
  /-- The `SectionFlag`s. -/
  characteristics : UInt32 := 0
  /-- The name shown to a user. -/
  name : String := ""
  deriving DecidableEq, Repr

instance : Inhabited SectionHeader := ⟨{}⟩

namespace SectionHeader

/-- Bytes in a header. -/
def size : Nat := 40

/-- Offset of the raw data pointer in a header. -/
def rawPointerOffset : Nat := 20

/-- The header that the bytes from `off` on spell, without a resolved name. -/
def ofBytes (b : ByteArray) (off : Nat) : SectionHeader where
  rawName := Vector.ofFn fun i => byteAt b (off + i)
  virtualSize := u32At b (off + 8)
  virtualAddress := u32At b (off + 12)
  rawSize := u32At b (off + 16)
  rawPointer := u32At b (off + 20)
  relocationPointer := u32At b (off + 24)
  lineNumberPointer := u32At b (off + 28)
  relocationCount := u16At b (off + 32)
  lineNumberCount := u16At b (off + 34)
  characteristics := u32At b (off + 36)

/-- Reads the header at `off`. -/
def read (b : ByteArray) (off : Nat) : Except Fault SectionHeader :=
  if off + size ≤ b.size then .ok (ofBytes b off) else .error .outOfBounds

/-- The fields in the order in which they are stored; the name is stored byte by byte. -/
def fields (h : SectionHeader) : List Field :=
  h.rawName.toList.map .u8 ++
    [.u32 h.virtualSize, .u32 h.virtualAddress, .u32 h.rawSize, .u32 h.rawPointer,
     .u32 h.relocationPointer, .u32 h.lineNumberPointer, .u16 h.relocationCount,
     .u16 h.lineNumberCount, .u32 h.characteristics]

/-- Writes the header at `off`. -/
def write (h : SectionHeader) (b : ByteArray) (off : Nat) : ByteArray × Except Fault Unit :=
  writeFields b off h.fields

/-- The header under a new name, of which as many bytes are stored as there is room for. -/
def setName (h : SectionHeader) (name : String) : SectionHeader :=
  { h with
    rawName := Vector.ofFn fun i => byteAt name.toUTF8 i
    name := name }

/-- The name that the stored bytes spell, without the zeros among them. -/
def shortName (h : SectionHeader) : String :=
  decodeUtf8List (h.rawName.toList.filter fun b => b != 0)

/-- The size in memory: the virtual size, or the raw size where that is zero. -/
def effectiveSize (h : SectionHeader) : UInt32 :=
  if h.virtualSize ≠ 0 then h.virtualSize else h.rawSize

/-- The offset in the file at which raw data starts, zero for a section without any. -/
def dataPointer (h : SectionHeader) : UInt32 :=
  if h.rawSize ≠ 0 then h.rawPointer else 0

/-- The characteristics that are set. -/
def flags (h : SectionHeader) : List SectionFlag := BitFlag.setIn SectionFlag h.characteristics

/-- The protection of the pages of the section. -/
def protection (h : SectionHeader) : PageProtection :=
  PageProtection.ofCharacteristics h.characteristics

end SectionHeader

end PeImage
