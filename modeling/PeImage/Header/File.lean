/-
The file header: machine, number of sections and characteristics of an image.
-/
import PeImage.Header.Flags
import PeImage.Header.Record

namespace PeImage

/-- The header behind the NT signature. -/
structure FileHeader where
  /-- The processor that runs the image. -/
  machine : UInt16 := 0
  /-- Number of section headers. -/
  sectionCount : UInt16 := 0
  /-- Seconds since 1970 at which the image was linked. -/
  timestamp : UInt32 := 0
  /-- Offset of the symbol table in the file. -/
  symbolTable : UInt32 := 0
  /-- Number of symbols. -/
  symbolCount : UInt32 := 0
  /-- Size of the optional header, which places the section table. -/
  optionalSize : UInt16 := 0
  /-- The `FileFlag`s. -/
  characteristics : UInt16 := 0
  deriving DecidableEq, Repr

instance : Inhabited FileHeader := ⟨{}⟩

namespace FileHeader

/-- Bytes in the header. -/
def size : Nat := 20

/-- The header that the bytes from `off` on spell. -/
def ofBytes (b : ByteArray) (off : Nat) : FileHeader where
  machine := u16At b off
  sectionCount := u16At b (off + 2)
  timestamp := u32At b (off + 4)
  symbolTable := u32At b (off + 8)
  symbolCount := u32At b (off + 12)
  optionalSize := u16At b (off + 16)
  characteristics := u16At b (off + 18)

/-- Reads the header at `off`. -/
def read (b : ByteArray) (off : Nat) : Except Fault FileHeader :=
  if off + size ≤ b.size then .ok (ofBytes b off) else .error .outOfBounds

/-- The fields in the order in which they are stored. -/
def fields (h : FileHeader) : List Field :=
  [.u16 h.machine, .u16 h.sectionCount, .u32 h.timestamp, .u32 h.symbolTable, .u32 h.symbolCount,
   .u16 h.optionalSize, .u16 h.characteristics]

/-- Writes the header at `off`. -/
def write (h : FileHeader) (b : ByteArray) (off : Nat) : ByteArray × Except Fault Unit :=
  writeFields b off h.fields

/-- Whether a characteristic is set. -/
def has (h : FileHeader) (f : FileFlag) : Bool := BitFlag.isSet h.characteristics.toUInt32 f

/-- The characteristics that are set. -/
def flags (h : FileHeader) : List FileFlag := BitFlag.setIn FileFlag h.characteristics.toUInt32

end FileHeader

end PeImage
