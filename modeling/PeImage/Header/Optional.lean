/-
The optional header, in its 32-bit and its 64-bit layout.

Both layouts decode to one `OptionalHeader`. They agree up to the entry point and on everything
from the section alignment to the characteristics; `Layout` gives the offsets at which they differ,
and tools that patch a field take its offset from there as well.

* `Layout`: the two layouts, their sizes and offsets.
* `OptionalHeader.ofBytes`: the header at a position; bytes past the end of the file count as zero.
* `OptionalHeader.read`: the header at the start of a buffer that must hold all of it.
-/
import PeImage.Header.Directory
import PeImage.Header.Flags
import PeImage.Header.Record

namespace PeImage

/-! ### The layouts -/

/-- How an optional header is laid out. -/
inductive Layout where
  /-- Addresses of four bytes. -/
  | narrow
  /-- Addresses of eight bytes, and no base of data. -/
  | wide
  deriving DecidableEq, Repr, Inhabited

namespace Layout

/-- The magic number with which a header of this layout starts. -/
def magic : Layout → UInt16
  | .narrow => 0x10B
  | .wide => 0x20B

/-- Bytes in the header with all sixteen directories. -/
def size : Layout → Nat
  | .narrow => 224
  | .wide => 240

/-- Bytes in an address. -/
def addressSize : Layout → Nat
  | .narrow => 4
  | .wide => 8

/-- Offset of the image base. -/
def imageBaseOffset : Layout → Nat
  | .narrow => 28
  | .wide => 24

/-- Offset of the checksum. -/
def checksumOffset : Layout → Nat := fun _ => 64

/-- Offset of the first of the four sizes of stack and heap. -/
def stackOffset : Layout → Nat := fun _ => 72

/-- Offset of the loader flags, which follow the sizes of stack and heap. -/
def loaderFlagsOffset (l : Layout) : Nat := l.stackOffset + 4 * l.addressSize

/-- Offset of the number of directories. -/
def directoryCountOffset (l : Layout) : Nat := l.loaderFlagsOffset + 4

/-- Offset of the first directory. -/
def directoriesOffset (l : Layout) : Nat := l.directoryCountOffset + 4

/-- Offset of the entry of a table. -/
def directoryOffset (l : Layout) (k : DirectoryKind) : Nat :=
  l.directoriesOffset + k.index * Directory.entrySize

theorem size_eq (l : Layout) :
    l.size = l.directoriesOffset + DirectoryKind.count * Directory.entrySize := by
  cases l <;> rfl

/-- The address at `off`. -/
def addressAt (l : Layout) (b : ByteArray) (off : Nat) : UInt64 :=
  UInt64.ofNat (natAt b off l.addressSize)

end Layout

/-! ### The header -/

/-- The optional header of either layout. -/
structure OptionalHeader where
  /-- The magic number of the layout. -/
  magic : UInt16 := 0
  /-- Major version of the linker. -/
  linkerMajor : UInt8 := 0
  /-- Minor version of the linker. -/
  linkerMinor : UInt8 := 0
  /-- Size of the code. -/
  sizeOfCode : UInt32 := 0
  /-- Size of the data from the file. -/
  sizeOfInitializedData : UInt32 := 0
  /-- Size of the data that starts as zero. -/
  sizeOfUninitializedData : UInt32 := 0
  /-- Address of the entry point. -/
  entryPoint : UInt32 := 0
  /-- Address of the code. -/
  baseOfCode : UInt32 := 0
  /-- Address of the data, zero in the wide layout. -/
  baseOfData : UInt32 := 0
  /-- The address at which the image wants to be placed. -/
  imageBase : UInt64 := 0
  /-- Alignment of sections in memory. -/
  sectionAlignment : UInt32 := 0
  /-- Alignment of sections in the file. -/
  fileAlignment : UInt32 := 0
  /-- Major version of the operating system. -/
  systemMajor : UInt16 := 0
  /-- Minor version of the operating system. -/
  systemMinor : UInt16 := 0
  /-- Major version of the image. -/
  imageMajor : UInt16 := 0
  /-- Minor version of the image. -/
  imageMinor : UInt16 := 0
  /-- Major version of the subsystem. -/
  subsystemMajor : UInt16 := 0
  /-- Minor version of the subsystem. -/
  subsystemMinor : UInt16 := 0
  /-- Reserved. -/
  win32Version : UInt32 := 0
  /-- Size of the image in memory. -/
  sizeOfImage : UInt32 := 0
  /-- Size of headers and section table. -/
  sizeOfHeaders : UInt32 := 0
  /-- Checksum of the file. -/
  checksum : UInt32 := 0
  /-- The subsystem that runs the image. -/
  subsystem : UInt16 := 0
  /-- The `DllFlag`s. -/
  dllCharacteristics : UInt16 := 0
  /-- Stack to reserve. -/
  stackReserve : UInt64 := 0
  /-- Stack to commit. -/
  stackCommit : UInt64 := 0
  /-- Heap to reserve. -/
  heapReserve : UInt64 := 0
  /-- Heap to commit. -/
  heapCommit : UInt64 := 0
  /-- Reserved. -/
  loaderFlags : UInt32 := 0
  /-- Number of directories that are in use, at most sixteen. -/
  directoryCount : UInt32 := 0
  /-- The directories; those not in use are zero. -/
  directories : Vector Directory DirectoryKind.count := Vector.replicate _ {}
  deriving DecidableEq, Repr

instance : Inhabited OptionalHeader := ⟨{}⟩

namespace OptionalHeader

/-- The number of directories in use that a header of layout `l` at `off` declares. A larger number
than sixteen counts as sixteen. -/
def declaredDirectories (l : Layout) (b : ByteArray) (off : Nat) : Nat :=
  min (natAt b (off + l.directoryCountOffset) 4) DirectoryKind.count

/-- The directories of a header of layout `l` at `off`. -/
def directoriesAt (l : Layout) (b : ByteArray) (off : Nat) :
    Vector Directory DirectoryKind.count :=
  Vector.ofFn fun i =>
    if i < declaredDirectories l b off then
      let entry := off + l.directoriesOffset + i * Directory.entrySize
      ⟨u32At b entry, u32At b (entry + 4)⟩
    else {}

/-- The header of layout `l` that the bytes from `off` on spell. -/
def ofBytes (l : Layout) (b : ByteArray) (off : Nat) : OptionalHeader where
  magic := u16At b off
  linkerMajor := byteAt b (off + 2)
  linkerMinor := byteAt b (off + 3)
  sizeOfCode := u32At b (off + 4)
  sizeOfInitializedData := u32At b (off + 8)
  sizeOfUninitializedData := u32At b (off + 12)
  entryPoint := u32At b (off + 16)
  baseOfCode := u32At b (off + 20)
  baseOfData := match l with
    | .narrow => u32At b (off + 24)
    | .wide => 0
  imageBase := l.addressAt b (off + l.imageBaseOffset)
  sectionAlignment := u32At b (off + 32)
  fileAlignment := u32At b (off + 36)
  systemMajor := u16At b (off + 40)
  systemMinor := u16At b (off + 42)
  imageMajor := u16At b (off + 44)
  imageMinor := u16At b (off + 46)
  subsystemMajor := u16At b (off + 48)
  subsystemMinor := u16At b (off + 50)
  win32Version := u32At b (off + 52)
  sizeOfImage := u32At b (off + 56)
  sizeOfHeaders := u32At b (off + 60)
  checksum := u32At b (off + l.checksumOffset)
  subsystem := u16At b (off + 68)
  dllCharacteristics := u16At b (off + 70)
  stackReserve := l.addressAt b (off + l.stackOffset)
  stackCommit := l.addressAt b (off + l.stackOffset + l.addressSize)
  heapReserve := l.addressAt b (off + l.stackOffset + 2 * l.addressSize)
  heapCommit := l.addressAt b (off + l.stackOffset + 3 * l.addressSize)
  loaderFlags := u32At b (off + l.loaderFlagsOffset)
  directoryCount := UInt32.ofNat (declaredDirectories l b off)
  directories := directoriesAt l b off

/-- Reads a header of layout `l` from the start of a buffer, which must hold all of it. -/
def read (l : Layout) (b : ByteArray) : Except Fault OptionalHeader :=
  if l.size ≤ b.size then .ok (ofBytes l b 0) else .error .outOfBounds

/-- The layout that the magic number names; a number that names neither counts as narrow. -/
def layout (h : OptionalHeader) : Layout :=
  if h.magic = Layout.wide.magic then .wide else .narrow

/-- Whether the header is of the wide layout. -/
def isWide (h : OptionalHeader) : Bool := h.layout == .wide

/-- Whether a characteristic is set. -/
def has (h : OptionalHeader) (f : DllFlag) : Bool :=
  BitFlag.isSet h.dllCharacteristics.toUInt32 f

/-- The characteristics that are set. -/
def flags (h : OptionalHeader) : List DllFlag :=
  BitFlag.setIn DllFlag h.dllCharacteristics.toUInt32

/-- The directory at a position, if there is room for it. -/
def directory? (h : OptionalHeader) (i : Nat) : Option Directory := h.directories[i]?

end OptionalHeader

end PeImage
