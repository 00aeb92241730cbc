/-
Reading and writing an image by address.

A mapped image is its memory. An image that is not mapped is served from the bytes of its file: they
begin at the offset that belongs to the address of the first byte. Nothing here fails; a request
out of range moves fewer bytes, or none.

* `Image.read`, `Image.readRaw`, `Image.write`: ranges of bytes.
* `Image.stringLength`, `Image.readString`, `Image.readPointer`, `Image.readCountedString`: values.
* `Image.isValidBlock`, `Image.isAccessible`, `Image.isZeroPage`: questions about addresses.
-/
import PeImage.Image.Span
import PeImage.Text.Utf16

namespace PeImage

namespace Image

/-! ### Ranges -/

/-- The offset in the bytes of a file that is served raw at which an access at an address begins. It
may lie behind the last byte, but not further. -/
def rawOffset? (image : Image) (file : ByteArray) (a : UInt32) : Option Nat :=
  match image.fileOffset? a with
  | some off => if off.toNat ≤ file.size then some off.toNat else none
  | none => none

/-- Reads at most `n` bytes at an address from the file of an image that is served raw. -/
def readRaw (image : Image) (a : UInt32) (n : Nat) : ByteArray :=
  match image.contents with
  | .raw file =>
    match image.rawOffset? file a with
    | some off => window file off n
    | none => .empty
  | .unmapped | .mapped _ => .empty

/-- Reads at most `n` bytes at an address. -/
def read (image : Image) (a : UInt32) (n : Nat) : ByteArray :=
  match image.contents with
  | .mapped pages => (image.memoryOf pages).read a.toNat n
  | .raw _ => image.readRaw a n
  | .unmapped => .empty

/-- Writes bytes at an address: the image, and the number of bytes consumed. -/
def write (image : Image) (a : UInt32) (src : ByteArray) : Image × Nat :=
  match image.contents with
  | .mapped pages =>
    let (memory, n) := (image.memoryOf pages).write a.toNat src
    ({ image with contents := .mapped memory.pages }, n)
  | .raw file =>
    match image.rawOffset? file a with
    | some off =>
      let part := window src 0 (file.size - off)
      ({ image with contents := .raw (overwrite file off part) }, part.size)
    | none => (image, 0)
  | .unmapped => (image, 0)

/-! ### Values -/

/-- The length of the zero-terminated string at an address, at most `n`. -/
def stringLength (image : Image) (a : UInt32) (n : Nat) : Nat :=
  match image.contents with
  | .mapped pages => (image.memoryOf pages).stringLength a.toNat n
  | .raw file =>
    match image.rawOffset? file a with
    | some off => zeroFrom file off (min n (file.size - off)) - off
    | none => 0
  | .unmapped => 0

/-- The zero-terminated string at an address, of at most `n` bytes. -/
def readString (image : Image) (a : UInt32) (n : Nat) : String :=
  decodeUtf8 (image.read a (image.stringLength a n))

/-- The address stored at an address, which must lie within the image completely. -/
def readPointer (image : Image) (a : UInt32) : Option UInt64 :=
  let size := image.layout.addressSize
  let bytes := image.read a size
  if bytes.size = size then some (image.layout.addressAt bytes 0) else none

/-- The whole units of two bytes in a buffer. -/
def units (bytes : ByteArray) : List UInt16 :=
  (List.range (bytes.size / 2)).map fun i => u16At bytes (2 * i)

/-- The string at an address that is stored as a number of units with the units behind it. Units
behind the end of the image are left out. -/
def readCountedString (image : Image) (a : UInt32) : String :=
  let count := u16At (image.read a 2) 0
  decodeUtf16 (units (image.read (a + 2) (2 * count.toNat)))

/-! ### Questions -/

/-- Whether a block lies within the size of image, which it must not take up completely. -/
def isValidBlock (image : Image) (a size : UInt32) : Bool :=
  let limit := image.optional.sizeOfImage
  a < limit && size < limit && decide (a.toNat + size.toNat ≤ limit.toNat)

/-- The page of an address. -/
def pageAt? (image : Image) (a : UInt32) : Option Page := image.page? (a.toNat / pageSize)

/-- Whether the page of an address is mapped and committed. -/
def isAccessible (image : Image) (a : UInt32) : Bool :=
  match image.pageAt? a with
  | some page => page.isAccessible
  | none => false

/-- Whether the page of an address is a committed page of zeros. -/
def isZeroPage (image : Image) (a : UInt32) : Bool :=
  match image.pageAt? a with
  | some page => page.isZero
  | none => false

/-- The bytes of all pages. -/
def dump (image : Image) : ByteArray := image.memory.toByteArray

end Image

/-! ### Writing the dump -/

/-- A directory into which a file can be written, or one that does not exist. -/
inductive Destination where
  /-- A directory that exists. -/
  | writable
  /-- A directory that does not. -/
  | missing
  deriving DecidableEq, Repr

/-- Writes the bytes of all pages to a file in a directory: the contents of the file. -/
def Image.dumpTo (image : Image) : Destination → Except Fault ByteArray
  | .writable => .ok image.dump
  | .missing => .error (.file "No such file or directory (os error 2)")

end PeImage
