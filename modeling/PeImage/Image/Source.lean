/-
Loading an image from where files come from.

* `Source`: bytes in memory, `Source.slice?` for a window of them.
* `DiskEntry`: what a path leads to. A path that cannot be opened or mapped leaves the image as it
  was.
* `Stream`: a seekable stream, which may claim more bytes than it has, and whose seeks and reads may
  fail. `Image.loadStream` reads an image from a position of it.

A source and a stream have their DOS header looked at before anything else is read, so that an input
that is no image is refused early.
-/
import PeImage.Image.Load

namespace PeImage

/-! ### Memory -/

/-- Bytes in memory. -/
structure Source where
  /-- The bytes. -/
  bytes : ByteArray

namespace Source

/-- The number of bytes. -/
def size (s : Source) : Nat := s.bytes.size

/-- Whether there are no bytes. -/
def isEmpty (s : Source) : Bool := s.size == 0

/-- The `n` bytes from position `off` on, which must all be there. -/
def slice (s : Source) (off n : Nat) : Except Fault ByteArray :=
  match slice? s.bytes off n with
  | some window => .ok window
  | none => .error .outOfBounds

end Source

/-- Loads an image from a source, of which it makes a copy. -/
def Image.loadSource (image : Image) (source : Source) (allocator : Allocator := {}) :
    Image × Except Fault Unit :=
  let blank := Image.empty image.config
  if source.size ≤ DosHeader.size then (blank, .error .invalidFile)
  else match (DosHeader.ofBytes source.bytes).verify source.size with
    | .error cause => (blank.refuse cause, .error .invalidFile)
    | .ok () =>
      match allocator.grantsCopy with
      | true => blank.load source.bytes allocator
      | false => (blank, .error .notEnoughSpace)

/-! ### Files -/

/-- What a path leads to. -/
inductive DiskEntry where
  /-- A file. -/
  | file (bytes : ByteArray)
  /-- A directory, which can be opened but not mapped. -/
  | directory
  /-- Nothing. -/
  | missing

/-- The source that a path leads to. -/
def DiskEntry.toSource : DiskEntry → Except Fault Source
  | .file bytes => .ok ⟨bytes⟩
  | .directory => .error (.system "No such device (os error 19)")
  | .missing => .error (.file "No such file or directory (os error 2)")

/-- Loads an image from what a path leads to. -/
def Image.loadEntry (image : Image) (entry : DiskEntry) (allocator : Allocator := {}) :
    Image × Except Fault Unit :=
  match entry.toSource with
  | .ok source => image.loadSource source allocator
  | .error fault => (image, .error fault)

/-! ### Streams -/

/-- A seekable stream. -/
structure Stream where
  /-- The bytes. -/
  bytes : ByteArray
  /-- The length that seeking to the end reports. Reads end there, too. -/
  claimedSize : Nat
  /-- The seek that fails, counted from zero, with the reason. -/
  failingSeek : Option (Nat × String)
  /-- The position that cannot be read, with the reason. Reads that reach it or go beyond fail,
  unless the bytes end in front of it. It may be the end itself, which is reached by asking for more
  bytes than there are. -/
  failingRead : Option (Nat × String)

namespace Stream

/-- A stream over bytes in which nothing fails. -/
def ofBytes (bytes : ByteArray) : Stream := ⟨bytes, bytes.size, none, none⟩

/-- The position at which reads end. -/
def size (s : Stream) : Nat := min s.claimedSize s.bytes.size

/-- Carries out the seek with the given number. -/
def seek (s : Stream) (number : Nat) : Except Fault Unit :=
  match s.failingSeek with
  | some (n, reason) => if n = number then .error (.file reason) else .ok ()
  | none => .ok ()

/-- The reason for which reading `n` bytes from position `off` on fails, if it does. -/
def readFailure? (s : Stream) (off n : Nat) : Option String :=
  match s.failingRead with
  | some (position, reason) =>
    if position < off + n ∧ position ≤ s.size then some reason else none
  | none => none

/-- Reads up to `n` bytes from position `off` on, until they are all there or the stream ends. -/
def read (s : Stream) (off n : Nat) : Except Fault ByteArray :=
  match s.readFailure? off n with
  | some reason => .error (.file reason)
  | none => .ok (window s.bytes off (min n (s.size - off)))

/-- Reads exactly `n` bytes from position `off` on. -/
def readExactly (s : Stream) (off n : Nat) : Except Fault ByteArray := do
  let bytes ← s.read off n
  if bytes.size = n then .ok bytes else .error .invalidFile

end Stream

namespace Image

/-- Reads the DOS header at `off`. Any failure but that of the seek makes the input no image. -/
def readDosHeader (stream : Stream) (off : Nat) : Except Fault DosHeader :=
  match stream.seek 1 with
  | .error fault => .error fault
  | .ok () =>
    match stream.readExactly off DosHeader.size with
    | .error _ => .error .invalidFile
    | .ok bytes => .ok (DosHeader.ofBytes bytes)

/-- Reads the `n` bytes at `off` that make up the file. -/
def readFileBytes (stream : Stream) (off n : Nat) : Except Fault ByteArray :=
  match stream.seek 2 with
  | .error fault => .error fault
  | .ok () =>
    match stream.read off n with
    | .error fault => .error fault
    | .ok bytes => if bytes.size < n then .error .notEnoughSpace else .ok bytes

/-- Loads an image from a stream, in which it begins at `off`. Room for all of it is asked for
before it is read. -/
def loadStream (image : Image) (stream : Stream) (off : Nat) (allocator : Allocator := {}) :
    Image × Except Fault Unit :=
  let blank := empty image.config
  match stream.seek 0 with
  | .error fault => (blank, .error fault)
  | .ok () =>
    let size := stream.claimedSize - off
    if off > stream.claimedSize then (blank, .error .invalidFile)
    else if size > maxFileSize then (blank.record .fileTooBig, .error .fileTooBig)
    else if size ≤ DosHeader.size then (blank, .error .invalidFile)
    else match readDosHeader stream off with
      | .error fault => (blank, .error fault)
      | .ok dos =>
        match dos.verify size with
        | .error cause => (blank.refuse cause, .error .invalidFile)
        | .ok () =>
          match allocator.grantsCopy with
          | true =>
            match readFileBytes stream off size with
            | .error fault => (blank, .error fault)
            | .ok file => blank.load file allocator
          | false => (blank, .error .notEnoughSpace)

end Image

end PeImage
