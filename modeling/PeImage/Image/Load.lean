/-
Loading an image from the bytes of its file.

A load starts from nothing, whatever was loaded before, and keeps the rules. It captures the headers
and the section table, and then maps the image if nothing that was recorded forbids it. A load that
ends in a fault leaves behind what was captured before the fault.

* `Allocator`: whether there is room for what a load asks for. There is, unless another is given.
* `Image.capture`: headers and section table, and the file as it is mapped.
* `Image.load`, `Image.loadHeaders`: the two extents of a load.
* `Image.isMappable`: whether a captured image is mapped; a flat image is so even where its
  sections lie elsewhere in memory than in the file.
-/
import PeImage.Image.Mapping

namespace PeImage

/-- How far a load goes. -/
inductive Extent where
  /-- Headers and section table. -/
  | headers
  /-- Headers, section table and contents. -/
  | contents
  deriving DecidableEq, Repr

/-- Whether there is room for what a load asks for. A load that is refused one page does not keep
the others, so there is room for all of its pages or for none. -/
structure Allocator where
  /-- Room for a copy of the input, which a load makes that does not start from a buffer. -/
  grantsCopy : Bool := true
  /-- Room for the table of pages, and for each page with bytes of the file. -/
  grantsPages : Bool := true
  deriving DecidableEq, Repr

namespace Image

/-- The largest size of a file. -/
def maxFileSize : Nat := 0xFFFFFFFF

/-- The state in which an input is refused because of its DOS header, for which there may be a
problem to record. -/
def refuse (image : Image) (cause : Option Diagnostic) : Image :=
  { image with latch := image.latch.recordAny cause }

/-- Whether a captured image is to be mapped. -/
def isMappable (image : Image) : Bool :=
  image.isLoadable || (image.isFlat && image.problem? == some .flatLayoutMismatch)

/-- Takes over the pages of a captured image, or the file itself where there are none. -/
def takeContents (image : Image) (file : ByteArray) (pages : Array Page) : Image :=
  { image with contents := if pages.isEmpty then .raw file else .mapped pages }

/-- Maps a captured image. Where there is no room for its pages, it stays as it was captured. -/
def mapContents (image : Image) (file : ByteArray) (allocator : Allocator := {}) :
    Image × Except Fault Unit :=
  if image.isMappable then
    match allocator.grantsPages with
    | true =>
      match image.buildPages file with
      | (image, .ok pages) => (image.takeContents file pages, .ok ())
      | (image, .error fault) => (image, .error fault)
    | false => (image, .error .notEnoughSpace)
  else (image.takeContents file #[], .ok ())

/-- Captures the headers and the section table of a file: the image, and the file after the clearing
of raw data pointers. -/
def capture (config : Config) (file : ByteArray) : Image × Except Fault ByteArray :=
  let image := empty config
  if file.size > maxFileSize then (image.record .fileTooBig, .error .fileTooBig)
  else if file.size ≤ DosHeader.size then (image, .error .invalidFile)
  else
    let dos := DosHeader.ofBytes file
    match dos.verify file.size with
    | .error cause => (image.refuse cause, .error .invalidFile)
    | .ok () =>
      match { image with dos := dos }.captureNtHeaders file with
      | (image, .error fault) => (image, .error fault)
      | (image, .ok ()) =>
        let (image, file) := image.captureSectionTable file
        (image, .ok file)

/-- Loads a file to the given extent. -/
def loadTo (image : Image) (extent : Extent) (file : ByteArray) (allocator : Allocator := {}) :
    Image × Except Fault Unit :=
  match capture image.config file with
  | (image, .error fault) => (image, .error fault)
  | (image, .ok file) =>
    match extent with
    | .headers => (image, .ok ())
    | .contents => image.mapContents file allocator

/-- Loads a file. -/
def load (image : Image) (file : ByteArray) (allocator : Allocator := {}) :
    Image × Except Fault Unit :=
  image.loadTo .contents file allocator

/-- Loads the headers and the section table of a file. -/
def loadHeaders (image : Image) (file : ByteArray) : Image × Except Fault Unit :=
  image.loadTo .headers file

end Image

end PeImage
