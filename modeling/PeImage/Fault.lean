/-
Hard failures: the ones that end an operation.

A structural problem of the image itself is not a fault but a `Diagnostic`, which is recorded while
the work goes on. `Fault.message` is the text shown to a user.
-/

namespace PeImage

/-- Why an operation gave up. -/
inductive Fault where
  /-- The input is no image at all: header missing, cut short or without its signature. -/
  | invalidFile
  /-- The input has more bytes than a 32-bit file offset can address. -/
  | fileTooBig
  /-- There is no room for a copy or for pages, a stream ended early, the section table is full, or
  a split does not fit its section. -/
  | notEnoughSpace
  /-- There is no section or data directory with that index. -/
  | entryNotFound
  /-- The image declares a file alignment of zero. -/
  | noFileAlignment
  /-- The image declares a section alignment of zero. -/
  | noSectionAlignment
  /-- A field does not lie within the buffer. -/
  | outOfBounds
  /-- Opening, seeking, reading or writing failed, for the reason the file system gives. -/
  | file (reason : String)
  /-- An opened file could not be mapped, for the reason the system gives. -/
  | system (reason : String)
  deriving DecidableEq, Repr, Inhabited

/-- The text shown to a user. -/
def Fault.message : Fault → String
  | .invalidFile => "The file is not a valid PE image"
  | .fileTooBig => "The file is too big to be a PE image"
  | .notEnoughSpace => "Not enough space"
  | .entryNotFound => "The requested entry was not found"
  | .noFileAlignment => "The image has no file alignment"
  | .noSectionAlignment => "The image has no section alignment"
  | .outOfBounds => "Out of Bound read would have occurred!"
  | .file reason => reason
  | .system reason => reason

end PeImage
