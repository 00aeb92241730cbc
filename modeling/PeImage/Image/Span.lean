/-
Which offset in the file belongs to an address in memory, and the other way round.

Both directions go through the section table and take the first section that fits. Sections without
raw data do not count. Outside all sections, the headers lie in memory as they do in the file, and
so does everything in an image without sections.

* `Image.Span`: where a section lies in the file and in memory.
* `Image.fileOffset?`, `Image.address?`: the two directions.
-/
import PeImage.Image.Basic

namespace PeImage

namespace Image

/-- Where a section lies in the file and in memory. -/
structure Span where
  /-- The offset in the file. -/
  offset : UInt32
  /-- The address. -/
  address : UInt32
  /-- The size in memory. -/
  size : UInt32
  /-- The size in the file. -/
  rawSize : UInt32

/-- Where a section lies. Its address counts from the next multiple of the section alignment. -/
def span (image : Image) (s : SectionHeader) : Span where
  offset := image.dataStart s
  address :=
    if image.optional.sectionAlignment ≠ 0 then
      alignUp s.virtualAddress image.optional.sectionAlignment
    else s.virtualAddress
  size := s.effectiveSize
  rawSize := s.rawSize

/-- Whether a section has raw data at a known place. -/
def isBacked (s : SectionHeader) : Bool := s.rawPointer != 0 && s.rawSize != 0

/-- Where the sections with raw data lie. -/
def spans (image : Image) : List Span := (image.sections.filter isBacked).map image.span

namespace Span

/-- Whether an address lies in the section. -/
def containsAddress (s : Span) (a : UInt32) : Bool :=
  s.address ≤ a && decide (a.toNat < s.address.toNat + s.size.toNat)

/-- Whether an offset lies in the part of the raw data that is in memory. -/
def containsOffset (s : Span) (off : UInt32) : Bool :=
  s.offset ≤ off && decide (off.toNat < s.offset.toNat + (min s.rawSize s.size).toNat)

end Span

/-- What lies outside all sections is where it is in the file, as far as the headers go. -/
def identity? (image : Image) (x : UInt32) : Option UInt32 :=
  if image.sections.isEmpty ∨ x < image.optional.sizeOfHeaders then some x else none

/-- The offset in the file of the byte at an address. -/
def fileOffset? (image : Image) (a : UInt32) : Option UInt32 :=
  match image.spans.find? (·.containsAddress a) with
  | some s => some (s.offset + (a - s.address))
  | none => image.identity? a

/-- The address of the byte at an offset in the file. -/
def address? (image : Image) (off : UInt32) : Option UInt32 :=
  match image.spans.find? (·.containsOffset off) with
  | some s => some (s.address + (off - s.offset))
  | none => image.identity? off

end Image

end PeImage
