/-
Edits of the captured headers.

An edit changes the headers that an image keeps and never its contents. It is for tools that rebuild
an image and store the headers themselves; `Image.makeValid` recomputes what follows from the rest.

* Fields: `Image.setSymbolTable`, `Image.setCharacteristics`, `Image.setEntryPoint`,
  `Image.setCode`, `Image.setDirectory`.
* Sections: `Image.addSection`, `Image.modifySection` with what is built on it,
  `Image.splitSection`, `Image.enlargeLastSection`, `Image.removeSection`.

An edit that fails leaves the image as it was.
-/
import PeImage.Image.Basic

namespace PeImage

namespace Image

/-! ### Fields -/

/-- Sets the offset of the symbol table. -/
def setSymbolTable (image : Image) (offset : UInt32) : Image :=
  { image with file.symbolTable := offset }

/-- Sets the characteristics of the file. -/
def setCharacteristics (image : Image) (bits : UInt16) : Image :=
  { image with file.characteristics := bits }

/-- Sets the address of the entry point. -/
def setEntryPoint (image : Image) (a : UInt32) : Image :=
  { image with optional.entryPoint := a }

/-- Sets size and address of the code, where given. -/
def setCode (image : Image) (size base : Option UInt32) : Image :=
  let h := image.optional
  { image with
    optional.sizeOfCode := size.getD h.sizeOfCode
    optional.baseOfCode := base.getD h.baseOfCode }

/-- Sets address and size of the directory at position `i`, where given, and counts it among those
in use. -/
def setDirectory (image : Image) (i : Nat) (rva size : Option UInt32) : Except Fault Image :=
  if _h : i < DirectoryKind.count then
    let h := image.optional
    let old := h.directories[i]
    .ok { image with
      optional.directoryCount := max h.directoryCount (UInt32.ofNat (i + 1))
      optional.directories := h.directories.set i ⟨rva.getD old.rva, size.getD old.size⟩ }
  else .error .entryNotFound

/-! ### Adding a section -/

/-- The characteristics of a section that an edit makes: code and data, readable and writable. -/
def newSectionCharacteristics : UInt32 :=
  BitFlag.mask SectionFlag.write ||| BitFlag.mask SectionFlag.read |||
    BitFlag.mask SectionFlag.initializedData ||| BitFlag.mask SectionFlag.code

/-- The largest number of sections. -/
def maxSectionCount : Nat := 0xFFFF

/-- Fails where an alignment is zero. -/
def requireAlignments (image : Image) : Except Fault Unit :=
  if image.optional.fileAlignment = 0 then .error .noFileAlignment
  else if image.optional.sectionAlignment = 0 then .error .noSectionAlignment
  else .ok ()

/-- The first address behind headers and sections. -/
def freeAddress (image : Image) : UInt32 :=
  alignUp
    (image.sections.foldl (fun a s => max a (s.virtualAddress + s.virtualSize))
      image.optional.sizeOfHeaders)
    image.optional.sectionAlignment

/-- The first offset in the file behind headers and sections. -/
def freeOffset (image : Image) : UInt32 :=
  alignUp
    (image.sections.foldl (fun off s => max off (s.rawPointer + s.rawSize))
      image.optional.sizeOfHeaders)
    image.optional.fileAlignment

/-- The section of the given size that finds a place behind all others. -/
def newSection (image : Image) (name : String) (size : UInt32) : SectionHeader :=
  let s : SectionHeader :=
    { virtualAddress := image.freeAddress
      virtualSize := alignUp size image.optional.sectionAlignment
      rawPointer := image.freeOffset
      rawSize := alignUp size image.optional.fileAlignment
      characteristics := newSectionCharacteristics }
  s.setName name

/-- Adds a section of the given size behind all others. -/
def addSection (image : Image) (name : String) (size : UInt32) : Except Fault Image :=
  match image.requireAlignments with
  | .error fault => .error fault
  | .ok () =>
    if image.sections.length ≥ maxSectionCount then .error .notEnoughSpace
    else .ok { image with sections := image.sections ++ [image.newSection name size] }

/-! ### Changing a section -/

/-- Changes the section at position `i`. -/
def modifySection (image : Image) (i : Nat) (f : SectionHeader → SectionHeader) :
    Except Fault Image :=
  if i < image.sections.length then .ok { image with sections := image.sections.modify i f }
  else .error .entryNotFound

/-- Renames a section. -/
def setSectionName (image : Image) (i : Nat) (name : String) : Except Fault Image :=
  image.modifySection i fun s => s.setName name

/-- Sets address and size of a section in memory, where given. -/
def setSectionMemory (image : Image) (i : Nat) (address size : Option UInt32) :
    Except Fault Image :=
  image.modifySection i fun s =>
    { s with
      virtualAddress := address.getD s.virtualAddress
      virtualSize := size.getD s.virtualSize }

/-- Sets offset and size of a section in the file, where given. -/
def setSectionData (image : Image) (i : Nat) (pointer size : Option UInt32) :
    Except Fault Image :=
  image.modifySection i fun s =>
    { s with
      rawPointer := pointer.getD s.rawPointer
      rawSize := size.getD s.rawSize }

/-- Sets the characteristics of a section. -/
def setSectionCharacteristics (image : Image) (i : Nat) (bits : UInt32) : Except Fault Image :=
  image.modifySection i fun s => { s with characteristics := bits }

/-! ### Splitting, growing and removing -/

/-- The part of a section in front of `off`. -/
def frontPart (s : SectionHeader) (name : String) (off : UInt32) : SectionHeader :=
  let s := s.setName name
  { s with rawSize := off, virtualSize := off }

/-- The part of a section from `off` on. -/
def backPart (s : SectionHeader) (name : String) (off : UInt32) : SectionHeader :=
  let rest := s.rawSize - off
  let s := s.setName name
  { s with
    rawPointer := s.rawPointer + off
    rawSize := rest
    virtualAddress := s.virtualAddress + off
    virtualSize := rest
    characteristics := newSectionCharacteristics }

/-- Splits the section at position `i` in two, of which the second begins `off` bytes into it, in
memory and in the file. The offset must be a multiple of the section alignment and lie within the
virtual size. -/
def splitSection (image : Image) (i : Nat) (front back : String) (off : UInt32) :
    Except Fault Image :=
  match image.requireAlignments with
  | .error fault => .error fault
  | .ok () =>
    match image.section? i with
    | none => .error .entryNotFound
    | some s =>
      if off &&& (image.optional.sectionAlignment - 1) ≠ 0 ∨ off ≥ s.virtualSize then
        .error .notEnoughSpace
      else
        .ok { image with
          sections := image.sections.take i ++
            frontPart s front off :: backPart s back off :: image.sections.drop (i + 1) }

/-- Grows the last section by at least `increment` bytes, and ends the image with it. -/
def enlargeLastSection (image : Image) (increment : UInt32) : Image :=
  match image.sections.getLast? with
  | none => image
  | some last =>
    let size := alignUp (last.rawSize + increment) image.optional.fileAlignment
    { image with
      sections := image.sections.dropLast ++ [{ last with virtualSize := size, rawSize := size }]
      optional.sizeOfImage := last.virtualAddress + size }

/-- Removes the section at position `i`, and moves the sections behind it down by its sizes. -/
def removeSection (image : Image) (i : Nat) : Except Fault Image :=
  match image.section? i with
  | none => .error .entryNotFound
  | some removed =>
    .ok { image with
      sections := image.sections.take i ++ (image.sections.drop (i + 1)).map fun s =>
        { s with
          virtualAddress := s.virtualAddress - removed.virtualSize
          rawPointer := s.rawPointer - removed.rawSize } }

/-! ### Recomputing what follows -/

/-- An alignment rounded up to a multiple of a unit, at least one unit. -/
def validAlignment (alignment unit : UInt32) : UInt32 :=
  let rounded := alignUp alignment unit
  if rounded = 0 then unit else rounded

/-- The file header of an image with `n` sections. Characteristics of zero are replaced by those of
a program. -/
def validFileHeader (image : Image) (n : Nat) : FileHeader :=
  let h := image.file
  { h with
    machine := match image.layout with
      | .narrow => Machine.i386
      | .wide => Machine.amd64
    sectionCount := UInt16.ofNat n
    optionalSize := UInt16.ofNat image.layout.size
    characteristics :=
      if h.characteristics = 0 then
        (BitFlag.mask FileFlag.executableImage ||| BitFlag.mask FileFlag.machine32Bit).toUInt16
      else h.characteristics }

/-- The end of the section table behind the given file header, modulo `2 ^ 32`. -/
def tableEnd (image : Image) (h : FileHeader) : UInt32 :=
  UInt32.ofNat (image.dos.ntOffset.toNat + optionalStart + h.optionalSize.toNat +
    h.sectionCount.toNat * SectionHeader.size)

/-- The sum of the sizes of the sections in memory behind headers that end at `start`. -/
def sectionsEnd (sections : List SectionHeader) (start alignment : UInt32) : UInt32 :=
  sections.foldl (fun a s => a + alignUp s.virtualSize alignment) start

/-- Recomputes what follows from the rest: signature, machine, number of sections, size and magic of
the optional header, alignments that pages and sectors allow, and the sizes of headers and image.
The raw data of all sections moves so that the first begins where the headers end. -/
def makeValid (image : Image) : Image :=
  let file := image.validFileHeader image.sections.length
  let sectionAlignment := validAlignment image.optional.sectionAlignment pageSize32
  let fileAlignment := validAlignment image.optional.fileAlignment sectorSize32
  let headers := alignUp (image.tableEnd file) fileAlignment
  let imageEnd :=
    sectionsEnd image.sections (alignUp headers sectionAlignment) sectionAlignment
  let shift := match image.sections with
    | first :: _ => headers - first.rawPointer
    | [] => 0
  let h := image.optional
  { image with
    ntSignature := ntSignatureValue
    file := file
    optional := { h with
      magic := image.layout.magic
      directoryCount := UInt32.ofNat DirectoryKind.count
      sectionAlignment := sectionAlignment
      fileAlignment := fileAlignment
      sizeOfHeaders := headers
      sizeOfImage := alignUp imageEnd sectionAlignment }
    sections := image.sections.map fun s => { s with rawPointer := s.rawPointer + shift } }

end Image

end PeImage
