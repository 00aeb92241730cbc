/-
Capture of the section table.

The table lies behind the optional header, where the declared size of that header puts it, and as
many headers are captured as the file holds completely. Each gets the name to be shown: a stored
name that starts with a slash refers to the string table behind the symbols.

Under the rules of a released version, the raw data pointer of a section without raw data is
cleared in the file itself, so that the mapped header page shows it cleared. The captured header
keeps the stored pointer.

* `Image.tableOffset`, `Image.tableLength`: where the table is, and how much of it.
* `Image.resolveName`: the name to be shown.
* `Image.captureSections`: the headers, and the file after the clearing.
-/
import PeImage.Image.Basic
import PeImage.Text.Terminated

namespace PeImage

namespace Image

/-! ### The table -/

/-- Offset of the section table in the file. -/
def tableOffset (image : Image) : Nat :=
  image.dos.ntOffset.toNat + optionalStart + image.file.optionalSize.toNat

/-- The number of declared section headers that lie completely in a file of `fileSize` bytes. -/
def tableLength (image : Image) (fileSize : Nat) : Nat :=
  min image.file.sectionCount.toNat ((fileSize - image.tableOffset) / SectionHeader.size)

/-! ### Names -/

/-- Bytes in an entry of the symbol table. -/
def symbolSize : UInt32 := 18

/-- What a name in the string table must satisfy. -/
def longNameRules : TerminatedRules where
  limit := 1024
  printable := true
  terminated := true

/-- Whether a byte is a decimal digit. -/
def isDigit (b : UInt8) : Bool := 0x30 ≤ b && b ≤ 0x39

/-- The number that the digits at the start of a name spell, modulo `2 ^ 32`. -/
def leadingNumber (name : List UInt8) : UInt32 :=
  (name.takeWhile isDigit).foldl (fun n b => n * 10 + (b - 0x30).toUInt32) 0

/-- The offset in the string table to which a stored name refers. -/
def longNameOffset? (image : Image) (name : List UInt8) : Option UInt32 :=
  match name with
  | 0x2F :: digits =>
    if image.file.symbolTable = 0 then none
    else some (image.file.symbolTable + image.file.symbolCount * symbolSize + leadingNumber digits)
  | _ => none

/-- The name to be shown for a section: the one in the string table if there is one, and otherwise
the stored one. -/
def resolveName (image : Image) (file : ByteArray) (s : SectionHeader) : String :=
  let long := match image.longNameOffset? s.rawName.toList with
    | some off => readTerminated longNameRules file off.toNat
    | none => ""
  if long.isEmpty then s.shortName else long

/-! ### Capture -/

/-- Whether the raw data pointer of a section is to be cleared in the file. -/
def clearsPointer (image : Image) (s : SectionHeader) : Bool :=
  image.config.clearsEmptyPointers && s.rawPointer != 0 && s.rawSize == 0

/-- Captures the section header at `off`: the file after the clearing, and the header. -/
def captureSection (image : Image) (file : ByteArray) (off : Nat) : ByteArray × SectionHeader :=
  let s := SectionHeader.ofBytes file off
  let file :=
    if image.clearsPointer s then
      overwrite file (off + SectionHeader.rawPointerOffset) (zeros 4)
    else file
  (file, { s with name := image.resolveName file s })

/-- Captures `n` section headers from `off` on, behind those in `acc`. -/
def captureSectionsFrom (image : Image) (file : ByteArray) (off : Nat)
    (acc : Array SectionHeader) : Nat → ByteArray × Array SectionHeader
  | 0 => (file, acc)
  | n + 1 =>
    let (file, s) := image.captureSection file off
    captureSectionsFrom image file (off + SectionHeader.size) (acc.push s) n

/-- Captures the section table: the file after the clearing, and the headers. -/
def captureSections (image : Image) (file : ByteArray) : ByteArray × List SectionHeader :=
  let (file, sections) :=
    image.captureSectionsFrom file image.tableOffset #[] (image.tableLength file.size)
  (file, sections.toList)

end Image

end PeImage
