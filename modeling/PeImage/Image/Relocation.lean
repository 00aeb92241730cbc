/-
Moving a mapped image to another base.

The directory of base relocations is a list of blocks, each with an address and the entries of the
fixups in the page there. The directory is read once, before anything is moved.

* `FixupBlock`, `parseBlocks`: the blocks that a directory spells, with whether it is well formed up
  to its end; the blocks in front of a malformed one count.
* `Memory.applyBlocks`: the fixups of a list of blocks.
* `Image.relocate`: the whole step. The stored base is replaced as soon as the image qualifies,
  even where the directory turns out to be missing.
-/
import PeImage.Fixup
import PeImage.Image.Access
import PeImage.Image.Headers

namespace PeImage

/-! ### The directory -/

/-- A block of fixups. -/
structure FixupBlock where
  /-- The address from which the entries count. -/
  address : UInt32
  /-- The entries. -/
  entries : List UInt16
  deriving DecidableEq, Repr

namespace FixupBlock

/-- Bytes in front of the entries. -/
def headerSize : Nat := 8

/-- Bytes in the block. -/
def size (b : FixupBlock) : Nat := headerSize + 2 * b.entries.length

/-- The bytes of the block. -/
def encoded (b : FixupBlock) : ByteArray :=
  encode 4 b.address.toNat ++ encode 4 b.size ++
    b.entries.foldl (fun acc e => acc ++ encode 2 e.toNat) .empty

end FixupBlock

/-- The largest directory that is looked at. -/
def maxRelocationSize : Nat := 0xA00000

namespace Image

/-- The `n` entries at `off`. -/
def entriesAt (directory : ByteArray) (off n : Nat) : List UInt16 :=
  (List.range n).map fun i => u16At directory (off + 2 * i)

/-- The blocks from `cursor` on, behind those in `acc`. A block that does not lie within the size of
image is malformed and ends the directory. A block without entries, whatever size it declares, takes
up the space of its header; a block for the first page is left out; the last block ends with the
directory. -/
def parseBlocksFrom (image : Image) (directory : ByteArray) (cursor : Nat)
    (acc : Array FixupBlock) : Array FixupBlock × Bool :=
  if _h : cursor + FixupBlock.headerSize ≤ directory.size then
    let address := u32At directory cursor
    let declared := u32At directory (cursor + 4)
    if !image.isValidBlock address declared then (acc, false)
    else if _small : declared.toNat ≤ FixupBlock.headerSize then
      parseBlocksFrom image directory (cursor + FixupBlock.headerSize) acc
    else if address < pageSize32 then
      parseBlocksFrom image directory (cursor + declared.toNat) acc
    else
      let size := min declared.toNat (directory.size - cursor)
      let entries := entriesAt directory (cursor + FixupBlock.headerSize)
        ((size - FixupBlock.headerSize) / 2)
      parseBlocksFrom image directory (cursor + size) (acc.push ⟨address, entries⟩)
  else (acc, true)
termination_by directory.size - cursor
decreasing_by
  all_goals have hsize : 0 < FixupBlock.headerSize := by decide
  all_goals have hdeclared : declared = u32At directory (cursor + 4) := rfl
  all_goals try rw [hdeclared] at _small
  all_goals omega

/-- The blocks of a directory, with whether it is well formed up to its end. -/
def parseBlocks (image : Image) (directory : ByteArray) : List FixupBlock × Bool :=
  let (blocks, complete) := image.parseBlocksFrom directory 0 #[]
  (blocks.toList, complete)

end Image

/-! ### Applying -/

/-- Applies the fixups of blocks in order, up to the first block that fails. -/
def Memory.applyBlocks (m : Memory) (difference : UInt64) : List FixupBlock → Memory × Bool
  | [] => (m, true)
  | b :: rest =>
    match m.applyFixups difference b.address b.entries with
    | (m, true) => applyBlocks m difference rest
    | (m, false) => (m, false)

namespace Image

/-- Applies the directory of `size` bytes at an address to the memory of an image. -/
def applyDirectory (image : Image) (m : Memory) (difference : UInt64) (d : Directory) :
    Memory × Bool :=
  if d.size.toNat < FixupBlock.headerSize ∨ d.size.toNat > maxRelocationSize then (m, false)
  else
    let (blocks, complete) := image.parseBlocks (m.read d.rva.toNat d.size.toNat)
    let (m, applied) := m.applyBlocks difference blocks
    (m, applied && complete)

/-- Whether the image may be moved to a base at all. -/
def isRelocatable (image : Image) (base : UInt64) : Bool :=
  !image.file.has .relocsStripped &&
    !(image.config.checksAppContainer && image.isBadAppContainer) &&
    !(image.layout == .narrow && base >>> 32 != 0)

/-- The address of the stored base in the mapped headers. -/
def baseAddress (image : Image) : UInt32 :=
  image.dos.ntOffset + UInt32.ofNat (optionalStart + image.layout.imageBaseOffset)

/-- The directory of base relocations, if there is one within the image. -/
def relocationDirectory? (image : Image) : Option Directory :=
  let i := DirectoryKind.baseRelocation.index
  let d := image.directory i
  if image.optional.directoryCount.toNat ≤ i ∨ d.rva = 0 ∨ d.size = 0 then none
  else if image.isValidBlock d.rva d.size then some d
  else none

/-- Moves a mapped image to a base: the image, and whether every fixup was applied. -/
def relocate (image : Image) (base : UInt64) : Image × Bool :=
  let difference := base - image.optional.imageBase
  if base = image.optional.imageBase then (image, true)
  else
    match image.contents with
    | .mapped pages =>
      if pages.isEmpty || !image.isRelocatable base then (image, false)
      else
        let stored := encode image.layout.addressSize base.toNat
        let (m, _) := (image.memoryOf pages).write image.baseAddress.toNat stored
        let optional := { image.optional with imageBase := base }
        match image.relocationDirectory? with
        | none => ({ image with optional := optional, contents := .mapped m.pages }, false)
        | some d =>
          let (m, applied) := image.applyDirectory m difference d
          ({ image with optional := optional, contents := .mapped m.pages }, applied)
    | .unmapped | .raw _ => (image, false)

end Image

end PeImage
