/-
Comparison of a mapped image with a copy of the memory into which the same file was mapped.

Pages that cannot be accessed cannot be copied either, so the accessibility of the copy is asked for
page by page. Differences in the raw data pointer of a section without raw data do not count: it is
not always cleared.

* `Comparison`: the outcomes, of which all but `equal` name the first difference.
* `Image.compare`: the comparison, which also says for which pages accessibility was asked.
-/
import PeImage.Image.Access
import PeImage.Image.SectionTable

namespace PeImage

/-- The outcome of a comparison. -/
inductive Comparison where
  /-- Both are the same, or neither is mapped. -/
  | equal
  /-- Only one of them is mapped, the reference if `reference` holds. -/
  | notMapped (reference : Bool)
  /-- The reference does not have the size of image in whole pages. -/
  | sizeMismatch
  /-- The page at the address is accessible in the reference only. -/
  | pageNotAccessible (address : UInt32)
  /-- The page at the address is accessible in the image only. -/
  | pageAccessible (address : UInt32)
  /-- The byte at the address differs. -/
  | dataMismatch (address : UInt32)
  deriving DecidableEq, Repr

namespace Image

/-- Whether an offset in the file lies in the raw data pointer of a section without raw data. -/
def isEmptyPointer (image : Image) (off : UInt32) : Bool :=
  let table := UInt32.ofNat image.tableOffset
  image.sections.zipIdx.any fun (s, i) =>
    let field := table + UInt32.ofNat (i * SectionHeader.size + SectionHeader.rawPointerOffset)
    s.rawSize == 0 && field ≤ off && off < field + 4

/-- Whether the byte at position `k` of the page at an address may differ. -/
def isExcused (image : Image) (a : UInt32) (k : Nat) : Bool :=
  match image.fileOffset? a with
  | some off => image.isEmptyPointer (off + UInt32.ofNat k)
  | none => false

/-- The first position at which two buffers differ without an excuse, among the `n` positions from
`k` on. -/
def firstDifference (image : Image) (a : UInt32) (reference bytes : ByteArray) (k : Nat) :
    Nat → Option Nat
  | 0 => none
  | n + 1 =>
    if byteAt reference k ≠ byteAt bytes k ∧ image.isExcused a k = false then some k
    else firstDifference image a reference bytes (k + 1) n

/-- Compares one page of a reference with the image, where `accessible` is the accessibility of the
page in the reference. -/
def comparePage (image : Image) (reference : ByteArray) (accessible : Bool) (i : Nat) :
    Option Comparison :=
  let a := UInt32.ofNat (i * pageSize)
  match accessible, image.isAccessible a with
  | true, true =>
    let theirs := window reference (i * pageSize) pageSize
    let ours := image.read a theirs.size
    (image.firstDifference a theirs ours 0 (min theirs.size ours.size)).map fun k =>
      .dataMismatch (a + UInt32.ofNat k)
  | true, false => some (.pageNotAccessible a)
  | false, true => some (.pageAccessible a)
  | false, false => none

/-- Compares the `n` pages of a reference from position `i` on, with the addresses asked for behind
those in `asked`. -/
def comparePages (image : Image) (reference : ByteArray) (accessible : UInt32 → Bool) (i : Nat)
    (asked : Array UInt32) : Nat → Comparison × Array UInt32
  | 0 => (.equal, asked)
  | n + 1 =>
    let a := UInt32.ofNat (i * pageSize)
    let asked := asked.push a
    match image.comparePage reference (accessible a) i with
    | some difference => (difference, asked)
    | none => comparePages image reference accessible (i + 1) asked n

/-- Compares the image with a reference, or with the fact that the file could not be mapped. The
addresses are those of the pages whose accessibility was asked for, in this order. -/
def compare (image : Image) (reference : Option ByteArray) (accessible : UInt32 → Bool) :
    Comparison × Array UInt32 :=
  match reference, image.isMapped with
  | some reference, true =>
    if reference.size ≠ image.alignedSize.toNat then (.sizeMismatch, #[])
    else
      image.comparePages reference accessible 0 #[] ((reference.size + (pageSize - 1)) / pageSize)
  | some _, false => (.notMapped true, #[])
  | none, true => (.notMapped false, #[])
  | none, false => (.equal, #[])

end Image

end PeImage
