/-
Sizes of the memory manager and rounding in 32-bit arithmetic.

Rounding up wraps: a value whose rounded form does not fit into 32 bits comes out small, and an
alignment of zero gives zero. The overflow checks of the layout rules are written against exactly
that, so `alignUp` keeps it.

* `alignUp`, `alignDown`: rounding to a multiple of a power of two.
* `pagesFor`: the number of pages that hold a size, which never wraps.
-/

namespace PeImage

/-- Bytes in a page. -/
def pageSize : Nat := 4096

/-- Bytes in a page, in 32-bit arithmetic. -/
def pageSize32 : UInt32 := 0x1000

/-- Bytes in a disk sector, the unit in which raw data is addressed. -/
def sectorSize32 : UInt32 := 0x200

/-- The largest size of image that the memory manager maps. -/
def largestImage : UInt32 := 0x77000000

/-- Image bases are multiples of this many bytes. -/
def baseGranularity : UInt64 := 0x10000

/-- `value` rounded up to a multiple of the power of two `alignment`, modulo `2 ^ 32`. -/
def alignUp (value alignment : UInt32) : UInt32 :=
  (value + (alignment - 1)) &&& ~~~(alignment - 1)

/-- `value` rounded down to a multiple of the power of two `alignment`. -/
def alignDown (value alignment : UInt32) : UInt32 :=
  value &&& ~~~(alignment - 1)

/-- The number of pages that hold `size` bytes. -/
def pagesFor (size : UInt32) : UInt32 :=
  UInt32.ofNat ((size.toNat + (pageSize - 1)) / pageSize)

/-- Whether `value` has at most one bit set. Zero passes, and has a check of its own. -/
def isPowerOfTwoOrZero (value : UInt32) : Bool := value &&& (value - 1) == 0

theorem toNat_pagesFor (size : UInt32) :
    (pagesFor size).toNat = (size.toNat + (pageSize - 1)) / pageSize := by
  have h := size.toNat_lt
  refine UInt32.toNat_ofNat_of_lt' ?_
  show _ < 2 ^ 32
  simp only [pageSize]
  omega

end PeImage
