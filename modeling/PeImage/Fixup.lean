/-
Fixups: the places in an image at which an address is stored, and how it is moved.

Moving an image by a difference adds that difference to every stored address. What is stored is a
whole address, a half of one, or an address packed into an instruction. A fixup whose bytes are not
all in the image is left out.

* `FixupKind`: the ways in which an address is stored.
* `moveHigh`, `moveHighAdjusted`, `moveJump`: moving what is no whole address.
* `Memory.patch`: one fixup; `Memory.applyFixups`: the entries of a block of fixups in order.
-/
import PeImage.Bundle
import PeImage.Memory

namespace PeImage

/-! ### Kinds -/

/-- How an address is stored. -/
inductive FixupKind where
  /-- Not at all: an entry that fills up a block. -/
  | absolute
  /-- The upper half of a 32-bit address. -/
  | high
  /-- The lower half of a 32-bit address. -/
  | low
  /-- A 32-bit address. -/
  | highLow
  /-- The upper half of a 32-bit address, of which the next entry is the lower half. -/
  | highAdjusted
  /-- The target of a MIPS jump: 26 bits of a word, which count in steps of four. -/
  | mipsJump
  /-- The number of an Itanium bundle. -/
  | ia64Bundle
  /-- A 64-bit address. -/
  | dir64
  deriving DecidableEq, Repr, Inhabited

namespace FixupKind

/-- All kinds, lowest value first. -/
def all : List FixupKind :=
  [.absolute, .high, .low, .highLow, .highAdjusted, .mipsJump, .ia64Bundle, .dir64]

/-- The value in the upper four bits of an entry. -/
def value : FixupKind → Nat
  | .absolute => 0
  | .high => 1
  | .low => 2
  | .highLow => 3
  | .highAdjusted => 4
  | .mipsJump => 5
  | .ia64Bundle => 9
  | .dir64 => 10

/-- The name of a kind. -/
def name : FixupKind → String
  | .absolute => "Absolute"
  | .high => "High"
  | .low => "Low"
  | .highLow => "HighLow"
  | .highAdjusted => "HighAdj"
  | .mipsJump => "MipsJmpAddr"
  | .ia64Bundle => "Ia64Imm64"
  | .dir64 => "Dir64"

/-- The kind with the given value. -/
def ofValue? (n : Nat) : Option FixupKind := all.find? fun k => k.value == n

theorem ofValue?_value (k : FixupKind) : ofValue? k.value = some k := by
  cases k <;> decide

end FixupKind

/-! ### Moving parts of an address -/

/-- The upper half of an address with lower half zero, after the move. -/
def moveHigh (difference : UInt64) (high : UInt16) : UInt16 :=
  (((high.toUInt32 <<< 16) + difference.toUInt32) >>> 16).toUInt16

/-- The upper half of an address with the given lower half, after the move. The half is rounded to
the nearest, because the lower half is later added as a signed number. -/
def moveHighAdjusted (difference : UInt64) (high low : UInt16) : UInt16 :=
  (((high.toUInt32 <<< 16) + low.toUInt32 + difference.toUInt32 + 0x8000) >>> 16).toUInt16

/-- The bits of a jump that hold its target. -/
def jumpMask : UInt32 := 0x03FFFFFF

/-- A jump after the move. -/
def moveJump (difference : UInt64) (word : UInt32) : UInt32 :=
  let target := ((word &&& jumpMask) <<< 2) + difference.toUInt32
  (word &&& ~~~jumpMask) ||| ((target >>> 2) &&& jumpMask)

/-! ### Fixing up memory -/

namespace Memory

/-- The `n` bytes at an address, if they can all be read. -/
def readExactly (m : Memory) (a : UInt32) (n : Nat) : Option ByteArray :=
  let bytes := m.read a.toNat n
  if bytes.size = n then some bytes else none

/-- The memory with the `n` bytes at an address replaced by a function of them. -/
def patch (m : Memory) (a : UInt32) (n : Nat) (f : ByteArray → ByteArray) : Memory :=
  match m.readExactly a n with
  | some bytes => (m.write a.toNat (f bytes)).1
  | none => m

/-- Moves the address stored at `a` in the given way. The upper half of an address needs the lower
half, which is zero where the entry for it is missing. -/
def fixup (m : Memory) (difference : UInt64) (kind : FixupKind) (a : UInt32) (low : UInt16) :
    Memory :=
  match kind with
  | .absolute => m
  | .high => m.patch a 2 fun b => encode 2 (moveHigh difference (u16At b 0)).toNat
  | .low => m.patch a 2 fun b => encode 2 (u16At b 0 + difference.toUInt16).toNat
  | .highLow => m.patch a 4 fun b => encode 4 (u32At b 0 + difference.toUInt32).toNat
  | .highAdjusted =>
    m.patch a 2 fun b => encode 2 (moveHighAdjusted difference (u16At b 0) low).toNat
  | .mipsJump => m.patch a 4 fun b => encode 4 (moveJump difference (u32At b 0)).toNat
  | .ia64Bundle =>
    m.patch (a &&& ~~~15) Bundle.size fun b =>
      ((Bundle.ofBytes b).addImmediate difference).toByteArray
  | .dir64 => m.patch a 8 fun b => encode 8 (u64At b 0 + difference).toNat

/-- The address at which an entry of a block at `base` points. -/
def fixupTarget (base : UInt32) (entry : UInt16) : UInt32 := base + (entry &&& 0xFFF).toUInt32

/-- Applies the entries of a block at `base` in order. An entry of an unknown kind ends the work
with `false`. An upper half whose lower half is missing ends the block. -/
def applyFixups (m : Memory) (difference : UInt64) (base : UInt32) :
    List UInt16 → Memory × Bool
  | [] => (m, true)
  | entry :: rest =>
    match FixupKind.ofValue? (entry >>> 12).toNat with
    | none => (m, false)
    | some .highAdjusted =>
      match rest with
      | [] => (m, true)
      | low :: rest =>
        applyFixups (m.fixup difference .highAdjusted (fixupTarget base entry) low) difference base
          rest
    | some kind =>
      applyFixups (m.fixup difference kind (fixupTarget base entry) 0) difference base rest

end Memory

end PeImage
