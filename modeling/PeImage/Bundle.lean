/-
The instruction bundle of an Itanium processor that loads a 64-bit number.

The number is spread over eight fields in three of the four words of a bundle.

* `Bundle`, `ImmediateField`, `immediateFields`: the words, and where the pieces are.
* `Bundle.immediate`, `Bundle.setImmediate`: the number of a bundle, and the bundle with another.
* `Bundle.ofBytes`, `Bundle.toByteArray`: how a bundle is stored.
-/
import PeImage.Bytes.LittleEndian

namespace PeImage

/-- The four words of a bundle. -/
abbrev Bundle := Vector UInt32 4

/-- Where a piece of the number is. -/
structure ImmediateField where
  /-- The word of the bundle. -/
  word : Fin 4
  /-- The number of bits. -/
  width : UInt32
  /-- The lowest bit in the word. -/
  position : UInt32
  /-- The lowest bit in the number. -/
  valuePosition : UInt32
  deriving DecidableEq, Repr

namespace ImmediateField

/-- As many low bits as the piece has. -/
def mask (f : ImmediateField) : UInt32 := ((1 : UInt32) <<< f.width) - 1

/-- The piece of the number that a word holds, at its place in the number. -/
def ofWord (f : ImmediateField) (word : UInt32) : UInt64 :=
  ((word >>> f.position) &&& f.mask).toUInt64 <<< f.valuePosition.toUInt64

/-- The word with the piece of a number put into it. -/
def intoWord (f : ImmediateField) (word : UInt32) (value : UInt64) : UInt32 :=
  let piece := (value >>> f.valuePosition.toUInt64).toUInt32 &&& f.mask
  (word &&& ~~~(f.mask <<< f.position)) ||| (piece <<< f.position)

end ImmediateField

/-- The pieces of the number, lowest first but for the sign. -/
def immediateFields : List ImmediateField :=
  [⟨3, 7, 4, 0⟩, ⟨3, 9, 18, 7⟩, ⟨3, 5, 13, 16⟩, ⟨3, 1, 12, 21⟩, ⟨1, 10, 14, 22⟩, ⟨1, 8, 24, 32⟩,
   ⟨2, 23, 0, 40⟩, ⟨3, 1, 27, 63⟩]

namespace Bundle

/-- Bytes in a bundle. -/
def size : Nat := 16

/-- The number that a bundle loads. -/
def immediate (b : Bundle) : UInt64 :=
  immediateFields.foldl (fun value f => value ||| f.ofWord b[f.word]) 0

/-- The bundle that loads another number. -/
def setImmediate (b : Bundle) (value : UInt64) : Bundle :=
  immediateFields.foldl (fun b f => b.set f.word (f.intoWord b[f.word] value)) b

/-- The bundle that the first bytes of a buffer spell. -/
def ofBytes (bytes : ByteArray) : Bundle := Vector.ofFn fun i => u32At bytes (4 * i)

/-- The bytes of a bundle. -/
def toByteArray (b : Bundle) : ByteArray :=
  b.toList.foldl (fun acc word => acc ++ encode 4 word.toNat) .empty

/-- The bundle that loads a number greater by `difference`. -/
def addImmediate (b : Bundle) (difference : UInt64) : Bundle :=
  b.setImmediate (b.immediate + difference)

end Bundle

end PeImage
