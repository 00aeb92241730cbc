/-
Signed and unsigned integers of a fixed width, read from and written to a position of a buffer.

* `IntegerFormat`: width and signedness; `IntegerFormat.interpret` turns the unsigned number of a
  field into the value it stands for.
* `IntegerFormat.read`, `IntegerFormat.write`: both return the position behind the field, and both
  refuse a field that does not lie within the buffer.
-/
import PeImage.Bytes.LittleEndian
import PeImage.Fault

namespace PeImage

/-- How a field of fixed width spells an integer. -/
structure IntegerFormat where
  /-- Bytes in the field. -/
  width : Nat
  /-- Whether the highest bit is the sign, in two's complement. -/
  signed : Bool
  deriving DecidableEq, Repr

namespace IntegerFormat

/-- The value of a field whose bytes spell `n`. -/
def interpret (f : IntegerFormat) (n : Nat) : Int :=
  if f.signed then Int.bmod n (valueCount f.width) else n

/-- The unsigned number whose bytes spell `v`. -/
def spell (f : IntegerFormat) (v : Int) : Nat := (v % valueCount f.width).toNat

/-- The integer at `off`, with the position behind it. -/
def read (f : IntegerFormat) (b : ByteArray) (off : Nat) : Except Fault (Int × Nat) :=
  if off + f.width ≤ b.size then .ok (f.interpret (natAt b off f.width), off + f.width)
  else .error .outOfBounds

/-- The buffer with `v` written at `off`, with the position behind it. -/
def write (f : IntegerFormat) (b : ByteArray) (off : Nat) (v : Int) :
    Except Fault (ByteArray × Nat) :=
  if off + f.width ≤ b.size then
    .ok (overwrite b off (encode f.width (f.spell v)), off + f.width)
  else .error .outOfBounds

end IntegerFormat

end PeImage
