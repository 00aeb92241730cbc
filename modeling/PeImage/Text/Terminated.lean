/-
Zero-terminated strings in a file.

* `terminated?`: the bytes of the string at a position, by the two rules of `TerminatedRules`.
* `readTerminated`: its text, empty where the rules reject it.
-/
import PeImage.Text.Utf8

namespace PeImage

/-- What a zero-terminated string must satisfy. -/
structure TerminatedRules where
  /-- The number of bytes that are looked at. -/
  limit : Nat
  /-- Whether every byte must be a printable ASCII character. -/
  printable : Bool
  /-- Whether the terminator must be among the bytes looked at. -/
  terminated : Bool
  deriving Repr

/-- Whether a byte is a printable ASCII character. -/
def isPrintable (b : UInt8) : Bool := 0x20 ≤ b && b ≤ 0x7E

/-- The bytes of the string at `off`: up to the first zero, or up to the limit or the end of the
file where there is none. -/
def terminated? (rules : TerminatedRules) (file : ByteArray) (off : Nat) : Option ByteArray :=
  let n := min rules.limit (file.size - off)
  let stop := zeroFrom file off n
  let bytes := file.extract off stop
  if rules.terminated && stop == off + n then none
  else if rules.printable && !bytes.data.all isPrintable then none
  else some bytes

/-- The text of the string at `off`, empty where the rules reject it. -/
def readTerminated (rules : TerminatedRules) (file : ByteArray) (off : Nat) : String :=
  ((terminated? rules file off).map decodeUtf8).getD ""

end PeImage
