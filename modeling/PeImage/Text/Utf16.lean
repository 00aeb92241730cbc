/-
Lossy decoding of UTF-16.

* `Utf16.Decoder`: the text so far with a high surrogate that waits for its partner,
  `Utf16.Decoder.feed` for one more unit.
* `decodeUtf16`: the text of a list of units. Every surrogate without a partner is replaced.
-/
import PeImage.Text.Utf8

namespace PeImage

namespace Utf16

/-- Whether a unit is the first half of a pair. -/
def isHigh (u : UInt16) : Bool := 0xD800 ≤ u && u ≤ 0xDBFF

/-- Whether a unit is the second half of a pair. -/
def isLow (u : UInt16) : Bool := 0xDC00 ≤ u && u ≤ 0xDFFF

/-- The character of a pair. -/
def pair (high low : UInt16) : Char :=
  Char.ofNat (0x10000 + (high.toNat - 0xD800) * 0x400 + (low.toNat - 0xDC00))

/-- The text decoded so far. -/
structure Decoder where
  /-- The characters that are complete. -/
  text : String := ""
  /-- The first half of a pair whose second half is not read yet. -/
  pending : Option UInt16 := none

namespace Decoder

/-- Reads a unit that no first half waits for. -/
def start (text : String) (u : UInt16) : Decoder :=
  if isHigh u then ⟨text, some u⟩
  else if isLow u then ⟨text.push replacementChar, none⟩
  else ⟨text.push (Char.ofNat u.toNat), none⟩

/-- Reads one more unit. -/
def feed (d : Decoder) (u : UInt16) : Decoder :=
  match d.pending with
  | none => start d.text u
  | some high =>
    if isLow u then ⟨d.text.push (pair high u), none⟩
    else start (d.text.push replacementChar) u

/-- The text at the end of the input, where a first half without a second is replaced. -/
def finish (d : Decoder) : String :=
  match d.pending with
  | none => d.text
  | some _ => d.text.push replacementChar

end Decoder

end Utf16

/-- The text that a list of units spells, lossily. -/
def decodeUtf16 (l : List UInt16) : String := (l.foldl Utf16.Decoder.feed {}).finish

end PeImage
