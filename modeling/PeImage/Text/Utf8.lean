/-
Lossy decoding of UTF-8.

Names and strings in an image are arbitrary bytes. They are decoded with a replacement character
for every maximal part that starts like a character and does not go on like one, and for every
byte that cannot start a character.

* `Utf8.Pending`: a character of which some bytes are still to come, with the range in which the
  next one must lie. Ruling out overlong forms, surrogates and values past the last code point is
  the business of that range alone.
* `Utf8.Decoder`: the text so far with what is pending, `Utf8.Decoder.feed` for one more byte.
* `decodeUtf8`: the text of a whole buffer.
-/
import PeImage.Bytes.Basic

namespace PeImage

/-- Stands for what cannot be decoded. -/
def replacementChar : Char := '\uFFFD'

namespace Utf8

/-- A character whose bytes are not all read yet. -/
structure Pending where
  /-- The bits read so far. -/
  bits : Nat
  /-- The number of bytes to come, not counting the next one. -/
  more : Nat
  /-- The least value of the next byte. -/
  low : UInt8
  /-- The greatest value of the next byte. -/
  high : UInt8

/-- What a byte that starts a character of several bytes announces. -/
def Pending.ofLead? (b : UInt8) : Option Pending :=
  let bits (mask : UInt8) := (b &&& mask).toNat
  if 0xC2 ≤ b ∧ b ≤ 0xDF then some ⟨bits 0x1F, 0, 0x80, 0xBF⟩
  else if b = 0xE0 then some ⟨bits 0x0F, 1, 0xA0, 0xBF⟩
  else if b = 0xED then some ⟨bits 0x0F, 1, 0x80, 0x9F⟩
  else if 0xE1 ≤ b ∧ b ≤ 0xEF then some ⟨bits 0x0F, 1, 0x80, 0xBF⟩
  else if b = 0xF0 then some ⟨bits 0x07, 2, 0x90, 0xBF⟩
  else if b = 0xF4 then some ⟨bits 0x07, 2, 0x80, 0x8F⟩
  else if 0xF1 ≤ b ∧ b ≤ 0xF3 then some ⟨bits 0x07, 2, 0x80, 0xBF⟩
  else none

/-- The text decoded so far. -/
structure Decoder where
  /-- The characters that are complete. -/
  text : String := ""
  /-- The character that is not. -/
  pending : Option Pending := none

namespace Decoder

/-- Reads the first byte of a character. -/
def start (text : String) (b : UInt8) : Decoder :=
  if b < 0x80 then ⟨text.push (Char.ofNat b.toNat), none⟩
  else match Pending.ofLead? b with
    | some p => ⟨text, some p⟩
    | none => ⟨text.push replacementChar, none⟩

/-- Reads one more byte. A byte outside the expected range ends the pending character, which is
replaced, and starts the next one. -/
def feed (d : Decoder) (b : UInt8) : Decoder :=
  match d.pending with
  | none => start d.text b
  | some p =>
    if p.low ≤ b ∧ b ≤ p.high then
      let bits := p.bits * 64 + (b &&& 0x3F).toNat
      match p.more with
      | 0 => ⟨d.text.push (Char.ofNat bits), none⟩
      | n + 1 => ⟨d.text, some ⟨bits, n, 0x80, 0xBF⟩⟩
    else start (d.text.push replacementChar) b

/-- The text at the end of the input, where a character still pending is replaced. -/
def finish (d : Decoder) : String :=
  match d.pending with
  | none => d.text
  | some _ => d.text.push replacementChar

end Decoder

end Utf8

/-- The text that a list of bytes spells, lossily. -/
def decodeUtf8List (l : List UInt8) : String := (l.foldl Utf8.Decoder.feed {}).finish

/-- The text that a buffer spells, lossily. -/
def decodeUtf8 (b : ByteArray) : String := decodeUtf8List b.data.toList

end PeImage
