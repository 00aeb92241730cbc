/-
Reading and writing an image by address in machine words.

* `fileOffsetChecked?_eq`, `addressChecked?_eq`: the search of the section table goes through;
* `readChecked_eq`, `readRawChecked_eq`, `writeChecked_eq`: so do reads and writes, with a buffer
  that a machine can hold;
* `stringLengthChecked_eq`, `readStringChecked_eq`, `readPointerChecked_eq`,
  `readCountedStringChecked_eq`, `readTerminatedChecked_eq`: values;
* `pageAtChecked?_eq`, `fieldOffsetChecked_eq`, `dumpChecked_eq`: pages, offsets, and the dump.

Whole pages are all that is asked of the image, except for the dump, which needs a table that the
size of image can have.
-/
import PeImage.Memory.Scan
import PeImage.Proofs.Checked.Pages

namespace PeImage

open Checked

/-! ### Windows of a buffer -/

/-- At most `limit` bytes of a buffer from `off` on, if it gets that far. -/
def tailChecked? (b : ByteArray) (off limit : ℕ) : Checked (Option ByteArray) := do
  if off ≤ b.size then
    let tail := b.extract off b.size
    return some (← slice tail 0 (min tail.size limit))
  else return none

lemma tailChecked?_eq (b : ByteArray) (off limit : ℕ) :
    tailChecked? b off limit = .ok (if off ≤ b.size then some (window b off limit) else none) := by
  rw [tailChecked?]
  split_ifs with h
  · dsimp only
    rw [slice_eq (Nat.zero_le _) (Nat.min_le_left _ _), ok_bind, pure_eq_ok]
    have hstop : min (off + min (b.extract off b.size).size limit) b.size =
        min (off + limit) b.size := by
      rw [ByteArray.size_extract]
      omega
    rw [ByteArray.extract_extract, Nat.add_zero, hstop, ← window_eq_extract_min]
  · rfl

/-- The text of the string at `off`, empty where the rules reject it. -/
def readTerminatedChecked (rules : TerminatedRules) (file : ByteArray) (off : ℕ) :
    Checked String := do
  match ← tailChecked? file off rules.limit with
  | none => return ""
  | some part =>
    let stop := zeroFrom part 0 part.size
    if rules.terminated && stop == part.size then return ""
    else
      let bytes ← slice part 0 stop
      if rules.printable && !bytes.data.all isPrintable then return ""
      else return decodeUtf8 bytes

lemma readTerminatedChecked_eq (rules : TerminatedRules) (file : ByteArray) (off : ℕ) :
    readTerminatedChecked rules file off = .ok (readTerminated rules file off) := by
  dsimp only [readTerminatedChecked, readTerminated, terminated?]
  rw [tailChecked?_eq, ok_bind]
  by_cases hoff : off ≤ file.size
  · have hn := Nat.min_le_left rules.limit (file.size - off)
    have hle := le_zeroFrom file off (min rules.limit (file.size - off))
    have hge := zeroFrom_le file off (min rules.limit (file.size - off))
    have hsize : (window file off rules.limit).size = min rules.limit (file.size - off) :=
      size_window _ _ _
    have hbytes : (window file off rules.limit).extract 0
        (zeroFrom file off (min rules.limit (file.size - off)) - off) =
        file.extract off (zeroFrom file off (min rules.limit (file.size - off))) := by
      rw [extract_window file off (by omega), window, Nat.add_sub_cancel' hle]
    have hstop : (zeroFrom file off (min rules.limit (file.size - off)) - off ==
        min rules.limit (file.size - off)) =
        (zeroFrom file off (min rules.limit (file.size - off)) ==
          off + min rules.limit (file.size - off)) := by
      rw [Bool.eq_iff_iff, beq_iff_eq, beq_iff_eq]
      omega
    rw [if_pos hoff]
    dsimp only
    rw [hsize, zeroFrom_window file off hn, hstop, slice_eq (Nat.zero_le _) (by omega), hbytes]
    by_cases hend : (rules.terminated &&
        zeroFrom file off (min rules.limit (file.size - off)) ==
          off + min rules.limit (file.size - off)) = true
    · rw [if_pos hend, if_pos hend]
      rfl
    · rw [if_neg hend, if_neg hend, ok_bind]
      split_ifs <;> rfl
  · have hz : min rules.limit (file.size - off) = 0 := by omega
    rw [if_neg hoff, hz, zeroFrom, ByteArray.extract_same, Nat.add_zero]
    have hblank : decodeUtf8 ByteArray.empty = "" := by decide
    split_ifs with h1 h2
    · rfl
    · rfl
    · rw [Option.map_some, hblank]
      rfl

namespace Image

variable {image : Image} {a : UInt32} {n : ℕ}

/-! ### The section table -/

/-- The first span that contains `x`, which counts from `start`: where `x` is, counted from
`target`. -/
def locate (start target extent : Span → UInt32) (x : UInt32) :
    List Span → Checked (Option UInt32)
  | [] => return none
  | s :: rest => do
    if start s ≤ x then
      if x.toNat < (← add 64 (start s).toNat (extent s).toNat) then
        return some (target s + (← sub32 x (start s)))
      else locate start target extent x rest
    else locate start target extent x rest

lemma locate_eq (start target extent : Span → UInt32) (x : UInt32) (spans : List Span) :
    locate start target extent x spans = .ok ((spans.find? fun s => start s ≤ x &&
      decide (x.toNat < (start s).toNat + (extent s).toNat)).map
        fun s => target s + (x - start s)) := by
  induction spans with
  | nil => rfl
  | cons s rest ih =>
      have hstart := (start s).toNat_lt
      have hextent := (extent s).toNat_lt
      rw [locate, List.find?_cons]
      by_cases hle : start s ≤ x
      · rw [if_pos hle, add_eq (by omega), ok_bind]
        by_cases hlt : x.toNat < (start s).toNat + (extent s).toNat
        · simp [hle, hlt, sub32_eq hle]
        · simp [hle, hlt, ih]
      · simp [hle, ih]

/-- The offset in the file of the byte at an address. -/
def fileOffsetChecked? (image : Image) (a : UInt32) : Checked (Option UInt32) := do
  match ← locate Span.address Span.offset Span.size a image.spans with
  | some off => return some off
  | none => return image.identity? a

/-- The address of the byte at an offset in the file. -/
def addressChecked? (image : Image) (off : UInt32) : Checked (Option UInt32) := do
  match ← locate Span.offset Span.address (fun s => min s.rawSize s.size) off image.spans with
  | some a => return some a
  | none => return image.identity? off

theorem fileOffsetChecked?_eq (image : Image) (a : UInt32) :
    image.fileOffsetChecked? a = .ok (image.fileOffset? a) := by
  rw [fileOffsetChecked?, locate_eq, ok_bind, fileOffset?]
  unfold Span.containsAddress
  cases image.spans.find? fun s => s.address ≤ a &&
    decide (a.toNat < s.address.toNat + s.size.toNat) <;> rfl

theorem addressChecked?_eq (image : Image) (off : UInt32) :
    image.addressChecked? off = .ok (image.address? off) := by
  rw [addressChecked?, locate_eq, ok_bind, address?]
  unfold Span.containsOffset
  cases image.spans.find? fun s => s.offset ≤ off &&
    decide (off.toNat < s.offset.toNat + (min s.rawSize s.size).toNat) <;> rfl

/-! ### Ranges -/

/-- The range of an access to `n` bytes at an address: its start, and its end within the size of
image. -/
def rangeChecked (image : Image) (a : UInt32) (n : ℕ) : Checked (ℕ × ℕ) := do
  let stop ← add 64 a.toNat n
  return (a.toNat, max (min stop image.alignedSize.toNat) a.toNat)

lemma rangeChecked_eq (image : Image) (a : UInt32) (hn : n < 2 ^ 63) :
    image.rangeChecked a n = .ok (a.toNat, max (image.memory.stop a.toNat n) a.toNat) := by
  have ha := a.toNat_lt
  rw [rangeChecked, add_eq (by omega)]
  rfl

lemma stop_le (image : Image) (a : UInt32) (n : ℕ) :
    max (image.memory.stop a.toNat n) a.toNat ≤ a.toNat + n := by
  rw [Memory.stop]
  omega

end Image

namespace Memory

variable (m : Memory) (stop a : ℕ)

/-- A range that ends in front of its start is empty. -/
lemma readUpTo_max (acc : ByteArray) : m.readUpTo a (max stop a) acc = m.readUpTo a stop acc := by
  rcases Nat.le_total stop a with h | h
  · rw [Nat.max_eq_right h, readUpTo, dif_neg (Nat.lt_irrefl a), readUpTo,
      dif_neg (Nat.not_lt.mpr h)]
  · rw [Nat.max_eq_left h]

lemma writeUpTo_max (pages : Array Page) (src : ByteArray) (start : ℕ) :
    writeUpTo pages src start a (max stop a) = writeUpTo pages src start a stop := by
  rcases Nat.le_total stop a with h | h
  · rw [Nat.max_eq_right h, writeUpTo, dif_neg (Nat.lt_irrefl a), writeUpTo,
      dif_neg (Nat.not_lt.mpr h)]
  · rw [Nat.max_eq_left h]

lemma stringEnd_max : m.stringEnd a (max stop a) = m.stringEnd a stop := by
  rcases Nat.le_total stop a with h | h
  · rw [Nat.max_eq_right h, stringEnd, dif_neg (Nat.lt_irrefl a), stringEnd,
      dif_neg (Nat.not_lt.mpr h)]
  · rw [Nat.max_eq_left h]

end Memory

namespace Image

variable {image : Image} {a : UInt32} {n : ℕ}

/-- The `n` bytes at an address of an image that is served raw, as far as the file goes: their
offset, and how many there are. -/
def rawRangeChecked? (image : Image) (file : ByteArray) (a : UInt32) (n : ℕ) :
    Checked (Option (ℕ × ℕ)) := do
  match ← image.fileOffsetChecked? a with
  | none => return none
  | some off =>
    if off.toNat > file.size then return none
    else
      let count := min n (← sub file.size off.toNat)
      within 0 count n
      within off.toNat (← add 64 off.toNat count) file.size
      return some (off.toNat, count)

lemma rawRangeChecked?_eq (image : Image) (file : ByteArray) (a : UInt32) (hn : n < 2 ^ 63) :
    image.rawRangeChecked? file a n =
      .ok ((image.rawOffset? file a).map fun off => (off, min n (file.size - off))) := by
  rw [rawRangeChecked?, fileOffsetChecked?_eq, ok_bind, rawOffset?]
  cases image.fileOffset? a with
  | none => rfl
  | some off =>
      have hoff := off.toNat_lt
      dsimp only
      by_cases hle : off.toNat ≤ file.size
      · rw [if_neg (Nat.not_lt.mpr hle), if_pos hle, sub_eq hle, ok_bind,
          within_eq (Nat.zero_le _) (Nat.min_le_left _ _), ok_bind, add_eq (by omega), ok_bind,
          within_eq (by omega) (by omega)]
        rfl
      · rw [if_pos (Nat.lt_of_not_le hle), if_neg hle]
        rfl

/-- Reads at most `n` bytes at an address from the file of an image that is served raw. -/
def readRawChecked (image : Image) (a : UInt32) (n : ℕ) : Checked ByteArray :=
  match image.contents with
  | .raw file => do
    match ← image.rawRangeChecked? file a n with
    | some (off, count) => slice file off (← add 64 off count)
    | none => return .empty
  | .unmapped | .mapped _ => return .empty

/-- Reads at most `n` bytes at an address. -/
def readChecked (image : Image) (a : UInt32) (n : ℕ) : Checked ByteArray :=
  match image.contents with
  | .mapped pages => do
    let (start, stop) ← image.rangeChecked a n
    Memory.readPages pages n start stop
  | .raw _ => image.readRawChecked a n
  | .unmapped => return .empty

/-- Writes bytes at an address: the image, and the number of bytes consumed. -/
def writeChecked (image : Image) (a : UInt32) (src : ByteArray) : Checked (Image × ℕ) := do
  let (start, stop) ← image.rangeChecked a src.size
  let _ ← image.fileOffsetChecked? a
  match image.contents with
  | .mapped pages =>
    let (pages, n) ← Memory.writePages pages src start stop
    return ({ image with contents := .mapped pages }, n)
  | .raw file =>
    match ← image.rawRangeChecked? file a src.size with
    | some (off, count) =>
      let file ← replace file off (← add 64 off count) (← slice src 0 count)
      return ({ image with contents := .raw file }, count)
    | none => return (image, 0)
  | .unmapped => return (image, 0)

lemma offset_le_of_rawOffset? {file : ByteArray} {off : ℕ}
    (h : image.rawOffset? file a = some off) : off ≤ file.size ∧ off < 2 ^ 32 := by
  unfold rawOffset? at h
  split at h
  · next x _ =>
    split_ifs at h with hle
    cases h
    exact ⟨hle, x.toNat_lt⟩
  · cases h

theorem readRawChecked_eq (image : Image) (a : UInt32) (hn : n < 2 ^ 63) :
    image.readRawChecked a n = .ok (image.readRaw a n) := by
  unfold readRawChecked readRaw
  cases image.contents with
  | unmapped | mapped pages => rfl
  | raw file =>
      dsimp only
      rw [rawRangeChecked?_eq image file a hn, ok_bind]
      cases hoff : image.rawOffset? file a with
      | none => rfl
      | some off =>
          obtain ⟨hle, hlt⟩ := offset_le_of_rawOffset? hoff
          dsimp only [Option.map_some]
          rw [add_eq (by omega), ok_bind, slice_eq (by omega) (by omega)]
          exact congrArg Except.ok (window_min file off n)

theorem readChecked_eq (hw : AllWhole image.pages) (a : UInt32) (hn : n < 2 ^ 63) :
    image.readChecked a n = .ok (image.read a n) := by
  unfold readChecked read
  cases hc : image.contents with
  | unmapped => rfl
  | raw file => exact readRawChecked_eq image a hn
  | mapped pages =>
      have ha := a.toNat_lt
      have hm : (image.memoryOf pages).WellFormed := by
        rw [Image.pages, hc] at hw
        exact hw
      have hread := Memory.readPages_eq hm (image.stop_le a n) (by omega)
      rw [Memory.readUpTo_max] at hread
      rw [rangeChecked_eq image a hn]
      exact hread

theorem writeChecked_eq (hw : AllWhole image.pages) (a : UInt32) {src : ByteArray}
    (hn : src.size < 2 ^ 63) : image.writeChecked a src = .ok (image.write a src) := by
  rw [writeChecked, rangeChecked_eq image a hn, ok_bind]
  dsimp only
  rw [fileOffsetChecked?_eq, ok_bind, write]
  cases hc : image.contents with
  | unmapped => rfl
  | raw file =>
      dsimp only
      rw [rawRangeChecked?_eq image file a hn, ok_bind]
      cases hoff : image.rawOffset? file a with
      | none => rfl
      | some off =>
          obtain ⟨hle, hlt⟩ := offset_le_of_rawOffset? hoff
          have hpart : window src 0 (file.size - off) =
              window src 0 (min src.size (file.size - off)) := by
            rw [← window_min, Nat.sub_zero, Nat.min_comm]
          dsimp only [Option.map_some]
          rw [add_eq (by omega), ok_bind, slice_eq (Nat.zero_le _) (by omega), ok_bind, hpart]
          have hsize : (window src 0 (min src.size (file.size - off))).size =
              min src.size (file.size - off) := by
            rw [size_window]
            omega
          have hslice : src.extract 0 (min src.size (file.size - off)) =
              window src 0 (min src.size (file.size - off)) := by
            rw [window, Nat.zero_add]
          rw [hslice, replace_eq (by omega) (by omega) (by omega), ok_bind, hsize]
          rfl
  | mapped pages =>
      have ha := a.toNat_lt
      have hm : (image.memoryOf pages).WellFormed := by
        rw [Image.pages, hc] at hw
        exact hw
      have hwrite := Memory.writePages_eq hm (image.stop_le a src.size) (by omega)
      rw [Memory.writeUpTo_max] at hwrite
      dsimp only
      rw [show Memory.writePages pages src a.toNat _ = _ from hwrite]
      rfl

/-! ### Values -/

/-- The length of the zero-terminated string at an address, at most `n`. -/
def stringLengthChecked (image : Image) (a : UInt32) (n : ℕ) : Checked ℕ :=
  match image.contents with
  | .mapped pages => do
    let (start, stop) ← image.rangeChecked a n
    Memory.stringPages pages start stop
  | .raw file => do
    match ← image.fileOffsetChecked? a with
    | none => return 0
    | some off =>
      match ← tailChecked? file off.toNat n with
      | none => return 0
      | some part => return zeroFrom part 0 part.size
  | .unmapped => return 0

/-- The zero-terminated string at an address, of at most `n` bytes. -/
def readStringChecked (image : Image) (a : UInt32) (n : ℕ) : Checked String := do
  let length ← image.stringLengthChecked a n
  let buffer ← blank length
  let bytes ← image.readChecked a buffer.size
  within 0 bytes.size buffer.size
  return decodeUtf8 bytes

/-- The address stored at an address, which must lie within the image completely. -/
def readPointerChecked (image : Image) (a : UInt32) : Checked (Option UInt64) := do
  let size := image.layout.addressSize
  let bytes ← image.readChecked a size
  return if bytes.size = size then some (image.layout.addressAt bytes 0) else none

/-- The whole units of two bytes in a buffer. -/
def unitsChecked (bytes : ByteArray) : Checked (List UInt16) :=
  (List.range (bytes.size / 2)).mapM fun i => do
    let pair := window bytes (2 * i) 2
    return UInt16.ofNat ((← byte pair 0).toNat + 256 * (← byte pair 1).toNat)

/-- The string at an address that is stored as a number of units with the units behind it. -/
def readCountedStringChecked (image : Image) (a : UInt32) : Checked String := do
  let count := u16At (← image.readChecked a 2) 0
  let buffer ← blank (← mul 64 count.toNat 2)
  let bytes ← image.readChecked (a + 2) buffer.size
  within 0 bytes.size buffer.size
  return decodeUtf16 (← unitsChecked bytes)

theorem stringLengthChecked_eq (hw : AllWhole image.pages) (a : UInt32) (hn : n < 2 ^ 63) :
    image.stringLengthChecked a n = .ok (image.stringLength a n) := by
  unfold stringLengthChecked stringLength
  cases hc : image.contents with
  | unmapped => rfl
  | raw file =>
      dsimp only
      rw [fileOffsetChecked?_eq, ok_bind, rawOffset?]
      cases image.fileOffset? a with
      | none => rfl
      | some off =>
          dsimp only
          rw [tailChecked?_eq, ok_bind]
          split_ifs
          · dsimp only
            rw [size_window, zeroFrom_window file off.toNat (Nat.min_le_left _ _)]
            rfl
          · rfl
  | mapped pages =>
      have ha := a.toNat_lt
      have hle : max ((image.memoryOf pages).stop a.toNat n) a.toNat ≤ a.toNat + n :=
        image.stop_le a n
      have hm : (image.memoryOf pages).WellFormed := by
        rw [Image.pages, hc] at hw
        exact hw
      have hstring : Memory.stringPages (image.memoryOf pages).pages a.toNat
          (max ((image.memoryOf pages).stop a.toNat n) a.toNat) = _ :=
        Memory.stringPages_eq hm (by omega)
      rw [Memory.stringEnd_max] at hstring
      rw [rangeChecked_eq image a hn]
      exact hstring

/-- A read gives no more than was asked for. -/
lemma size_read_le (hw : AllWhole image.pages) (a : UInt32) (n : ℕ) :
    (image.read a n).size ≤ n := by
  unfold read
  cases hc : image.contents with
  | unmapped => exact Nat.zero_le n
  | raw file =>
      simp only [readRaw, hc]
      split
      · rw [size_window]
        exact Nat.min_le_left _ _
      · exact Nat.zero_le n
  | mapped pages =>
      have hm : (image.memoryOf pages).WellFormed := by
        rw [Image.pages, hc] at hw
        exact hw
      dsimp only
      rw [Memory.size_read hm]
      exact Nat.min_le_left _ _

/-- A string is no longer than was asked for. -/
lemma stringLength_le (image : Image) (a : UInt32) (n : ℕ) : image.stringLength a n ≤ n := by
  unfold stringLength
  split
  · next pages _ =>
    rcases Nat.le_total a.toNat ((image.memoryOf pages).stop a.toNat n) with h | h
    · have hle := (image.memoryOf pages).stringEnd_le h
      have hstop : (image.memoryOf pages).stop a.toNat n ≤ a.toNat + n := Nat.min_le_left _ _
      rw [Memory.stringLength]
      omega
    · rw [Memory.stringLength, Memory.stringEnd, dif_neg (Nat.not_lt.mpr h), Nat.sub_self]
      exact Nat.zero_le n
  · next file _ =>
    split
    · next off _ =>
      have hge := zeroFrom_le file off (min n (file.size - off))
      omega
    · exact Nat.zero_le n
  · exact Nat.zero_le n

theorem readStringChecked_eq (hw : AllWhole image.pages) (a : UInt32) (hn : n < 2 ^ 63) :
    image.readStringChecked a n = .ok (image.readString a n) := by
  have hlength : image.stringLength a n < 2 ^ 63 :=
    Nat.lt_of_le_of_lt (image.stringLength_le a n) hn
  rw [readStringChecked, stringLengthChecked_eq hw a hn, ok_bind, blank_eq hlength, ok_bind,
    size_zeros, readChecked_eq hw a hlength, ok_bind,
    within_eq (Nat.zero_le _) (size_read_le hw a _)]
  rfl

theorem readPointerChecked_eq (hw : AllWhole image.pages) (a : UInt32) :
    image.readPointerChecked a = .ok (image.readPointer a) := by
  have hsize : image.layout.addressSize < 2 ^ 63 := by
    cases image.layout <;> decide
  dsimp only [readPointerChecked]
  rw [readChecked_eq hw a hsize]
  rfl

lemma unitsChecked_eq (bytes : ByteArray) : unitsChecked bytes = .ok (units bytes) := by
  refine mapM_eq fun i hi => ?_
  rw [List.mem_range] at hi
  have hpair : (window bytes (2 * i) 2).size = 2 := by
    rw [size_window]
    omega
  dsimp only
  rw [byte_eq (by omega), ok_bind, byte_eq (by omega), ok_bind, byteAt_window, byteAt_window,
    if_pos (by decide), if_pos (by decide)]
  rfl

theorem readCountedStringChecked_eq (hw : AllWhole image.pages) (a : UInt32) :
    image.readCountedStringChecked a = .ok (image.readCountedString a) := by
  have hcount := (u16At (image.read a 2) 0).toNat_lt
  rw [readCountedStringChecked, readChecked_eq hw a (by decide), ok_bind]
  dsimp only
  rw [mul_eq (by omega), ok_bind, blank_eq (by omega), ok_bind, size_zeros,
    readChecked_eq hw (a + 2) (by omega), ok_bind,
    within_eq (Nat.zero_le _) (size_read_le hw _ _), ok_bind, unitsChecked_eq, ok_bind,
    Nat.mul_comm]
  rfl

/-! ### Pages and offsets -/

/-- The page of an address. -/
def pageAtChecked? (image : Image) (a : UInt32) : Checked (Option Page) := do
  return image.page? (← div a.toNat pageSize)

/-- The offset of a field from the NT headers; for the size of the optional header, that size. -/
def fieldOffsetChecked (image : Image) : HeaderField → Checked ℕ
  | .optionalHeaderSize => return image.layout.size
  | .directoryCount => add 64 optionalStart image.layout.directoryCountOffset
  | .directories => add 64 optionalStart image.layout.directoriesOffset
  | .directory kind => do
    add 64 (← add 64 optionalStart image.layout.directoriesOffset)
      (← mul 64 kind.index Directory.entrySize)

/-- The bytes of all pages. -/
def dumpChecked (image : Image) : Checked ByteArray := do
  let _ ← blank (← mul 64 image.pageCount pageSize)
  image.pages.toList.foldlM (fun acc page =>
    match page with
    | .data bytes => return acc ++ bytes
    | .zero | .inaccessible => do
      let size ← add 64 acc.size pageSize
      return acc ++ zeros (size - acc.size)) .empty

lemma pageAtChecked?_eq (image : Image) (a : UInt32) :
    image.pageAtChecked? a = .ok (image.pageAt? a) := by
  rw [pageAtChecked?, div_eq (by decide)]
  rfl

lemma fieldOffsetChecked_eq (image : Image) (field : HeaderField) :
    image.fieldOffsetChecked field = .ok (image.fieldOffset field) := by
  unfold fieldOffsetChecked fieldOffset
  cases field with
  | directory kind => cases image.layout <;> cases kind <;> rfl
  | _ => cases image.layout <;> rfl

theorem dumpChecked_eq (hw : AllWhole image.pages) (hcount : image.pageCount ≤ 2 ^ 20) :
    image.dumpChecked = .ok image.dump := by
  have hsize : image.pageCount * pageSize ≤ 2 ^ 32 := Nat.mul_le_mul_right 4096 hcount
  rw [dumpChecked, mul_eq (by omega), ok_bind, blank_eq (by omega), ok_bind]
  have hfold := foldlM_eq
    (fun acc rest => (∀ page ∈ rest, page.WellFormed) ∧
      acc.size + pageSize * rest.length ≤ 2 ^ 32)
    (l := image.pages.toList) (s := ByteArray.empty)
    (f := fun acc page =>
      match page with
      | .data bytes => return acc ++ bytes
      | .zero | .inaccessible => do
        let size ← add 64 acc.size pageSize
        return acc ++ zeros (size - acc.size))
    (g := fun acc page => acc ++ page.toByteArray) ?_
    ⟨fun page hpage => hw page (Array.mem_toList_iff.mp hpage), ?_⟩
  · rw [hfold, Array.foldl_toList]
    rfl
  · rintro acc page rest ⟨hrest, hle⟩
    rw [List.forall_mem_cons] at hrest
    rw [List.length_cons, Nat.mul_succ] at hle
    refine ⟨?_, hrest.2, ?_⟩
    · cases page with
      | data bytes => rfl
      | zero | inaccessible =>
          dsimp only
          rw [add_eq (by omega), ok_bind, Nat.add_sub_cancel_left]
          rfl
    · rw [ByteArray.size_append, Page.size_toByteArray hrest.1]
      omega
  · rw [ByteArray.size_empty, Nat.zero_add, Array.length_toList, Nat.mul_comm]
    exact hsize

end Image

end PeImage
