/-
Capture of the NT headers in machine words.

* `captureFileHeaderChecked_eq`, `captureOptionalHeaderChecked_eq`: the two headers. The position in
  front of them fits into 33 bits, so nothing that is added to it overflows;
* `OptionalHeader.ofBytes_congr`, `headerBufferChecked_eq`: the optional header is read from a copy
  of what the file holds of it, which spells the same header;
* `pagesForChecked_eq`: the number of pages that hold a size, which is counted in 64 bits;
* `captureNtHeadersChecked_eq`: the whole step goes through, whatever the file holds.
-/
import PeImage.Image.Headers
import PeImage.Proofs.Checked.Words

namespace PeImage

open Checked

/-- The number of pages that hold `size` bytes. -/
def pagesForChecked (size : UInt32) : Checked UInt32 := do
  let last ← sub (← add 64 size.toNat pageSize) 1
  return UInt32.ofNat (← div last pageSize)

lemma pagesForChecked_eq (size : UInt32) : pagesForChecked size = .ok (pagesFor size) := by
  have hsize := size.toNat_lt
  have hpage : pageSize = 4096 := rfl
  rw [pagesForChecked, add_eq (by omega), ok_bind, sub_eq (by omega), ok_bind,
    div_eq (by omega), Nat.add_sub_assoc (by omega)]
  rfl

/-- Only the bytes of the header count. -/
lemma OptionalHeader.ofBytes_congr {l : Layout} {a b : ByteArray} {i j : ℕ}
    (h : ∀ k < l.size, byteAt a (i + k) = byteAt b (j + k)) : ofBytes l a i = ofBytes l b j := by
  have hnat {off w : ℕ} (hw : off + w ≤ l.size) : natAt a (i + off) w = natAt b (j + off) w :=
    natAt_congr fun k hk => by
      rw [Nat.add_assoc, Nat.add_assoc]
      exact h _ (by omega)
  have h8 {off : ℕ} (hw : off < l.size) : byteAt a (i + off) = byteAt b (j + off) := h off hw
  have h16 {off : ℕ} (hw : off + 2 ≤ l.size) : u16At a (i + off) = u16At b (j + off) := by
    rw [u16At, u16At, hnat hw]
  have h32 {off : ℕ} (hw : off + 4 ≤ l.size) : u32At a (i + off) = u32At b (j + off) := by
    rw [u32At, u32At, hnat hw]
  have haddress {off : ℕ} (hw : off + l.addressSize ≤ l.size) :
      l.addressAt a (i + off) = l.addressAt b (j + off) := by
    rw [Layout.addressAt, Layout.addressAt, hnat hw]
  have hmagic : u16At a i = u16At b j :=
    show u16At a (i + 0) = u16At b (j + 0) from h16 (by cases l <;> decide)
  have hcount : declaredDirectories l a i = declaredDirectories l b j := by
    rw [declaredDirectories, declaredDirectories, hnat (by cases l <;> decide)]
  have hdirectories : directoriesAt l a i = directoriesAt l b j := by
    refine congrArg Vector.ofFn (funext fun n => ?_)
    have hn := n.isLt
    have hsize := l.size_eq
    simp only [DirectoryKind.count, Directory.entrySize] at hn hsize ⊢
    simp only [hcount, Nat.add_assoc]
    rw [h32 (by omega), h32 (by omega)]
  unfold ofBytes
  rw [hcount, hdirectories, hmagic]
  simp only [Nat.add_assoc]
  cases l <;> simp (disch := decide) only [h8, h16, h32, haddress]

namespace Image

/-! ### The file header -/

/-- Reads the file header behind the signature at `start`, and records what is wrong with it. The
end that it declares for the optional header counts from `start`, in 32 bits. -/
def captureFileHeaderChecked (image : Image) (file : ByteArray) (start : ℕ) : Checked Image := do
  let off ← add 64 start ntSignatureSize
  let complete := decide ((← add 64 off FileHeader.size) < file.size)
  let header := if complete then FileHeader.ofBytes file off else {}
  let declared ← add 32 optionalStart header.optionalSize.toNat
  return { image with
    file := header
    latch := image.latch.check
      [(!complete, .headersOutOfFile),
       (header.machine == 0 && header.optionalSize == 0, .fileHeaderInvalid),
       (!header.has .executableImage, .notExecutable),
       (decide (header.sectionCount.toNat > image.config.maxSections), .notExecutable),
       (decide (start + declared ≥ UInt32.size), .headerEndOverflow)] }

lemma captureFileHeaderChecked_eq (image : Image) (file : ByteArray) {start : ℕ}
    (hstart : start < 2 ^ 32) :
    image.captureFileHeaderChecked file start = .ok (image.captureFileHeader file start) := by
  have hsign : ntSignatureSize = 4 := rfl
  have hsize : FileHeader.size = 20 := rfl
  have hopt : optionalStart = 24 := rfl
  have hdeclared (h : FileHeader) : optionalStart + h.optionalSize.toNat < 2 ^ 32 := by
    have := h.optionalSize.toNat_lt
    omega
  dsimp only [captureFileHeaderChecked, captureFileHeader]
  rw [add_eq (by omega), ok_bind, add_eq (by omega), ok_bind, add_eq (hdeclared _), ok_bind]
  simp only [Nat.add_assoc, pure_eq_ok]

/-! ### The optional header -/

/-- The layout of the optional header at `off`. -/
def layoutAtChecked (file : ByteArray) (off : ℕ) : Checked Layout := do
  let stop ← add 64 off 2
  return if stop < file.size ∧ u16At file off = Layout.wide.magic then .wide else .narrow

/-- The number of directories, of `n` declared ones, of which at least one byte lies in a file of
`fileSize` bytes, when the first of them is at `first`. The last of them counts if it is cut. -/
def directoriesInFileChecked (n first fileSize : ℕ) : Checked ℕ := do
  if first < fileSize then
    let stop ← add 64 first (← mul 64 n Directory.entrySize)
    if stop > fileSize then divUp 64 (← sub fileSize first) Directory.entrySize else return n
  else return n

/-- Copies the part of an optional header of layout `l` at `off` that the file holds to a buffer
that has room for either layout. -/
def headerBufferChecked (l : Layout) (file : ByteArray) (off : ℕ) : Checked ByteArray := do
  let buffer ← blank Layout.wide.size
  let available := min (file.size - off) l.size
  let stop ← add 64 off available
  if stop ≤ file.size then replace buffer 0 available (file.extract off stop) else return buffer

/-- Reads the optional header at `off`, with the offsets that tools need. -/
def captureOptionalHeaderChecked (image : Image) (file : ByteArray) (off : ℕ) :
    Checked Image := do
  let l ← layoutAtChecked file off
  let buffer ← headerBufferChecked l file off
  let header := OptionalHeader.ofBytes l buffer 0
  let first ← add 64 off l.directoriesOffset
  let present ← directoriesInFileChecked header.directoryCount.toNat first file.size
  let checksum ← add 64 off l.checksumOffset
  let security ← add 64 first (← mul 64 DirectoryKind.security.index Directory.entrySize)
  return { image with
    optional := header
    latch := image.latch.check
      [(l == .narrow && header.magic != Layout.narrow.magic, .optionalMagicInvalid)]
    presentDirectories := UInt32.ofNat present
    checksumOffset := UInt32.ofNat checksum
    securityOffset := UInt32.ofNat security }

lemma directoriesInFileChecked_eq {n first fileSize : ℕ} (hn : n < 2 ^ 32)
    (hfirst : first < 2 ^ 34) :
    directoriesInFileChecked n first fileSize = .ok (directoriesInFile n first fileSize) := by
  have hentry : Directory.entrySize = 8 := rfl
  rw [directoriesInFileChecked, directoriesInFile, hentry]
  by_cases hin : first < fileSize
  · rw [if_pos hin, mul_eq (by omega), ok_bind, add_eq (by omega), ok_bind]
    by_cases hcut : first + n * 8 > fileSize
    · rw [if_pos hcut, if_pos ⟨hin, hcut⟩, sub_eq hin.le, ok_bind, divUp_eq (by decide) (by omega)]
    · rw [if_neg hcut, if_neg fun h => hcut h.2]
      rfl
  · rw [if_neg hin, if_neg fun h => hin h.1]
    rfl

/-- The buffer reads as if the file went on with zeros. -/
lemma headerBufferChecked_eq (l : Layout) (file : ByteArray) {off : ℕ} (hoff : off < 2 ^ 33) :
    ∃ buffer, headerBufferChecked l file off = .ok buffer ∧
      ∀ k < l.size, byteAt buffer k = byteAt file (off + k) := by
  have hwide : l.size ≤ Layout.wide.size := by
    cases l <;> decide
  have hmax : Layout.wide.size = 240 := rfl
  rw [headerBufferChecked, blank_eq (by omega), ok_bind]
  dsimp only
  rw [add_eq (by omega), ok_bind]
  by_cases hin : off + min (file.size - off) l.size ≤ file.size
  · have hsource : (file.extract off (off + min (file.size - off) l.size)).size =
        min (file.size - off) l.size := by
      rw [ByteArray.size_extract]
      omega
    refine ⟨overwrite (zeros Layout.wide.size) 0
      (file.extract off (off + min (file.size - off) l.size)), ?_, fun k hk => ?_⟩
    · rw [if_pos hin, replace_eq (Nat.zero_le _) (by rw [size_zeros]; omega) (by omega)]
    · rw [byteAt_overwrite (by rw [hsource, size_zeros]; omega), hsource, byteAt_extract,
        byteAt_zeros]
      by_cases hk' : off + k < file.size
      · rw [if_pos (by omega), if_pos (by omega), Nat.sub_zero]
      · rw [if_neg (by omega), byteAt_eq_zero (by omega)]
  · refine ⟨zeros Layout.wide.size, ?_, fun k _ => ?_⟩
    · rw [if_neg hin]
      rfl
    · rw [byteAt_zeros, byteAt_eq_zero (by omega)]

lemma captureOptionalHeaderChecked_eq (image : Image) (file : ByteArray) {off : ℕ}
    (hoff : off < 2 ^ 33) :
    image.captureOptionalHeaderChecked file off = .ok (image.captureOptionalHeader file off) := by
  have hlayout : layoutAtChecked file off = .ok (layoutAt file off) := by
    rw [layoutAtChecked, add_eq (by omega)]
    rfl
  have hsmall (l : Layout) : l.directoriesOffset + l.checksumOffset < 2 ^ 10 := by
    cases l <;> decide
  obtain ⟨buffer, hbuffer, hbytes⟩ := headerBufferChecked_eq (layoutAt file off) file hoff
  have hheader : OptionalHeader.ofBytes (layoutAt file off) buffer 0 =
      OptionalHeader.ofBytes (layoutAt file off) file off :=
    OptionalHeader.ofBytes_congr fun k hk => by rw [Nat.zero_add, hbytes k hk]
  have hl := hsmall (layoutAt file off)
  have hsecurity : DirectoryKind.security.index * Directory.entrySize = 32 := rfl
  rw [captureOptionalHeaderChecked, hlayout, ok_bind, hbuffer, ok_bind, hheader]
  dsimp only
  rw [add_eq (by omega), ok_bind,
    directoriesInFileChecked_eq (UInt32.toNat_lt _) (by omega), ok_bind, add_eq (by omega), ok_bind,
    mul_eq (by omega), ok_bind, add_eq (by omega), ok_bind, Nat.add_assoc]
  rfl

/-! ### The whole step -/

/-- Reads and validates the NT headers. -/
def captureNtHeadersChecked (image : Image) (file : ByteArray) :
    Checked (Image × Except Fault Unit) := do
  let start := image.dos.ntOffset.toNat
  let whole ← add 64 start (optionalStart + Layout.narrow.size)
  if image.config.requiresWholeHeaders && whole > file.size then
    return (image.record .headersOutOfFile, .ok ())
  else
    let behind ← add 64 start ntSignatureSize
    if behind ≥ file.size then return (image.record .headersOutOfFile, .error .invalidFile)
    else
      let image := { image with ntSignature := u32At file start }
      if image.ntSignature ≠ ntSignatureValue then
        return (image.record .signatureMissing, .error .invalidFile)
      else
        let image ← image.captureFileHeaderChecked file start
        let image ← image.captureOptionalHeaderChecked file (← add 64 behind FileHeader.size)
        let _ ← pagesForChecked image.optional.sizeOfImage
        return (image.verifyHeaders, .ok ())

theorem captureNtHeadersChecked_eq (image : Image) (file : ByteArray) :
    image.captureNtHeadersChecked file = .ok (image.captureNtHeaders file) := by
  have hstart := image.dos.ntOffset.toNat_lt
  have hsign : ntSignatureSize = 4 := rfl
  have hfile : FileHeader.size = 20 := rfl
  have hnarrow : optionalStart + Layout.narrow.size = 248 := rfl
  dsimp only [captureNtHeadersChecked, captureNtHeaders]
  rw [add_eq (by omega), ok_bind, ← Nat.add_assoc, add_eq (by omega), ok_bind]
  split_ifs
  · rfl
  · rfl
  · rfl
  · rw [captureFileHeaderChecked_eq _ _ hstart, ok_bind, add_eq (by omega), ok_bind,
      Nat.add_assoc, captureOptionalHeaderChecked_eq _ _ (by omega), ok_bind, pagesForChecked_eq]
    rfl

end Image

end PeImage
