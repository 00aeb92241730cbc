/-
All ways to load an image agree.

A source and a stream have their DOS header looked at before the rest is read, and a load looks at
it again. Both looks see the same header and come to the same end, so it does not matter where the
bytes of a file come from, nor what was loaded before.

* `DosHeader.ofBytes_congr`: only the first 64 bytes count for the DOS header;
* `Image.load_of_verify_error`: what a load does with an input that the early look refuses;
* `Image.loadSource_eq_load`, `Image.loadStream_ofBytes`: loading from a source and from a stream;
* `Image.entryPoints_agree`: all of them.
-/
import PeImage.Image.Source
import PeImage.Proofs.PageTable

namespace PeImage

/-! ### The header that is looked at early -/

/-- Buffers with the same first 64 bytes spell the same DOS header. -/
lemma DosHeader.ofBytes_congr {a b : ByteArray} (h : ∀ i < size, byteAt a i = byteAt b i) :
    ofBytes a = ofBytes b := by
  have hnat {off w : ℕ} (hw : off + w ≤ size) : natAt a off w = natAt b off w :=
    natAt_congr fun k hk => h _ (by omega)
  have h16 {off : ℕ} (hw : off + 2 ≤ size) : u16At a off = u16At b off := by
    rw [u16At, u16At, hnat hw]
  have h32 {off : ℕ} (hw : off + 4 ≤ size) : u32At a off = u32At b off := by
    rw [u32At, u32At, hnat hw]
  have hreserved : (Vector.ofFn fun i : Fin 4 => u16At a (28 + 2 * i)) =
      Vector.ofFn fun i : Fin 4 => u16At b (28 + 2 * i) :=
    congrArg Vector.ofFn (funext fun i => h16 (by simp only [size]; omega))
  have htail : (Vector.ofFn fun i : Fin 10 => u16At a (40 + 2 * i)) =
      Vector.ofFn fun i : Fin 10 => u16At b (40 + 2 * i) :=
    congrArg Vector.ofFn (funext fun i => h16 (by simp only [size]; omega))
  rw [ofBytes, ofBytes, hreserved, htail]
  simp (disch := decide) only [h16, h32]

/-- The header at the start of a long enough window is the one that a window of 64 bytes spells. -/
lemma DosHeader.ofBytes_window {b : ByteArray} {off n : ℕ} (hn : size ≤ n) :
    ofBytes (window b off size) = ofBytes (window b off n) := by
  refine ofBytes_congr fun i hi => ?_
  rw [byteAt_window, byteAt_window, if_pos hi, if_pos (by omega)]

namespace Image

variable {image : Image} {file data : ByteArray}

/-! ### Sources -/

/-- A load starts from nothing. -/
lemma load_empty (image : Image) (file : ByteArray) :
    (empty image.config).load file = image.load file := rfl

/-- A load refuses an input without a complete header. -/
lemma load_of_size_le (h : file.size ≤ DosHeader.size) :
    image.load file = (empty image.config, .error .invalidFile) := by
  have hsmall : ¬ file.size > maxFileSize := by
    simp only [maxFileSize, DosHeader.size] at *
    omega
  simp only [load, loadTo, capture, if_neg hsmall, if_pos h]

/-- A load refuses an input for its header in the same way as the early look at it. -/
lemma load_of_verify_error {cause : Option Diagnostic} (hs : file.size ≤ maxFileSize)
    (hlen : ¬ file.size ≤ DosHeader.size)
    (h : (DosHeader.ofBytes file).verify file.size = .error cause) :
    image.load file = ((empty image.config).refuse cause, .error .invalidFile) := by
  simp only [load, loadTo, capture, if_neg (Nat.not_lt.mpr hs), if_neg hlen, h]

/-- Loading from a source is loading its bytes. -/
theorem loadSource_eq_load (image : Image) (hs : file.size ≤ maxFileSize) :
    image.loadSource ⟨file⟩ = image.load file := by
  rw [loadSource, Source.size]
  by_cases hlen : file.size ≤ DosHeader.size
  · rw [if_pos hlen, load_of_size_le hlen]
  · rw [if_neg hlen]
    split
    · next cause hv => rw [load_of_verify_error hs hlen hv]
    · exact load_empty image file

/-- A path to a file leads to its bytes. -/
lemma loadEntry_file (image : Image) (file : ByteArray) :
    image.loadEntry (.file file) = image.loadSource ⟨file⟩ := rfl

/-! ### Streams -/

/-- A stream in which nothing fails gives every window that lies in it. -/
lemma read_ofBytes {off n : ℕ} (h : off + n ≤ data.size) :
    (Stream.ofBytes data).read off n = .ok (window data off n) := by
  have hmin : min n (min data.size data.size - off) = n := by omega
  simp only [Stream.read, Stream.readFailure?, Stream.ofBytes, Stream.size, hmin]

lemma readDosHeader_ofBytes {off : ℕ} (h : off + DosHeader.size ≤ data.size) :
    readDosHeader (.ofBytes data) off =
      .ok (DosHeader.ofBytes (window data off DosHeader.size)) := by
  have hseek : (Stream.ofBytes data).seek 1 = .ok () := rfl
  have hsize : (window data off DosHeader.size).size = DosHeader.size := by
    rw [size_window]
    omega
  simp only [readDosHeader, hseek, Stream.readExactly, read_ofBytes h, bind, Except.bind, hsize,
    if_true]

lemma readFileBytes_ofBytes {off n : ℕ} (h : off + n ≤ data.size) :
    readFileBytes (.ofBytes data) off n = .ok (window data off n) := by
  have hseek : (Stream.ofBytes data).seek 2 = .ok () := rfl
  have hsize : ¬ (window data off n).size < n := by
    rw [size_window]
    omega
  simp only [readFileBytes, hseek, read_ofBytes h, if_neg hsize]

/-- Loading from a stream in which nothing fails is loading what it holds behind the offset. -/
theorem loadStream_ofBytes (image : Image) {off : ℕ} (hs : data.size - off ≤ maxFileSize) :
    image.loadStream (.ofBytes data) off =
      image.load (window data off (data.size - off)) := by
  have hsize : (window data off (data.size - off)).size = data.size - off := by
    rw [size_window]
    omega
  have hseek : (Stream.ofBytes data).seek 0 = .ok () := rfl
  have hclaimed : (Stream.ofBytes data).claimedSize = data.size := rfl
  simp only [loadStream, hseek, hclaimed, if_neg (Nat.not_lt.mpr hs)]
  split_ifs with hoff hlen
  · -- behind the end of the stream there is nothing to load
    rw [load_of_size_le (by rw [hsize]; omega)]
  · rw [load_of_size_le (by rwa [hsize])]
  · simp only [readDosHeader_ofBytes (show off + DosHeader.size ≤ data.size by omega),
      readFileBytes_ofBytes (show off + (data.size - off) ≤ data.size by omega),
      DosHeader.ofBytes_window (Nat.le_of_not_le hlen)]
    split
    · next cause hv =>
      rw [← hsize] at hs hlen
      rw [load_of_verify_error hs hlen (by rwa [hsize])]
    · exact load_empty image _

/-! ### All of them -/

/-- **All entry points load the same image**: bytes behind an offset of a stream, the same bytes in
memory or in a file on disk, and the bytes themselves. They end in the same way and in the same
state, and what was loaded before does not count. -/
theorem entryPoints_agree (image : Image) (data : ByteArray) (off : ℕ)
    (hs : data.size - off < 2 ^ 32) :
    let part := window data off (data.size - off)
    image.loadStream (.ofBytes data) off = image.load part ∧
      image.loadSource ⟨part⟩ = image.load part ∧
      image.loadEntry (.file part) = image.load part ∧
      image.load part = (empty image.config).load part := by
  have hmax : data.size - off ≤ maxFileSize := by
    rw [maxFileSize]
    omega
  have hpart : (window data off (data.size - off)).size ≤ maxFileSize := by
    rw [size_window]
    omega
  have hsource := loadSource_eq_load image hpart
  exact ⟨loadStream_ofBytes image hmax, hsource, (loadEntry_file image _).trans hsource,
    (load_empty image _).symm⟩

/-- What stands behind other bytes is found there. -/
lemma window_append (a b : ByteArray) : window (a ++ b) a.size ((a ++ b).size - a.size) = b := by
  refine ByteArray.extract_append_eq_right rfl ?_
  rw [ByteArray.size_append, Nat.add_sub_cancel_left]

/-- A file behind three other bytes, loaded where something else is loaded already. -/
theorem entryPoints_agree_dataFile :
    (loadFile (zeros 65)).1.loadStream (.ofBytes (zeros 3 ++ dataFile)) 3 = loadFile dataFile := by
  have hpart := window_append (zeros 3) dataFile
  rw [size_zeros] at hpart
  have hconfig : (loadFile (zeros 65)).1.config = .ofVersion .generic := by decide +kernel
  have hagree := entryPoints_agree (loadFile (zeros 65)).1 (zeros 3 ++ dataFile) 3
    (by decide +kernel)
  rw [hagree.1, hagree.2.2.2, hpart, hconfig, loadFile]

end Image

end PeImage
