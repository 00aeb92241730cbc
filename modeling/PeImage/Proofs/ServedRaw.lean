/-
Images that are served from the bytes of their file.

Where an image is not mapped, a read translates its first address, and goes on in the file from
there. In memory, the section behind the one that contains the first address may begin at once; in
the file, there may be something else between the two. So a byte comes from the offset that belongs
to its own address exactly if the section that contains it, or the headers do, is as far from its
place in the file as the one with the first address.

* `Image.displacement`: how far the offset of an address is from the address, and
  `Image.fileOffset?_eq_add`: the offset of every address that has one;
* `Image.ServesFile`: what reads of such an image move, from where, and what becomes of a read that
  is made in parts;
* `Image.servesFile_of_load`: every image that a load leaves without pages does so;
* `Image.reads_apartFile`: two sections that adjoin in memory but not in the file.
-/
import PeImage.Proofs.FlatTranslation
import PeImage.Proofs.TableWalk

namespace PeImage

namespace Image

variable {image loaded : Image} {file F : ByteArray} {a o : UInt32}

/-! ### Displacement -/

/-- How far the offset of the byte at an address is from the address, modulo `2 ^ 32`: as far as the
section that contains the address is in the file from where it is in memory, and not at all outside
of all sections. -/
def displacement (image : Image) (a : UInt32) : UInt32 :=
  match image.spans.find? (·.containsAddress a) with
  | some s => s.offset - s.address
  | none => 0

/-- An address that has an offset in the file has it at its displacement. -/
lemma fileOffset?_eq_add (h : image.fileOffset? a = some o) : o = a + image.displacement a := by
  rw [fileOffset?] at h
  rw [displacement]
  cases hs : image.spans.find? (·.containsAddress a) with
  | some s =>
      rw [hs] at h
      obtain rfl : s.offset + (a - s.address) = o := Option.some.inj h
      show s.offset + (a - s.address) = a + (s.offset - s.address)
      grind
  | none =>
      rw [hs] at h
      obtain rfl : o = a := eq_of_identity? h
      exact (UInt32.add_zero o).symm

/-! ### Reads -/

/-- Reads are served from the bytes of a file. -/
structure ServesFile (image : Image) (F : ByteArray) : Prop where
  /-- A read moves the bytes from the offset of its first address on, up to the end of the file, -/
  read_eq : ∀ a o n, image.fileOffset? a = some o → image.read a n = window F o.toNat n
  /-- and none if that address has no offset. -/
  read_none : ∀ a n, image.fileOffset? a = none → image.read a n = .empty
  /-- The offset of a byte is the one of its own address exactly if that is displaced as the first
  one is, -/
  offset_iff : ∀ a n k o o', k < (image.read a n).size → image.fileOffset? a = some o →
    image.fileOffset? (a + .ofNat k) = some o' →
      (o'.toNat = o.toNat + k ↔ image.displacement (a + .ofNat k) = image.displacement a)
  /-- and then it is the byte there that is moved. -/
  byteAt_read : ∀ a n k o', k < (image.read a n).size → image.fileOffset? (a + .ofNat k) = some o' →
    image.displacement (a + .ofNat k) = image.displacement a →
      byteAt (image.read a n) k = byteAt F o'.toNat
  /-- A read can be made in two parts if the second one begins with an address that is displaced
  like that. -/
  read_add : ∀ a m n o', (image.read a m).size = m → image.fileOffset? (a + .ofNat m) = some o' →
    image.displacement (a + .ofNat m) = image.displacement a →
      image.read a (m + n) = image.read a m ++ image.read (a + .ofNat m) n

section Raw

variable (hc : image.contents = .raw F) (hs : F.size < 2 ^ 32)

include hc

lemma read_of_raw (h : image.fileOffset? a = some o) (n : ℕ) :
    image.read a n = window F o.toNat n := by
  simp only [read, readRaw, rawOffset?, hc, h]
  split
  · next off hoff =>
    split_ifs at hoff
    cases hoff
    rfl
  · next hoff =>
    split_ifs at hoff with hin
    exact (window_eq_empty (Nat.le_of_not_le hin) n).symm

lemma read_of_raw_none (h : image.fileOffset? a = none) (n : ℕ) : image.read a n = .empty := by
  simp only [read, readRaw, rawOffset?, hc, h]

/-- The first address of a read that moves bytes has an offset. -/
lemma exists_offset {n k : ℕ} (hk : k < (image.read a n).size) :
    ∃ o, image.fileOffset? a = some o := by
  cases h : image.fileOffset? a with
  | some o => exact ⟨o, rfl⟩
  | none =>
      rw [read_of_raw_none hc h] at hk
      exact absurd hk (Nat.not_lt_zero k)

include hs

/-- A read does not leave the file, so no offset in it wraps around. -/
lemma toNat_offset_add {n k : ℕ} (hk : k ≤ (image.read a n).size)
    (h : image.fileOffset? a = some o) : (o + .ofNat k).toNat = o.toNat + k := by
  rw [read_of_raw hc h, size_window] at hk
  have ho := o.toNat_lt
  rw [UInt32.toNat_add, UInt32.toNat_ofNat', Nat.mod_eq_of_lt (b := 2 ^ 32) (by omega),
    Nat.mod_eq_of_lt (by omega)]

/-- The address of a byte has the offset from which the byte is moved exactly if it is displaced as
the first address is. -/
lemma offset_iff_of_raw {n k : ℕ} {o' : UInt32} (hk : k ≤ (image.read a n).size)
    (h : image.fileOffset? a = some o) (h' : image.fileOffset? (a + .ofNat k) = some o') :
    o'.toNat = o.toNat + k ↔ image.displacement (a + .ofNat k) = image.displacement a := by
  rw [← toNat_offset_add hc hs hk h, UInt32.toNat_inj, fileOffset?_eq_add h, fileOffset?_eq_add h',
    UInt32.add_assoc a (image.displacement a), UInt32.add_comm (image.displacement a),
    ← UInt32.add_assoc, UInt32.add_right_inj]

/-- **Served raw**: an image with the bytes of a file that offsets of 32 bits can address. -/
theorem servesFile_of_raw : image.ServesFile F := by
  constructor
  case read_eq => exact fun a o n h => read_of_raw hc h n
  case read_none => exact fun a n h => read_of_raw_none hc h n
  case offset_iff => exact fun a n k o o' hk h h' => offset_iff_of_raw hc hs hk.le h h'
  case byteAt_read =>
    intro a n k o' hk h' hd
    obtain ⟨o, h⟩ := exists_offset hc hk
    rw [(offset_iff_of_raw hc hs hk.le h h').mpr hd, read_of_raw hc h, byteAt_window, if_pos]
    rw [read_of_raw hc h, size_window] at hk
    omega
  case read_add =>
    intro a m n o' hm h' hd
    rcases Nat.eq_zero_or_pos m with rfl | hpos
    · have hempty : image.read a 0 = .empty := ByteArray.size_eq_zero_iff.mp hm
      have hsame : a + UInt32.ofNat 0 = a := UInt32.add_zero a
      rw [hempty, ByteArray.empty_append, hsame, Nat.zero_add]
    · obtain ⟨o, h⟩ := exists_offset hc (hpos.trans_eq hm.symm)
      have hsecond := (offset_iff_of_raw hc hs hm.ge h h').mpr hd
      rw [read_of_raw hc h, size_window] at hm
      rw [read_of_raw hc h, read_of_raw hc h, read_of_raw hc h', hsecond, window_add]

end Raw

/-! ### Loads -/

/-- **Images without pages**: what a load leaves unmapped is served from the bytes of the file, of
which the rules may have cleared some raw data pointers. -/
theorem servesFile_of_load (h : image.load file = (loaded, .ok ())) (hp : loaded.pageCount = 0) :
    ∃ F, loaded.ReadsTable file F ∧ loaded.ServesFile F := by
  obtain ⟨captured, F, hc, hl⟩ := loaded_of_load h
  have hreads := readsTable_of_capture hc
  have hsize := size_le_of_capture hc
  have hraw : loaded.contents = .raw F := by
    rcases hl.contents with ⟨pages, hpages, hempty⟩ | hraw
    · rw [pageCount, Image.pages, hpages] at hp
      rw [Array.isEmpty, hp] at hempty
      cases hempty
    · exact hraw
  refine ⟨F, ?_, servesFile_of_raw hraw ?_⟩
  · rw [hl.frame]
    exact ⟨hreads.length_eq, hreads.stored, hreads.size_eq, hreads.cleared, hreads.kept,
      hreads.lenient⟩
  · rw [hreads.size_eq]
    exact Nat.lt_succ_of_le hsize

/-! ### Sections that are apart in the file -/

/-- Two sections that adjoin in memory, with four bytes between them in the file. -/
def apartFile : ByteArray :=
  smallFile 4 0x2000
    [{ virtualSize := 4, virtualAddress := 0x1000, rawSize := 4, rawPointer := 264 },
     { virtualSize := 4, virtualAddress := 0x1004, rawSize := 4, rawPointer := 272 }]
    [1, 2, 3, 4, 9, 9, 9, 9, 5, 6, 7, 8]

/-- The second section is displaced in another way than the first one; within each of them, a read
moves the bytes of its own addresses. -/
theorem servesFile_apartFile :
    ∃ F, (loadFile apartFile).1.ReadsTable apartFile F ∧ (loadFile apartFile).1.ServesFile F ∧
      (loadFile apartFile).1.displacement 0x1000 = (loadFile apartFile).1.displacement 0x1003 ∧
      (loadFile apartFile).1.displacement 0x1000 ≠ (loadFile apartFile).1.displacement 0x1004 := by
  have hload : (loadFile apartFile).2 = .ok () ∧ (loadFile apartFile).1.pageCount = 0 ∧
      (loadFile apartFile).1.displacement 0x1000 = (loadFile apartFile).1.displacement 0x1003 ∧
      (loadFile apartFile).1.displacement 0x1000 ≠ (loadFile apartFile).1.displacement 0x1004 := by
    decide +kernel
  obtain ⟨hok, hpages, hwithin, hacross⟩ := hload
  obtain ⟨F, hreads, hserves⟩ := servesFile_of_load (load_empty_eq hok) hpages
  exact ⟨F, hreads, hserves, hwithin, hacross⟩

/-- A read over the border of the two sections moves what is between them in the file, although the
address of the fifth byte has the offset of the second section, and although two reads of four bytes
move the bytes of both. -/
theorem reads_apartFile :
    let loaded := (loadFile apartFile).1
    (loadFile apartFile).2 = .ok () ∧ loaded.pageCount = 0 ∧ 4 < (loaded.read 0x1000 8).size ∧
      loaded.fileOffset? (0x1000 + 4) = some 272 ∧ 272 < apartFile.size ∧
      byteAt (loaded.read 0x1000 8) 4 ≠ byteAt apartFile 272 ∧
      (loaded.read 0x1000 8).data ≠ (loaded.read 0x1000 4 ++ loaded.read 0x1004 4).data := by
  decide +kernel

end Image

end PeImage
