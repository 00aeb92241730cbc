/-
Strings, and the bytes that they are read from.

The scan for the end of a string does not read the image. It has a loop of its own over the pages,
which looks at those with bytes of their own only, and a window of its own into a file that is
served raw. Still it ends where the bytes that a read moves have their first zero, because both see
the same stretch of bytes behind an address.

* `beforeZero`: the bytes in front of the first zero, and `EndsAt.beforeZero_eq`: they are known by
  where they end;
* `Image.Sees`: the stretch of bytes that reads and scans at an address see, and
  `Image.exists_sees`: there is one in every image, mapped, served raw or without contents;
* `Image.scansAsRead_of_reachable`: the length and the text of a string are those of the bytes in
  front of the first zero that is read.
-/
import PeImage.Memory.Scan
import PeImage.Proofs.DecodedText
import PeImage.Proofs.FlatMemory

namespace PeImage

/-! ### Bytes in front of a zero -/

/-- The bytes in front of the first zero of a buffer, all of them where there is none. -/
def beforeZero (b : ByteArray) : List UInt8 := b.data.toList.takeWhile (· != 0)

lemma ne_zero_of_mem_beforeZero {b : ByteArray} : ∀ x ∈ beforeZero b, x ≠ 0 := by
  intro x hx
  exact bne_iff_ne.mp (List.mem_takeWhile_imp (p := (· != 0)) hx)

/-- The first zero of a buffer is at a position, or the buffer has none and ends there. -/
structure EndsAt (b : ByteArray) (e : ℕ) : Prop where
  le_size : e ≤ b.size
  ne_zero : ∀ k < e, byteAt b k ≠ 0
  eq_zero : e < b.size → byteAt b e = 0

lemma getElem_toList {b : ByteArray} {k : ℕ} (h : k < b.data.toList.length) :
    b.data.toList[k] = byteAt b k := by
  rw [byteAt_eq_getElem (by rwa [Array.length_toList] at h), ByteArray.getElem_eq_getElem_data,
    Array.getElem_toList]

/-- The bytes in front of the first zero are those in front of the position. -/
lemma EndsAt.beforeZero_eq {b : ByteArray} {e : ℕ} (h : EndsAt b e) :
    beforeZero b = b.data.toList.take e := by
  have hlength : b.data.toList.length = b.size := Array.length_toList
  have hfront : ∀ x ∈ b.data.toList.take e, (x != 0) = true := by
    intro x hx
    obtain ⟨k, hk, rfl⟩ := List.mem_take_iff_getElem.mp hx
    rw [getElem_toList, bne_iff_ne]
    exact h.ne_zero k (lt_of_lt_of_le hk (min_le_left _ _))
  have hback : (b.data.toList.drop e).takeWhile (· != 0) = [] := by
    rcases Nat.lt_or_ge e b.size with hlt | hge
    · rw [List.drop_eq_getElem_cons (by omega), getElem_toList, h.eq_zero hlt]
      rfl
    · rw [List.drop_of_length_le (by omega), List.takeWhile_nil]
  rw [beforeZero]
  conv_lhs => rw [← List.take_append_drop e b.data.toList]
  rw [List.takeWhile_append_of_pos hfront, hback, List.append_nil]

/-! ### Mapped images -/

namespace Memory

variable {m : Memory} {a : ℕ}

/-- A string does not end behind what can be reached, because there is nothing but zeros behind the
table. -/
lemma stringLength_le (m : Memory) (a n : ℕ) : m.stringLength a n ≤ min n (m.reach - a) := by
  have hstop : m.stop a n = min (a + n) m.limit := rfl
  have hreach : m.reach = min m.limit m.tableEnd := rfl
  rw [stringLength]
  rcases Nat.lt_or_ge a (m.stop a n) with hlt | hge
  · have hle := m.stringEnd_le hlt.le
    have htable : m.stringEnd a (m.stop a n) ≤ max a m.tableEnd := by
      by_contra hbehind
      have hlast : m.flat (m.stringEnd a (m.stop a n) - 1) ≠ 0 := by
        refine @flat_ne_zero_of_lt_stringEnd m a (m.stop a n) _ ?_ ?_ <;> omega
      exact hlast (flat_eq_zero (by omega))
    omega
  · rw [stringEnd, dif_neg (by omega), Nat.sub_self]
    exact Nat.zero_le _

lemma flat_ne_zero_of_lt_stringLength {n k : ℕ} (h : k < m.stringLength a n) :
    m.flat (a + k) ≠ 0 := by
  have hlt : a + k < m.stringEnd a (m.stop a n) := Nat.add_lt_of_lt_sub' h
  exact flat_ne_zero_of_lt_stringEnd (Nat.le_add_right a k) hlt

lemma flat_stringLength {n : ℕ} (h : m.stringLength a n < min n (m.reach - a)) :
    m.flat (a + m.stringLength a n) = 0 := by
  have hle := m.le_stringEnd a (m.stop a n)
  have hstop : m.stop a n = min (a + n) m.limit := rfl
  have hreach : m.reach = min m.limit m.tableEnd := rfl
  rw [stringLength] at h ⊢
  rw [Nat.add_sub_cancel' hle]
  exact flat_stringEnd (by omega)

end Memory

namespace Image

variable {image : Image} {a : UInt32} {c : ℕ} {f : ℕ → UInt8}

/-! ### What an access sees -/

/-- Reads and scans at an address see a stretch of `c` bytes. -/
structure Sees (image : Image) (a : UInt32) (c : ℕ) (f : ℕ → UInt8) : Prop where
  /-- A read moves bytes up to its end, -/
  size_read : ∀ n, (image.read a n).size = min n c
  /-- and those are the bytes of the stretch. -/
  byteAt_read : ∀ n, ∀ k < min n c, byteAt (image.read a n) k = f k
  /-- A scan does not leave the stretch, -/
  stringLength_le : ∀ n, image.stringLength a n ≤ min n c
  /-- passes no zero, -/
  ne_zero : ∀ n, ∀ k < image.stringLength a n, f k ≠ 0
  /-- and ends at one if it ends within the stretch. -/
  eq_zero : ∀ n, image.stringLength a n < min n c → f (image.stringLength a n) = 0

/-- Pages that are whole, on which a scan skips none of what a read moves. -/
lemma sees_mapped {pages : Array Page} (hc : image.contents = .mapped pages)
    (h : AllWhole pages) (a : UInt32) :
    image.Sees a ((image.memoryOf pages).reach - a.toNat)
      fun k => (image.memoryOf pages).flat (a.toNat + k) := by
  have hm : (image.memoryOf pages).WellFormed := h
  have hread (n : ℕ) : image.read a n = (image.memoryOf pages).read a.toNat n := by
    rw [read, hc]
  have hlength (n : ℕ) :
      image.stringLength a n = (image.memoryOf pages).stringLength a.toNat n := by
    rw [stringLength, hc]
  constructor
  case size_read =>
    intro n
    rw [hread, Memory.size_read hm]
  case byteAt_read =>
    intro n k hk
    rw [hread]
    exact Memory.byteAt_read hm (by rwa [Memory.size_read hm])
  case stringLength_le =>
    intro n
    rw [hlength]
    exact Memory.stringLength_le _ _ n
  case ne_zero =>
    intro n k hk
    rw [hlength] at hk
    exact Memory.flat_ne_zero_of_lt_stringLength hk
  case eq_zero =>
    intro n hlt
    rw [hlength] at hlt ⊢
    exact Memory.flat_stringLength hlt

/-- The file of an image that is served raw, from the offset of the address on. -/
lemma sees_raw {file : ByteArray} {off : ℕ} (hc : image.contents = .raw file)
    (ho : image.rawOffset? file a = some off) :
    image.Sees a (file.size - off) fun k => byteAt file (off + k) := by
  have hread (n : ℕ) : image.read a n = window file off n := by
    simp only [read, readRaw, hc, ho]
  have hlength (n : ℕ) :
      image.stringLength a n = zeroFrom file off (min n (file.size - off)) - off := by
    simp only [stringLength, hc, ho]
  constructor
  case size_read =>
    intro n
    rw [hread, size_window]
  case byteAt_read =>
    intro n k hk
    rw [hread, byteAt_window, if_pos (by omega)]
  case stringLength_le =>
    intro n
    have hle := zeroFrom_le file off (min n (file.size - off))
    rw [hlength]
    omega
  case ne_zero =>
    intro n k hk
    rw [hlength] at hk
    exact byteAt_ne_zero_of_lt_zeroFrom (Nat.le_add_right off k) (Nat.add_lt_of_lt_sub' hk)
  case eq_zero =>
    intro n hlt
    rw [hlength] at hlt ⊢
    rw [Nat.add_sub_cancel' (le_zeroFrom file off _)]
    exact byteAt_zeroFrom (by omega)

/-- Nothing, where every read moves no bytes and every string is empty. -/
lemma sees_nothing (hread : ∀ n, image.read a n = .empty)
    (hlength : ∀ n, image.stringLength a n = 0) : image.Sees a 0 fun _ => 0 := by
  constructor
  case size_read =>
    intro n
    rw [hread, Nat.min_zero]
    rfl
  case byteAt_read => exact fun n k hk => absurd hk (by omega)
  case stringLength_le => exact fun n => (hlength n).le.trans (Nat.zero_le _)
  case ne_zero =>
    intro n k hk
    rw [hlength] at hk
    exact absurd hk (Nat.not_lt_zero k)
  case eq_zero => exact fun _ _ => rfl

/-- **Reads and scans see the same bytes**, if pages with bytes of their own are whole. -/
theorem exists_sees (h : AllWhole image.pages) (a : UInt32) : ∃ c f, image.Sees a c f := by
  cases hc : image.contents with
  | unmapped =>
      refine ⟨0, _, sees_nothing (fun n => ?_) fun n => ?_⟩
      · rw [read, hc]
      · rw [stringLength, hc]
  | mapped pages =>
      rw [Image.pages, hc] at h
      exact ⟨_, _, sees_mapped hc h a⟩
  | raw file =>
      cases ho : image.rawOffset? file a with
      | some off => exact ⟨_, _, sees_raw hc ho⟩
      | none =>
          refine ⟨0, _, sees_nothing (fun n => ?_) fun n => ?_⟩
          · simp only [read, readRaw, hc, ho]
          · simp only [stringLength, hc, ho]

namespace Sees

/-- A scan ends where the bytes that are read have their first zero. -/
lemma endsAt (h : image.Sees a c f) (n : ℕ) :
    EndsAt (image.read a n) (image.stringLength a n) := by
  have hle := h.stringLength_le n
  constructor
  case le_size => rwa [h.size_read]
  case ne_zero =>
    intro k hk
    rw [h.byteAt_read n k (by omega)]
    exact h.ne_zero n k hk
  case eq_zero =>
    intro hlt
    rw [h.size_read] at hlt
    rw [h.byteAt_read n _ hlt]
    exact h.eq_zero n hlt

/-- A shorter read moves the front of what a longer one moves. -/
lemma read_eq_extract (h : image.Sees a c f) {e n : ℕ} (he : e ≤ min n c) :
    image.read a e = (image.read a n).extract 0 e := by
  have hmin : min e c = e := by omega
  refine eq_of_byteAt_eq ?_ fun k hk => ?_
  · rw [h.size_read, ByteArray.size_extract, h.size_read]
    omega
  · rw [h.size_read] at hk
    rw [h.byteAt_read e k hk, byteAt_extract, h.size_read, if_pos (by omega), Nat.zero_add,
      h.byteAt_read n k (by omega)]

end Sees

/-- **Strings are what is read in front of a zero**: in every reachable image, the length of a
string is the number of bytes in front of the first zero among those that a read of the same number
of bytes moves, and its text is what exactly those bytes decode to, without a null character. -/
theorem scansAsRead_of_reachable (h : Reachable image) (a : UInt32) (n : ℕ) :
    image.stringLength a n = (beforeZero (image.read a n)).length ∧
      image.readString a n = decodeUtf8List (beforeZero (image.read a n)) ∧
      '\x00' ∉ (image.readString a n).toList := by
  obtain ⟨c, f, hsees⟩ := exists_sees h.allWhole a
  have hends := hsees.endsAt n
  have hfront : beforeZero (image.read a n) =
      (image.read a (image.stringLength a n)).data.toList := by
    rw [hends.beforeZero_eq, hsees.read_eq_extract (hsees.stringLength_le n),
      ByteArray.data_extract, Array.toList_extract, List.extract_eq_take_drop]
    simp
  have htext : image.readString a n = decodeUtf8List (beforeZero (image.read a n)) := by
    rw [hfront]
    rfl
  refine ⟨?_, htext, ?_⟩
  · rw [hends.beforeZero_eq, List.length_take, Array.length_toList]
    exact (min_eq_left hends.le_size).symm
  · rw [htext]
    exact not_mem_decodeUtf8List ne_zero_of_mem_beforeZero

/-- An image with a section that leaves it, and so without pages, and a string that is written into
the bytes of its file. -/
def servedImage : Image :=
  (empty (.ofVersion .generic)).run
    [.load .contents (smallFile 0x1000 0x2000
      [{ virtualSize := 0x2000, virtualAddress := 0x1000, rawSize := 8, rawPointer := 224 }]
      (List.replicate 8 1)),
     .write 0x10E0 [0x63, 0x61, 0x66, 0xC3, 0xA9, 0].toByteArray]

theorem scansAsRead_servedImage :
    servedImage.isMapped = false ∧ servedImage.stringLength 0x10E0 0x100 = 5 ∧
      servedImage.readString 0x10E0 0x100 = "café" ∧
      '\x00' ∉ (servedImage.readString 0x10E0 0x100).toList := by
  have hserved : servedImage.isMapped = false ∧
      beforeZero (servedImage.read 0x10E0 0x100) = [0x63, 0x61, 0x66, 0xC3, 0xA9] := by
    decide +kernel
  have htext : decodeUtf8List [0x63, 0x61, 0x66, 0xC3, 0xA9] = "café" := by decide +kernel
  have hreach : Reachable servedImage := ⟨_, _, rfl⟩
  have hscan := scansAsRead_of_reachable hreach 0x10E0 0x100
  rw [hserved.2, htext] at hscan
  exact ⟨hserved.1, hscan⟩

end Image

end PeImage
