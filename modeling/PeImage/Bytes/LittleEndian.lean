/-
Unsigned numbers in byte buffers, least significant byte first.

One codec, by recursion on the width, gives every fixed-width field its meaning.

* `valueCount`: how many numbers `w` bytes can spell, which is `256 ^ w`.
* `natAt`: the number that the `w` bytes from a position on spell; `natAt_lt`, its range;
  `natAt_congr`, that only those bytes matter.
* `encode`: the `w` lowest bytes of a number, `natAt_encode` and `encode_natAt`: the two are inverse
  on numbers below `valueCount w` and on buffers of `w` bytes.
* `u16At`, `u32At`, `u64At`: the fields of two, four and eight bytes.
-/
import PeImage.Bytes.Basic

namespace PeImage

/-! ### Reading -/

/-- The number of values that `w` bytes can spell. -/
def valueCount : Nat → Nat
  | 0 => 1
  | w + 1 => 256 * valueCount w

/-- The number spelled by the `w` bytes from position `off` on. Bytes past the end count as zero. -/
def natAt (b : ByteArray) (off : Nat) : Nat → Nat
  | 0 => 0
  | w + 1 => (byteAt b off).toNat + 256 * natAt b (off + 1) w

theorem natAt_lt (b : ByteArray) (off w : Nat) : natAt b off w < valueCount w := by
  induction w generalizing off with
  | zero => exact Nat.zero_lt_one
  | succ w ih =>
    have h1 := ih (off + 1)
    have h2 := (byteAt b off).toNat_lt
    simp only [natAt, valueCount]
    omega

/-- Only the bytes that are read matter. -/
theorem natAt_congr {a b : ByteArray} {i j w : Nat}
    (h : ∀ k, k < w → byteAt a (i + k) = byteAt b (j + k)) : natAt a i w = natAt b j w := by
  induction w generalizing i j with
  | zero => rfl
  | succ w ih =>
    have h0 : byteAt a i = byteAt b j := h 0 (Nat.succ_pos w)
    have ht : natAt a (i + 1) w = natAt b (j + 1) w := ih fun k hk => by
      have := h (k + 1) (Nat.succ_lt_succ hk)
      rwa [← Nat.add_assoc, ← Nat.add_assoc, Nat.add_right_comm, Nat.add_right_comm j] at this
    simp only [natAt, h0, ht]

/-- The field of two bytes at `off`. -/
def u16At (b : ByteArray) (off : Nat) : UInt16 := UInt16.ofNat (natAt b off 2)

/-- The field of four bytes at `off`. -/
def u32At (b : ByteArray) (off : Nat) : UInt32 := UInt32.ofNat (natAt b off 4)

/-- The field of eight bytes at `off`. -/
def u64At (b : ByteArray) (off : Nat) : UInt64 := UInt64.ofNat (natAt b off 8)

theorem toNat_u16At (b : ByteArray) (off : Nat) : (u16At b off).toNat = natAt b off 2 :=
  UInt16.toNat_ofNat_of_lt' (natAt_lt b off 2)

theorem toNat_u32At (b : ByteArray) (off : Nat) : (u32At b off).toNat = natAt b off 4 :=
  UInt32.toNat_ofNat_of_lt' (natAt_lt b off 4)

theorem toNat_u64At (b : ByteArray) (off : Nat) : (u64At b off).toNat = natAt b off 8 :=
  UInt64.toNat_ofNat_of_lt' (natAt_lt b off 8)

/-! ### Writing -/

/-- The `w` lowest bytes of `v`, least significant first. -/
def digits : Nat → Nat → List UInt8
  | 0, _ => []
  | w + 1, v => UInt8.ofNat v :: digits w (v / 256)

@[simp] theorem length_digits (w v : Nat) : (digits w v).length = w := by
  induction w generalizing v with
  | zero => rfl
  | succ w ih => simp [digits, ih]

/-- The buffer of `w` bytes that spells `v`, modulo `valueCount w`. -/
def encode (w v : Nat) : ByteArray := (digits w v).toByteArray

@[simp] theorem size_encode (w v : Nat) : (encode w v).size = w := by
  rw [encode, List.size_toByteArray, length_digits]

/-- The byte view of a buffer built from a list. -/
theorem byteAt_toByteArray (l : List UInt8) (i : Nat) : byteAt l.toByteArray i = l.getD i 0 := by
  by_cases h : i < l.length
  · rw [byteAt_eq_getElem (by rw [List.size_toByteArray]; exact h), List.getElem_toByteArray]
    simp [h]
  · rw [byteAt_eq_zero (by rw [List.size_toByteArray]; omega)]
    simp [Nat.le_of_not_lt h]

/-- What is encoded reads back, up to the width. -/
theorem natAt_encode (w v : Nat) : natAt (encode w v) 0 w = v % valueCount w := by
  induction w generalizing v with
  | zero => exact (Nat.mod_one v).symm
  | succ w ih =>
    have h0 : byteAt (encode (w + 1) v) 0 = UInt8.ofNat v := by
      rw [encode, byteAt_toByteArray]
      rfl
    have ht : natAt (encode (w + 1) v) 1 w = natAt (encode w (v / 256)) 0 w :=
      natAt_congr fun k _ => by
        rw [encode, encode, byteAt_toByteArray, byteAt_toByteArray]
        simp [digits, Nat.add_comm 1 k]
    have hb : (UInt8.ofNat v).toNat = v % 256 := UInt8.toNat_ofNat'
    rw [natAt, h0, ht, ih, hb, valueCount, Nat.mod_mul]

/-- A buffer of `w` bytes is the encoding of the number it spells. -/
theorem digits_natAt (b : ByteArray) (off w : Nat) :
    digits w (natAt b off w) = (List.range w).map fun k => byteAt b (off + k) := by
  induction w generalizing off with
  | zero => rfl
  | succ w ih =>
    have hb := (byteAt b off).toNat_lt
    have hq : ((byteAt b off).toNat + 256 * natAt b (off + 1) w) / 256 = natAt b (off + 1) w := by
      omega
    have hr : UInt8.ofNat ((byteAt b off).toNat + 256 * natAt b (off + 1) w) = byteAt b off := by
      apply UInt8.toNat_inj.1
      rw [UInt8.toNat_ofNat']
      omega
    rw [natAt, digits, hq, hr, ih, List.range_succ_eq_map, List.map_cons, List.map_map]
    simp [Function.comp_def, Nat.add_assoc, Nat.add_comm 1]

theorem byteAt_encode_natAt {b : ByteArray} {off w k : Nat} (hk : k < w) :
    byteAt (encode w (natAt b off w)) k = byteAt b (off + k) := by
  rw [encode, byteAt_toByteArray, digits_natAt]
  simp [hk]

end PeImage
