/-
Records in a buffer, written and read back.

A record is written field by field. So what a write leaves is told by the fields at its front that
have room in the buffer, whether these are all of them or not, and reading as many bytes for each
field gives the record back.

* `recordBytes`, `fitting`: the bytes of a record, and the fields at its front that have room;
* `byteAt_writeFields`, `writeFields_snd`: what a write does to the buffer, and whether it succeeds;
* `fieldsAt`: the record of given widths at a position, `fieldsAt_eq_of_byteAt`: it is the one that
  was written, and `writeFields_fieldsAt`: to write it back changes nothing.
-/
import Mathlib
import PeImage.Header.Record

namespace PeImage

variable {b : ByteArray} {off room : ℕ} {fields : List Field} {widths : List ℕ}

/-! ### Fields -/

namespace Field

lemma u8_injective : Function.Injective u8 := fun x y h => by
  simpa [u8, UInt8.toNat_inj] using h

lemma u16_injective : Function.Injective u16 := fun x y h => by
  simpa [u16, UInt16.toNat_inj] using h

lemma u32_injective : Function.Injective u32 := fun x y h => by
  simpa [u32, UInt32.toNat_inj] using h

lemma lt_u8 (x : UInt8) : (u8 x).value < valueCount (u8 x).width := x.toNat_lt

lemma lt_u16 (x : UInt16) : (u16 x).value < valueCount (u16 x).width := x.toNat_lt

lemma lt_u32 (x : UInt32) : (u32 x).value < valueCount (u32 x).width := x.toNat_lt

lemma u8_byteAt (b : ByteArray) (off : ℕ) : u8 (byteAt b off) = ⟨1, natAt b off 1⟩ := rfl

lemma u16_u16At (b : ByteArray) (off : ℕ) : u16 (u16At b off) = ⟨2, natAt b off 2⟩ := by
  rw [u16, toNat_u16At]

lemma u32_u32At (b : ByteArray) (off : ℕ) : u32 (u32At b off) = ⟨4, natAt b off 4⟩ := by
  rw [u32, toNat_u32At]

end Field

/-! ### The bytes of a record -/

/-- The bytes of a record, field by field. -/
def recordBytes : List Field → ByteArray
  | [] => .empty
  | f :: rest => encode f.width f.value ++ recordBytes rest

lemma totalWidth_eq_sum (fields : List Field) :
    totalWidth fields = (fields.map Field.width).sum := by
  induction fields with
  | nil => rfl
  | cons f rest ih => rw [totalWidth, ih, List.map_cons, List.sum_cons]

/-- The fields at the front of a record that have room in a number of bytes. -/
def fitting (room : ℕ) : List Field → List Field
  | [] => []
  | f :: rest => if f.width ≤ room then f :: fitting (room - f.width) rest else []

lemma fitting_eq_self (h : totalWidth fields ≤ room) : fitting room fields = fields := by
  induction fields generalizing room with
  | nil => rfl
  | cons f rest ih =>
      rw [totalWidth] at h
      rw [fitting, if_pos (by omega), ih (by omega)]

/-- They are at most all of them. -/
lemma totalWidth_fitting_le (room : ℕ) (fields : List Field) :
    totalWidth (fitting room fields) ≤ totalWidth fields := by
  induction fields generalizing room with
  | nil => exact le_rfl
  | cons f rest ih =>
      rw [fitting]
      split_ifs
      · exact Nat.add_le_add_left (ih _) _
      · exact Nat.zero_le _

/-! ### Writing -/

/-- **What a write does to the buffer**: the fields that have room are in their places, and every
other byte is as it was. By induction over the fields, with the first one in place already. -/
theorem byteAt_writeFields (hf : ∀ f ∈ fields, 0 < f.width) (b : ByteArray) (off i : ℕ) :
    byteAt (writeFields b off fields).1 i =
      if i ∈ Set.Ico off (off + totalWidth (fitting (b.size - off) fields)) then
        byteAt (recordBytes (fitting (b.size - off) fields)) (i - off)
      else byteAt b i := by
  simp only [Set.mem_Ico]
  induction fields generalizing b off with
  | nil =>
      rw [if_neg (by rw [fitting, totalWidth]; omega)]
      rfl
  | cons f rest ih =>
      have hpos := hf f List.mem_cons_self
      rw [writeFields, fitting]
      by_cases hin : off + f.width ≤ b.size
      · have hroom : b.size - (off + f.width) = b.size - off - f.width := by omega
        have hplace : off + (encode f.width f.value).size ≤ b.size := by rwa [size_encode]
        rw [if_pos hin, if_pos (show f.width ≤ b.size - off by omega),
          ih (fun g hg => hf g (List.mem_cons_of_mem f hg)), size_overwrite_encode hin, hroom,
          byteAt_overwrite hplace, totalWidth, recordBytes, byteAt_append, size_encode]
        split_ifs
        all_goals first | omega | rfl | exact congrArg _ (by omega)
      · rw [if_neg hin, if_neg (show ¬ f.width ≤ b.size - off by omega), totalWidth,
          if_neg (by omega)]

/-- A write that does not succeed leaves the buffer. -/
lemma writeFields_snd_eq_or (b : ByteArray) (off : ℕ) (fields : List Field) :
    (writeFields b off fields).2 = .ok () ∨ (writeFields b off fields).2 = .error .outOfBounds := by
  induction fields generalizing b off with
  | nil => exact .inl rfl
  | cons f rest ih =>
      rw [writeFields]
      split_ifs
      · exact ih _ _
      · exact .inr rfl

/-- **When a write succeeds**: if all fields have room. -/
theorem writeFields_snd (hf : ∀ f ∈ fields, 0 < f.width) (hne : fields ≠ []) (b : ByteArray)
    (off : ℕ) : (writeFields b off fields).2 =
      if off + totalWidth fields ≤ b.size then .ok () else .error .outOfBounds := by
  have hok : (writeFields b off fields).2 = .ok () ↔ off + totalWidth fields ≤ b.size :=
    writeFields_ok_iff hf hne
  split_ifs with hin
  · exact hok.mpr hin
  · exact (writeFields_snd_eq_or b off fields).resolve_left fun h => hin (hok.mp h)

/-! ### Reading -/

/-- The record with fields of the given widths that the bytes from a position on spell. -/
def fieldsAt (b : ByteArray) (off : ℕ) : List ℕ → List Field
  | [] => []
  | w :: rest => ⟨w, natAt b off w⟩ :: fieldsAt b (off + w) rest

/-- An array is read as fields of one width. -/
lemma ofFn_natAt (b : ByteArray) (off w n : ℕ) :
    (List.ofFn fun i : Fin n => Field.mk w (natAt b (off + w * i) w)) =
      fieldsAt b off (List.replicate n w) := by
  induction n generalizing off with
  | zero => rfl
  | succ n ih =>
      rw [List.ofFn_succ, List.replicate_succ, fieldsAt, ← ih]
      simp [Nat.mul_add, Nat.add_assoc, Nat.add_comm w]

/-- **Reading back**: where the bytes of a record are, it is read with the widths of its fields. -/
theorem fieldsAt_eq_of_byteAt (hv : ∀ f ∈ fields, f.value < valueCount f.width)
    (h : ∀ i < totalWidth fields, byteAt b (off + i) = byteAt (recordBytes fields) i) :
    fieldsAt b off (fields.map Field.width) = fields := by
  induction fields generalizing off with
  | nil => rfl
  | cons f rest ih =>
      have hbyte (i : ℕ) : byteAt (recordBytes (f :: rest)) i =
          if i < f.width then byteAt (encode f.width f.value) i
          else byteAt (recordBytes rest) (i - f.width) := by
        rw [recordBytes, byteAt_append, size_encode]
      rw [totalWidth] at h
      have hvalue : natAt b off f.width = f.value := by
        have hspelled : natAt b off f.width = natAt (encode f.width f.value) 0 f.width :=
          natAt_congr fun k hk => by rw [h k (by omega), hbyte, if_pos hk, Nat.zero_add]
        rw [hspelled, natAt_encode, Nat.mod_eq_of_lt (hv f List.mem_cons_self)]
      have hrest : fieldsAt b (off + f.width) (rest.map Field.width) = rest := by
        refine ih (fun g hg => hv g (List.mem_cons_of_mem f hg)) fun i hi => ?_
        rw [Nat.add_assoc, h _ (by omega), hbyte, if_neg (by omega), Nat.add_sub_cancel_left]
      rw [List.map_cons, fieldsAt, hvalue, hrest]

/-- A field that is read from its place is there already. -/
lemma overwrite_encode_natAt {w : ℕ} (h : off + w ≤ b.size) :
    overwrite b off (encode w (natAt b off w)) = b := by
  refine eq_of_byteAt_eq (size_overwrite_encode h) fun i _ => ?_
  rw [byteAt_overwrite (by rwa [size_encode]), size_encode]
  split_ifs with hin
  · rw [byteAt_encode_natAt (by omega), Nat.add_sub_cancel' hin.1]
  · rfl

/-- **Writing back** what is read changes nothing. -/
theorem writeFields_fieldsAt (h : off + widths.sum ≤ b.size) :
    writeFields b off (fieldsAt b off widths) = (b, .ok ()) := by
  induction widths generalizing off with
  | nil => rfl
  | cons w rest ih =>
      rw [List.sum_cons] at h
      have hin : off + w ≤ b.size := by omega
      have hrest : off + w + rest.sum ≤ b.size := by omega
      rw [fieldsAt, writeFields, if_pos hin, overwrite_encode_natAt hin]
      exact ih hrest

end PeImage
