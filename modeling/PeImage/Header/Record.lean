/-
Records: fields of fixed width, one behind the other.

A header is written field by field, and writing stops at the first field that does not fit, with
the fields before it already in place.

* `Field`, `totalWidth`: a number with its width, and the length of a record.
* `writeFields`: writing at a position; `writeFields_ok_iff`: it succeeds exactly when the whole
  record lies within the buffer, and `size_writeFields`: the buffer keeps its size in any case.
-/
import PeImage.Bytes.LittleEndian
import PeImage.Fault

namespace PeImage

/-- A number to be written in a number of bytes. -/
structure Field where
  /-- Bytes taken. -/
  width : Nat
  /-- The number, which counts modulo `valueCount width`. -/
  value : Nat
  deriving DecidableEq, Repr

namespace Field

/-- A field of one byte. -/
def u8 (v : UInt8) : Field := ⟨1, v.toNat⟩

/-- A field of two bytes. -/
def u16 (v : UInt16) : Field := ⟨2, v.toNat⟩

/-- A field of four bytes. -/
def u32 (v : UInt32) : Field := ⟨4, v.toNat⟩

end Field

/-- The number of bytes that a list of fields takes. -/
def totalWidth : List Field → Nat
  | [] => 0
  | f :: rest => f.width + totalWidth rest

/-- Writes fields one behind the other from `off` on, up to the first that does not fit. The buffer
is the one after the fields that did. -/
def writeFields (b : ByteArray) (off : Nat) : List Field → ByteArray × Except Fault Unit
  | [] => (b, .ok ())
  | f :: rest =>
    if off + f.width ≤ b.size then
      writeFields (overwrite b off (encode f.width f.value)) (off + f.width) rest
    else (b, .error .outOfBounds)

theorem size_overwrite_encode {b : ByteArray} {off w v : Nat} (h : off + w ≤ b.size) :
    (overwrite b off (encode w v)).size = b.size :=
  size_overwrite (by rwa [size_encode])

theorem size_writeFields (b : ByteArray) (off : Nat) (fields : List Field) :
    (writeFields b off fields).1.size = b.size := by
  induction fields generalizing b off with
  | nil => rfl
  | cons f rest ih =>
    unfold writeFields
    split
    · next h => rw [ih, size_overwrite_encode h]
    · rfl

/-- A nonempty record is written completely exactly when it lies within the buffer. -/
theorem writeFields_ok_iff {b : ByteArray} {off : Nat} {fields : List Field}
    (hf : ∀ f ∈ fields, 0 < f.width) (hne : fields ≠ []) :
    (writeFields b off fields).2 = .ok () ↔ off + totalWidth fields ≤ b.size := by
  induction fields generalizing b off with
  | nil => exact absurd rfl hne
  | cons f rest ih =>
    unfold writeFields
    have hw : totalWidth (f :: rest) = f.width + totalWidth rest := rfl
    split
    · next h =>
      cases rest with
      | nil => simpa [writeFields, totalWidth] using h
      | cons g rest =>
        rw [ih (fun x hx => hf x (List.mem_cons_of_mem _ hx)) (List.cons_ne_nil _ _),
          size_overwrite_encode h, hw, Nat.add_assoc]
    · next h =>
      simp only [reduceCtorEq, false_iff, hw]
      omega

end PeImage
