/-
The number in an Itanium bundle, bit by bit.

A number is taken apart into pieces, and each piece lies in a field of one of the words. The pieces
make up the whole number, and the fields do not overlap. So what is put in comes out again, and the
bits outside of the fields stay.

* `ImmediateField.Fits`, `ImmediateField.Covers`: a field that lies within its word, and the bits of
  a bundle that it takes up; `ImmediateField.testBit_ofWord`, `ImmediateField.testBit_intoWord`: the
  bits of a piece and of a word with a piece;
* `Bundle.testBit_immediate`, `Bundle.bit_setImmediate`: the bits of the number, and of a bundle
  with another number;
* `Bundle.immediate_setImmediate`, `Bundle.setImmediate_setImmediate`,
  `Bundle.setImmediate_immediate`: the number that was put in last is the one that comes out, and
  putting back what is there changes nothing;
* `Bundle.ofBytes_toByteArray`, `Bundle.toByteArray_ofBytes`: bundles and their bytes.
-/
import Mathlib
import PeImage.Bundle

namespace PeImage

/-- Words with the same bits are equal. -/
lemma eq_of_testBit_eq {a b : UInt32} (h : ∀ j < 32, a.toNat.testBit j = b.toNat.testBit j) :
    a = b := by
  refine UInt32.toNat_inj.mp (Nat.eq_of_testBit_eq fun j => ?_)
  by_cases hj : j < 32
  · exact h j hj
  · have hlt (w : UInt32) : w.toNat.testBit j = false :=
      Nat.testBit_lt_two_pow
        (lt_of_lt_of_le w.toNat_lt (Nat.pow_le_pow_right (by decide) (by omega)))
    rw [hlt, hlt]

/-! ### One field -/

namespace ImmediateField

variable {f : ImmediateField} {i j : ℕ}

/-- The field lies within its word, and the piece within the number. -/
def Fits (f : ImmediateField) : Prop :=
  f.width.toNat < 32 ∧ f.position.toNat + f.width.toNat ≤ 32 ∧
    f.valuePosition.toNat + f.width.toNat ≤ 64 ∧ f.position.toNat < 32 ∧ f.valuePosition.toNat < 64

instance (f : ImmediateField) : Decidable f.Fits := inferInstanceAs (Decidable (_ ∧ _))

/-- The bits of a word that the field takes up. -/
def Covers (f : ImmediateField) (j : ℕ) : Prop :=
  f.position.toNat ≤ j ∧ j < f.position.toNat + f.width.toNat

instance (f : ImmediateField) (j : ℕ) : Decidable (f.Covers j) :=
  inferInstanceAs (Decidable (_ ∧ _))

/-- The bits of the number that the field holds. -/
def Holds (f : ImmediateField) (i : ℕ) : Prop :=
  f.valuePosition.toNat ≤ i ∧ i < f.valuePosition.toNat + f.width.toNat

instance (f : ImmediateField) (i : ℕ) : Decidable (f.Holds i) := inferInstanceAs (Decidable (_ ∧ _))

lemma toNat_mask (h : f.Fits) : f.mask.toNat = 2 ^ f.width.toNat - 1 := by
  have hpow : 2 ^ f.width.toNat < 2 ^ 32 := Nat.pow_lt_pow_right (by decide) h.1
  have hone : ((1 : UInt32) <<< f.width).toNat = 2 ^ f.width.toNat := by
    rw [UInt32.toNat_shiftLeft, Nat.mod_eq_of_lt h.1, Nat.shiftLeft_eq, UInt32.toNat_one,
      Nat.one_mul, Nat.mod_eq_of_lt hpow]
  rw [mask, UInt32.toNat_sub_of_le, hone]
  · rfl
  · rw [UInt32.le_iff_toNat_le, hone]
    exact Nat.one_le_two_pow

/-- The bits of a piece are those of the field, at their places in the number. -/
lemma testBit_ofWord (h : f.Fits) (word : UInt32) (i : ℕ) :
    (f.ofWord word).toNat.testBit i = (decide (f.Holds i) &&
      word.toNat.testBit (f.position.toNat + (i - f.valuePosition.toNat))) := by
  obtain ⟨-, -, hvalue, hp, hv⟩ := id h
  rw [ofWord, UInt64.toNat_shiftLeft, UInt32.toNat_toUInt64, UInt32.toNat_and, toNat_mask h,
    UInt32.toNat_shiftRight, UInt32.toNat_toUInt64, Nat.mod_eq_of_lt hp, Nat.mod_eq_of_lt hv,
    Nat.testBit_mod_two_pow, Nat.testBit_shiftLeft, Nat.testBit_and, Nat.testBit_shiftRight,
    Nat.testBit_two_pow_sub_one]
  by_cases hin : f.Holds i
  · have hlow := hin.1
    have hhigh : i - f.valuePosition.toNat < f.width.toNat := by
      have := hin.2
      omega
    simp [hin, hlow, hhigh, show i < 64 by have := hin.2; omega]
  · rw [Holds] at hin
    by_cases hlow : f.valuePosition.toNat ≤ i
    · simp [Holds, hlow, show ¬ i - f.valuePosition.toNat < f.width.toNat by omega,
        show ¬ i < f.valuePosition.toNat + f.width.toNat by omega]
    · simp [Holds, hlow]

/-- Putting a piece into a word changes the bits of the field and no others. -/
lemma testBit_intoWord (h : f.Fits) (word : UInt32) (value : UInt64) {j : ℕ} (hj : j < 32) :
    (f.intoWord word value).toNat.testBit j =
      if f.Covers j then value.toNat.testBit (f.valuePosition.toNat + (j - f.position.toNat))
      else word.toNat.testBit j := by
  obtain ⟨hw, -, -, hp, hv⟩ := id h
  simp only [intoWord, UInt32.toNat_or, UInt32.toNat_and, UInt32.toNat_not,
    UInt32.toNat_shiftLeft, UInt64.toNat_toUInt32, UInt64.toNat_shiftRight, UInt32.toNat_toUInt64,
    toNat_mask h, Nat.mod_eq_of_lt hp, Nat.mod_eq_of_lt hv]
  have hlt : (2 ^ f.width.toNat - 1) <<< f.position.toNat % 2 ^ 32 < 2 ^ 32 :=
    Nat.mod_lt _ (by decide)
  rw [show UInt32.size - 1 - (2 ^ f.width.toNat - 1) <<< f.position.toNat % 2 ^ 32 =
      2 ^ 32 - ((2 ^ f.width.toNat - 1) <<< f.position.toNat % 2 ^ 32 + 1) by
      rw [show UInt32.size = 2 ^ 32 from rfl]; omega]
  rw [Nat.testBit_or, Nat.testBit_and, Nat.testBit_two_pow_sub_succ hlt, Nat.testBit_mod_two_pow,
    Nat.testBit_mod_two_pow, Nat.testBit_shiftLeft, Nat.testBit_shiftLeft, Nat.testBit_and,
    Nat.testBit_mod_two_pow, Nat.testBit_shiftRight, Nat.testBit_two_pow_sub_one]
  by_cases hlow : f.position.toNat ≤ j
  · by_cases hhigh : j - f.position.toNat < f.width.toNat
    · simp [Covers, hj, hlow, hhigh, show j < f.position.toNat + f.width.toNat by omega,
        show j - f.position.toNat < 32 by omega]
    · simp [Covers, hj, hlow, hhigh, show ¬ j < f.position.toNat + f.width.toNat by omega]
  · simp [Covers, hj, hlow]

end ImmediateField

/-! ### The fields of a bundle -/

lemma fits_immediateFields : ∀ f ∈ immediateFields, f.Fits := by decide

/-- Two fields take up different bits of a bundle. -/
lemma pairwise_immediateFields : immediateFields.Pairwise fun f g =>
    f.word = g.word → ∀ j < 32, f.Covers j → ¬ g.Covers j := by decide

/-- Every bit of the number is held by a field. -/
lemma exists_holds : ∀ i < 64, ∃ f ∈ immediateFields, f.Holds i := by decide

/-- It is held by one field only. -/
lemma eq_of_holds : ∀ f ∈ immediateFields, ∀ g ∈ immediateFields, ∀ i < 64,
    f.Holds i → g.Holds i → f = g := by decide +kernel

namespace Bundle

variable {b c : Bundle} {fields : List ImmediateField}

/-- A bit of a bundle. -/
def bit (b : Bundle) (k : Fin 4) (j : ℕ) : Bool := b[k].toNat.testBit j

lemma ext_bit (h : ∀ k, ∀ j < 32, b.bit k j = c.bit k j) : b = c :=
  Vector.ext fun i hi => eq_of_testBit_eq (h ⟨i, hi⟩)

/-- A bit of the number is a bit of one of the pieces. -/
lemma testBit_foldl_ofWord (hfits : ∀ f ∈ fields, f.Fits) (b : Bundle) (value : UInt64) (i : ℕ) :
    (fields.foldl (fun value f => value ||| f.ofWord (b.get f.word)) value).toNat.testBit i =
      (value.toNat.testBit i || fields.any fun f => decide (f.Holds i) &&
        b.bit f.word (f.position.toNat + (i - f.valuePosition.toNat))) := by
  induction fields generalizing value with
  | nil => simp
  | cons f rest ih =>
      rw [List.forall_mem_cons] at hfits
      rw [List.foldl_cons, ih hfits.2, UInt64.toNat_or, Nat.testBit_or,
        ImmediateField.testBit_ofWord hfits.1, List.any_cons, Bool.or_assoc]
      rfl

lemma testBit_immediate (b : Bundle) (i : ℕ) :
    b.immediate.toNat.testBit i = immediateFields.any fun f => decide (f.Holds i) &&
      b.bit f.word (f.position.toNat + (i - f.valuePosition.toNat)) := by
  have hbit := testBit_foldl_ofWord fits_immediateFields b 0 i
  rw [UInt64.toNat_zero, Nat.zero_testBit, Bool.false_or] at hbit
  exact hbit

/-- Putting the piece of one field into its word. -/
lemma bit_set (f : ImmediateField) (hf : f.Fits) (b : Bundle) (value : UInt64) (k : Fin 4) {j : ℕ}
    (hj : j < 32) : bit (b.set f.word (f.intoWord b[f.word] value)) k j =
      if f.word = k ∧ f.Covers j then
        value.toNat.testBit (f.valuePosition.toNat + (j - f.position.toNat))
      else b.bit k j := by
  rw [bit, Fin.getElem_fin, Vector.getElem_set]
  by_cases hk : f.word = k
  · subst hk
    rw [if_pos rfl, ImmediateField.testBit_intoWord hf _ _ hj]
    simp only [true_and]
    rfl
  · have hne : ¬ (f.word : ℕ) = k := fun h => hk (Fin.ext h)
    rw [if_neg hne, if_neg fun h => hk h.1]
    rfl

/-- Bits outside of the fields stay. -/
lemma bit_foldl_set_of_not_covers (hfits : ∀ f ∈ fields, f.Fits) (b : Bundle) (value : UInt64)
    {k : Fin 4} {j : ℕ} (hj : j < 32) (hout : ∀ f ∈ fields, ¬ (f.word = k ∧ f.Covers j)) :
    bit (fields.foldl (fun b f => b.set f.word (f.intoWord b[f.word] value)) b) k j =
      b.bit k j := by
  induction fields generalizing b with
  | nil => rfl
  | cons f rest ih =>
      rw [List.forall_mem_cons] at hfits hout
      rw [List.foldl_cons, ih hfits.2 _ hout.2, bit_set f hfits.1 b value k hj, if_neg hout.1]

/-- A bit of a field is the bit of the number that the field holds there: by induction, the fields
behind it do not touch it. -/
lemma bit_foldl_set_of_covers (hfits : ∀ f ∈ fields, f.Fits)
    (hd : fields.Pairwise fun f g => f.word = g.word → ∀ j < 32, f.Covers j → ¬ g.Covers j)
    (b : Bundle) (value : UInt64) {f : ImmediateField} (hf : f ∈ fields) {j : ℕ} (hj : j < 32)
    (hc : f.Covers j) :
    bit (fields.foldl (fun b f => b.set f.word (f.intoWord b[f.word] value)) b) f.word j =
      value.toNat.testBit (f.valuePosition.toNat + (j - f.position.toNat)) := by
  induction fields generalizing b with
  | nil => cases hf
  | cons g rest ih =>
      rw [List.forall_mem_cons] at hfits
      obtain ⟨hg, hrest⟩ := List.pairwise_cons.mp hd
      rw [List.foldl_cons]
      rcases List.mem_cons.mp hf with rfl | hf
      · rw [bit_foldl_set_of_not_covers hfits.2 _ value hj fun h hh hin =>
          hg h hh hin.1.symm j hj hc hin.2, bit_set f hfits.1 b value f.word hj, if_pos ⟨rfl, hc⟩]
      · exact ih hfits.2 hrest _ hf

/-- The bits of a bundle with another number, inside of the fields and outside. -/
lemma bit_setImmediate (b : Bundle) (value : UInt64) {j : ℕ} (hj : j < 32) :
    (∀ f ∈ immediateFields, f.Covers j → (b.setImmediate value).bit f.word j =
        value.toNat.testBit (f.valuePosition.toNat + (j - f.position.toNat))) ∧
      ∀ k, (∀ f ∈ immediateFields, ¬ (f.word = k ∧ f.Covers j)) →
        (b.setImmediate value).bit k j = b.bit k j := by
  constructor
  · intro f hf hc
    exact bit_foldl_set_of_covers fits_immediateFields pairwise_immediateFields b value hf hj hc
  · intro k hout
    exact bit_foldl_set_of_not_covers fits_immediateFields b value hj hout

/-! ### Putting in and taking out -/

/-- A field holds a bit of the number at a bit of its word that it takes up. -/
lemma covers_of_holds {f : ImmediateField} (hf : f ∈ immediateFields) {i : ℕ} (h : f.Holds i) :
    f.position.toNat + (i - f.valuePosition.toNat) < 32 ∧
      f.Covers (f.position.toNat + (i - f.valuePosition.toNat)) := by
  have hword := (fits_immediateFields f hf).2.1
  obtain ⟨hlow, hhigh⟩ := h
  refine ⟨by omega, Nat.le_add_right _ _, by omega⟩

/-- **The number that was put in comes out.** -/
theorem immediate_setImmediate (b : Bundle) (value : UInt64) :
    (b.setImmediate value).immediate = value := by
  refine UInt64.toNat_inj.mp (Nat.eq_of_testBit_eq fun i => ?_)
  -- each piece that holds the bit has the bit of the number
  have hpiece : ∀ f ∈ immediateFields, (decide (f.Holds i) &&
      (b.setImmediate value).bit f.word (f.position.toNat + (i - f.valuePosition.toNat))) =
        (decide (f.Holds i) && value.toNat.testBit i) := by
    intro f hf
    by_cases hh : f.Holds i
    · obtain ⟨hj, hc⟩ := covers_of_holds hf hh
      have hbit := (bit_setImmediate b value hj).1 f hf hc
      rw [Nat.add_sub_cancel_left, Nat.add_sub_cancel' hh.1] at hbit
      rw [hbit]
    · simp [hh]
  rw [testBit_immediate]
  by_cases hi : i < 64
  · obtain ⟨f, hf, hh⟩ := exists_holds i hi
    apply Bool.eq_iff_iff.mpr
    rw [List.any_eq_true]
    constructor
    · rintro ⟨g, hg, hbit⟩
      rw [hpiece g hg, Bool.and_eq_true] at hbit
      exact hbit.2
    · intro hbit
      refine ⟨f, hf, ?_⟩
      rw [hpiece f hf, hbit]
      simp [hh]
  · have hlt : value.toNat.testBit i = false :=
      Nat.testBit_lt_two_pow
        (lt_of_lt_of_le value.toNat_lt (Nat.pow_le_pow_right (by decide) (by omega)))
    rw [hlt, List.any_eq_false]
    intro f hf
    rw [hpiece f hf, hlt]
    simp

/-- **The number that was put in last counts.** -/
theorem setImmediate_setImmediate (b : Bundle) (v w : UInt64) :
    (b.setImmediate v).setImmediate w = b.setImmediate w := by
  refine ext_bit fun k j hj => ?_
  by_cases hin : ∃ f ∈ immediateFields, f.word = k ∧ f.Covers j
  · obtain ⟨f, hf, rfl, hc⟩ := hin
    rw [(bit_setImmediate _ w hj).1 f hf hc, (bit_setImmediate b w hj).1 f hf hc]
  · have hout : ∀ f ∈ immediateFields, ¬ (f.word = k ∧ f.Covers j) := fun f hf h =>
      hin ⟨f, hf, h⟩
    rw [(bit_setImmediate _ w hj).2 k hout, (bit_setImmediate b w hj).2 k hout,
      (bit_setImmediate b v hj).2 k hout]

/-- A bit of a field is a bit of the number: no other field holds it. -/
lemma testBit_immediate_of_covers (b : Bundle) {f : ImmediateField} (hf : f ∈ immediateFields)
    {j : ℕ} (hc : f.Covers j) :
    b.immediate.toNat.testBit (f.valuePosition.toNat + (j - f.position.toNat)) =
      b.bit f.word j := by
  have hvalue := (fits_immediateFields f hf).2.2.1
  obtain ⟨hlow, hhigh⟩ := id hc
  have hh : f.Holds (f.valuePosition.toNat + (j - f.position.toNat)) :=
    ⟨Nat.le_add_right _ _, by omega⟩
  have hplace : f.position.toNat +
      (f.valuePosition.toNat + (j - f.position.toNat) - f.valuePosition.toNat) = j := by omega
  rw [testBit_immediate]
  apply Bool.eq_iff_iff.mpr
  rw [List.any_eq_true]
  constructor
  · rintro ⟨g, hg, hbit⟩
    rw [Bool.and_eq_true, decide_eq_true_iff] at hbit
    obtain rfl := eq_of_holds g hg f hf _ (by omega) hbit.1 hh
    rw [hplace] at hbit
    exact hbit.2
  · intro hbit
    refine ⟨f, hf, ?_⟩
    rw [hplace, hbit, decide_eq_true hh]
    rfl

/-- **Putting back the number of a bundle** changes nothing. -/
theorem setImmediate_immediate (b : Bundle) : b.setImmediate b.immediate = b := by
  refine ext_bit fun k j hj => ?_
  by_cases hin : ∃ f ∈ immediateFields, f.word = k ∧ f.Covers j
  · obtain ⟨f, hf, rfl, hc⟩ := hin
    rw [(bit_setImmediate b _ hj).1 f hf hc, testBit_immediate_of_covers b hf hc]
  · exact (bit_setImmediate b _ hj).2 k fun f hf h => hin ⟨f, hf, h⟩

/-! ### The bytes of a bundle -/

lemma size_toByteArray (b : Bundle) : b.toByteArray.size = Bundle.size := by
  have hword : ∀ word ∈ b.toList, (encode 4 word.toNat).size = 4 := fun _ _ => size_encode _ _
  rw [toByteArray, size_foldl_append hword, Vector.length_toList, ByteArray.size_empty]
  rfl

lemma byteAt_toByteArray (b : Bundle) (k : Fin 4) {i : ℕ} (hi : i < 4) :
    byteAt b.toByteArray (4 * k + i) = byteAt (encode 4 b[k].toNat) i := by
  have hsize : ∀ word ∈ b.toList, (encode 4 word.toNat).size = 4 := fun _ _ => size_encode _ _
  have hk : (k : ℕ) < b.toList.length := by
    rw [Vector.length_toList]
    exact k.isLt
  have hword := byteAt_foldl_append hsize .empty hk hi
  rw [ByteArray.size_empty, Nat.zero_add, Vector.getElem_toList] at hword
  exact hword

/-- The bytes of a bundle spell it. -/
theorem ofBytes_toByteArray (b : Bundle) : ofBytes b.toByteArray = b := by
  refine Vector.ext fun i hi => UInt32.toNat_inj.mp ?_
  have hlt : b[i].toNat < valueCount 4 := b[i].toNat_lt
  rw [ofBytes, Vector.getElem_ofFn, toNat_u32At, ← Nat.mod_eq_of_lt hlt, ← natAt_encode]
  refine natAt_congr fun j hj => ?_
  rw [Nat.zero_add]
  exact byteAt_toByteArray b ⟨i, hi⟩ hj

/-- Bytes that spell a bundle are its bytes. -/
theorem toByteArray_ofBytes {bytes : ByteArray} (h : bytes.size = Bundle.size) :
    (ofBytes bytes).toByteArray = bytes := by
  refine eq_of_byteAt_eq ((size_toByteArray _).trans h.symm) fun i hi => ?_
  rw [size_toByteArray] at hi
  have hk : i / 4 < 4 := by
    simp only [Bundle.size] at hi
    omega
  have hsplit : 4 * (i / 4) + i % 4 = i := Nat.div_add_mod i 4
  have hbyte := byteAt_toByteArray (ofBytes bytes) ⟨i / 4, hk⟩ (Nat.mod_lt i (by decide))
  have hword : ((ofBytes bytes)[(⟨i / 4, hk⟩ : Fin 4)]).toNat = natAt bytes (4 * (i / 4)) 4 := by
    rw [Fin.getElem_fin, ofBytes, Vector.getElem_ofFn, toNat_u32At]
  rw [hword, byteAt_encode_natAt (Nat.mod_lt i (by decide))] at hbyte
  simpa only [hsplit] using hbyte

end Bundle

end PeImage
