/-
Text that is decoded from bytes without a zero.

A decoder replaces what it cannot decode, but it never drops a byte nor makes one up. A character of
several bytes is never the null character: the first two of them leave a range of code points, which
every further byte narrows, and neither zero nor a surrogate is in it.

* `Utf8.Pending.Sound`: the code points that a character in progress can still come to are
  characters, and not the null character;
* `Utf8.Pending.sound_ofLead?`, `Utf8.Pending.Sound.next`: so it is after the first byte, and after
  every further one;
* `not_mem_decodeUtf8List`: bytes without a zero decode to text without a null character.
-/
import Mathlib
import PeImage.Text.Utf8

namespace PeImage

namespace Utf8

/-! ### Characters in progress -/

namespace Pending

/-- The least code point that the character can come to. -/
def least (p : Pending) : ℕ := (p.bits * 64 + (p.low.toNat - 0x80)) * 64 ^ p.more

/-- The first code point behind those that the character can come to. -/
def past (p : Pending) : ℕ := (p.bits * 64 + (p.high.toNat - 0x80) + 1) * 64 ^ p.more

/-- The bytes to come are those that go on with a character, and whatever they are, it is neither
the null character nor a surrogate, and not behind the last code point. -/
structure Sound (p : Pending) : Prop where
  le_low : 0x80 ≤ p.low.toNat
  high_le : p.high.toNat ≤ 0xBF
  least_pos : 0 < p.least
  surrogates : p.past ≤ 0xD800 ∨ 0xE000 ≤ p.least
  past_le : p.past ≤ 0x110000

/-- The first byte of a character. -/
lemma sound_ofLead? {b : UInt8} {p : Pending} (h : ofLead? b = some p) : p.Sound := by
  have hmask (k : ℕ) (hk : k < 8) (mask : UInt8) (hm : mask.toNat = 2 ^ k - 1) :
      (b &&& mask).toNat = b.toNat % 2 ^ k := by
    rw [UInt8.toNat_and, hm, Nat.and_two_pow_sub_one_eq_mod]
  have h5 := hmask 5 (by decide) 0x1F rfl
  have h4 := hmask 4 (by decide) 0x0F rfl
  have h3 := hmask 3 (by decide) 0x07 rfl
  unfold ofLead? at h
  simp only [UInt8.le_iff_toNat_le, ← UInt8.toNat_inj, UInt8.reduceToNat] at h
  split_ifs at h
  all_goals
    cases h
    constructor <;> simp only [least, past, h3, h4, h5, UInt8.reduceToNat] <;> omega

/-- A byte within the expected range, as the six bits that it adds. -/
lemma Sound.toNat_and {p : Pending} (h : p.Sound) {b : UInt8} (hlow : p.low ≤ b)
    (hhigh : b ≤ p.high) : (b &&& 0x3F).toNat = b.toNat - 0x80 ∧ p.low.toNat ≤ b.toNat ∧
      b.toNat ≤ p.high.toNat := by
  rw [UInt8.le_iff_toNat_le] at hlow hhigh
  have hle := h.le_low
  have hge := h.high_le
  refine ⟨?_, hlow, hhigh⟩
  rw [UInt8.toNat_and, show (0x3F : UInt8).toNat = 2 ^ 6 - 1 from rfl,
    Nat.and_two_pow_sub_one_eq_mod]
  omega

/-- The last byte of a character: it is one that the character could come to. -/
lemma Sound.ofNat_ne {p : Pending} (h : p.Sound) (hmore : p.more = 0) {b : UInt8} (hlow : p.low ≤ b)
    (hhigh : b ≤ p.high) : Char.ofNat (p.bits * 64 + (b &&& 0x3F).toNat) ≠ '\x00' := by
  obtain ⟨hbits, hle, hge⟩ := h.toNat_and hlow hhigh
  have hlast := h.high_le
  have hleast : p.least = p.bits * 64 + (p.low.toNat - 0x80) := by
    rw [least, hmore, pow_zero, mul_one]
  have hpast : p.past = p.bits * 64 + (p.high.toNat - 0x80) + 1 := by
    rw [past, hmore, pow_zero, mul_one]
  have hpos := h.least_pos
  have hend := h.past_le
  have hsurrogates := h.surrogates
  have hvalid : (p.bits * 64 + (b &&& 0x3F).toNat).isValidChar := by
    rw [Nat.isValidChar]
    omega
  intro hnull
  have hzero := congrArg Char.toNat hnull
  rw [Char.toNat_ofNat, if_pos hvalid, show ('\x00').toNat = 0 from rfl] at hzero
  omega

/-- A byte that is not the last one: what the character can still come to, it could come to
before. -/
lemma Sound.next {p : Pending} (h : p.Sound) {n : ℕ} (hmore : p.more = n + 1) {b : UInt8}
    (hlow : p.low ≤ b) (hhigh : b ≤ p.high) :
    Sound ⟨p.bits * 64 + (b &&& 0x3F).toNat, n, 0x80, 0xBF⟩ := by
  obtain ⟨hbits, hle, hge⟩ := h.toNat_and hlow hhigh
  have hleast : p.least ≤ least ⟨p.bits * 64 + (b &&& 0x3F).toNat, n, 0x80, 0xBF⟩ := by
    rw [least, hmore, pow_succ', ← mul_assoc, hbits]
    refine Nat.mul_le_mul_right _ ?_
    simp only [UInt8.reduceToNat]
    omega
  have hpast : past ⟨p.bits * 64 + (b &&& 0x3F).toNat, n, 0x80, 0xBF⟩ ≤ p.past := by
    rw [past, past, hmore, pow_succ', ← mul_assoc, hbits]
    refine Nat.mul_le_mul_right _ ?_
    simp only [UInt8.reduceToNat]
    omega
  exact {
    le_low := le_rfl
    high_le := le_rfl
    least_pos := h.least_pos.trans_le hleast
    surrogates := h.surrogates.imp hpast.trans hleast.trans'
    past_le := hpast.trans h.past_le }

end Pending

/-! ### The decoder -/

namespace Decoder

/-- The text so far has no null character, and none is to come of the character in progress. -/
structure NullFree (d : Decoder) : Prop where
  not_mem : '\x00' ∉ d.text.toList
  sound : ∀ p, d.pending = some p → p.Sound

/-- Nothing is decoded yet. -/
lemma nullFree_empty : NullFree {} where
  not_mem := List.not_mem_nil
  sound _ hp := by cases hp

lemma not_mem_push {text : String} {c : Char} (ht : '\x00' ∉ text.toList) (hc : c ≠ '\x00') :
    '\x00' ∉ (text.push c).toList := by
  rw [String.toList_push, List.mem_append, List.mem_singleton]
  exact not_or.mpr ⟨ht, hc.symm⟩

/-- The first byte of a character. -/
lemma NullFree.start {text : String} (ht : '\x00' ∉ text.toList) {b : UInt8} (hb : b ≠ 0) :
    (start text b).NullFree := by
  unfold Decoder.start
  split_ifs with hascii
  · refine ⟨not_mem_push ht fun hnull => hb ?_, nofun⟩
    have hlt : b.toNat < 0x80 := UInt8.lt_iff_toNat_lt.mp hascii
    have hzero := congrArg Char.toNat hnull
    rw [Char.toNat_ofNat, if_pos (.inl (by omega))] at hzero
    exact UInt8.toNat_inj.mp hzero
  · split
    · next p hp =>
      refine ⟨ht, fun q hq => ?_⟩
      cases hq
      exact Pending.sound_ofLead? hp
    · exact ⟨not_mem_push ht (by decide), nofun⟩

/-- **One byte** that is not zero. -/
lemma NullFree.feed {d : Decoder} (h : d.NullFree) {b : UInt8} (hb : b ≠ 0) :
    (d.feed b).NullFree := by
  unfold Decoder.feed
  split
  · exact .start h.not_mem hb
  · next p hp =>
    have hsound := h.sound p hp
    split_ifs with hin
    · dsimp only
      split
      · next hmore => exact ⟨not_mem_push h.not_mem (hsound.ofNat_ne hmore hin.1 hin.2), nofun⟩
      · next n hmore =>
        refine ⟨h.not_mem, fun q hq => ?_⟩
        cases hq
        exact hsound.next hmore hin.1 hin.2
    · exact .start (not_mem_push h.not_mem (by decide)) hb

/-- Any number of bytes, by induction over them. -/
lemma NullFree.foldl {d : Decoder} (h : d.NullFree) {l : List UInt8} (hl : ∀ b ∈ l, b ≠ 0) :
    (l.foldl Decoder.feed d).NullFree := by
  induction l generalizing d with
  | nil => exact h
  | cons b rest ih =>
      exact ih (h.feed (hl b List.mem_cons_self)) fun x hx => hl x (List.mem_cons_of_mem b hx)

/-- A character that is cut by the end of the input is replaced. -/
lemma NullFree.finish {d : Decoder} (h : d.NullFree) : '\x00' ∉ d.finish.toList := by
  unfold Decoder.finish
  split
  · exact h.not_mem
  · exact not_mem_push h.not_mem (by decide)

end Decoder

end Utf8

/-- **Bytes without a zero** decode to text without a null character. -/
theorem not_mem_decodeUtf8List {l : List UInt8} (h : ∀ b ∈ l, b ≠ 0) :
    '\x00' ∉ (decodeUtf8List l).toList :=
  (Utf8.Decoder.nullFree_empty.foldl h).finish

end PeImage
