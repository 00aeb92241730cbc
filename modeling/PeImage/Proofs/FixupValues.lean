/-
Moving what a fixup stores, and moving it again.

Where nothing is lost, moving by one difference and then by another is moving by their sum, and
moving by nothing changes nothing. What is lost is the lower half of a difference by which an upper
half or a jump moves, and the carry out of the lower half that an adjusted upper half leaves to the
next entry.

* `FixupKind.Lossless`: the kinds and differences of which nothing is lost;
* `toNat_moveHigh`, `toNat_moveJump`: moving an upper half and a jump, in numbers;
* `FixupKind.move_move`, `FixupKind.move_zero`: moves add up;
* `Memory.agree_apply_apply`, `Memory.agree_move_move`: so they do in memory, for one fixup and for
  a list of fixups that keep apart.
-/
import PeImage.Alignment.Rounding
import PeImage.Proofs.FixupList

namespace PeImage

/-! ### Fields -/

/-- Bytes that spell a number are its encoding. -/
lemma encode_natAt {b : ByteArray} {w : ℕ} (h : b.size = w) : encode w (natAt b 0 w) = b := by
  refine eq_of_byteAt_eq ((size_encode _ _).trans h.symm) fun i hi => ?_
  rw [size_encode] at hi
  rw [byteAt_encode_natAt hi, Nat.zero_add]

lemma u16At_encode (v : UInt16) : u16At (encode 2 v.toNat) 0 = v := by
  refine UInt16.toNat_inj.mp ?_
  rw [toNat_u16At, natAt_encode]
  exact Nat.mod_eq_of_lt v.toNat_lt

lemma u32At_encode (v : UInt32) : u32At (encode 4 v.toNat) 0 = v := by
  refine UInt32.toNat_inj.mp ?_
  rw [toNat_u32At, natAt_encode]
  exact Nat.mod_eq_of_lt v.toNat_lt

lemma u64At_encode (v : UInt64) : u64At (encode 8 v.toNat) 0 = v := by
  refine UInt64.toNat_inj.mp ?_
  rw [toNat_u64At, natAt_encode]
  exact Nat.mod_eq_of_lt v.toNat_lt

/-! ### Parts of an address -/

/-- An upper half moves by the upper half of the difference, which is all of it. -/
lemma toNat_moveHigh {d : UInt64} (hd : 0x10000 ∣ d.toNat) (high : UInt16) :
    (moveHigh d high).toNat = (high.toNat + d.toNat / 0x10000) % 0x10000 := by
  have hlt := high.toNat_lt
  obtain ⟨k, hk⟩ := hd
  simp only [moveHigh, UInt32.toNat_toUInt16, UInt32.toNat_shiftRight, UInt32.toNat_add,
    UInt32.toNat_shiftLeft, UInt16.toNat_toUInt32, UInt64.toNat_toUInt32, UInt32.reduceToNat,
    Nat.reduceMod, Nat.shiftLeft_eq, Nat.shiftRight_eq_div_pow, hk]
  omega

/-- The bits of a jump that are no target, and those that are. -/
lemma toNat_or_jump {high low : UInt32} (h : low.toNat < 2 ^ 26) :
    ((high &&& ~~~jumpMask) ||| low).toNat = high.toNat / 2 ^ 26 * 2 ^ 26 + low.toNat := by
  have hpow : (0x04000000 : UInt32).toNat = 2 ^ 26 := rfl
  have hhigh : (high &&& ~~~jumpMask).toNat = high.toNat / 2 ^ 26 * 2 ^ 26 :=
    toNat_alignDown hpow high
  rw [UInt32.toNat_or, hhigh, Nat.mul_comm, ← Nat.two_pow_add_eq_or_of_lt h]

lemma toNat_and_jumpMask (w : UInt32) : (w &&& jumpMask).toNat = w.toNat % 2 ^ 26 := by
  rw [UInt32.toNat_and]
  exact Nat.and_two_pow_sub_one_eq_mod _ 26

/-- The target of a jump moves by a quarter of the difference. -/
lemma toNat_moveJump {d : UInt64} (hd : 4 ∣ d.toNat) (word : UInt32) :
    (moveJump d word).toNat =
      word.toNat / 2 ^ 26 * 2 ^ 26 + (word.toNat + d.toNat / 4) % 2 ^ 26 := by
  have hlt := word.toNat_lt
  obtain ⟨k, hk⟩ := hd
  rw [moveJump, toNat_or_jump]
  · congr 1
    simp only [toNat_and_jumpMask, UInt32.toNat_shiftRight, UInt32.toNat_add,
      UInt32.toNat_shiftLeft, UInt64.toNat_toUInt32, UInt32.reduceToNat, Nat.reduceMod,
      Nat.shiftLeft_eq, Nat.shiftRight_eq_div_pow, hk]
    omega
  · rw [toNat_and_jumpMask]
    exact Nat.mod_lt _ (by decide)

/-- Differences of whole granules add up to one. -/
lemma toNat_add_div {d e : UInt64} {a : ℕ} (ha : a ∣ 0x10000) (hd : 0x10000 ∣ d.toNat)
    (he : 0x10000 ∣ e.toNat) :
    a ∣ d.toNat ∧ a ∣ e.toNat ∧ a ∣ (d + e).toNat ∧ 0x10000 ∣ (d + e).toNat := by
  have hsum : 0x10000 ∣ (d + e).toNat := by
    rw [UInt64.toNat_add]
    exact (Nat.dvd_mod_iff (by decide)).mpr (Nat.dvd_add hd he)
  exact ⟨ha.trans hd, ha.trans he, ha.trans hsum, hsum⟩

lemma moveHigh_moveHigh {d e : UInt64} (hd : 0x10000 ∣ d.toNat) (he : 0x10000 ∣ e.toNat)
    (high : UInt16) : moveHigh e (moveHigh d high) = moveHigh (d + e) high := by
  obtain ⟨-, -, -, hsum⟩ := toNat_add_div (dvd_refl _) hd he
  refine UInt16.toNat_inj.mp ?_
  rw [toNat_moveHigh he, toNat_moveHigh hd, toNat_moveHigh hsum, UInt64.toNat_add]
  omega

lemma moveHigh_zero (high : UInt16) : moveHigh 0 high = high := by
  have hlt := high.toNat_lt
  refine UInt16.toNat_inj.mp ?_
  rw [toNat_moveHigh (Nat.dvd_zero _)]
  exact Nat.mod_eq_of_lt hlt

lemma moveJump_moveJump {d e : UInt64} (hd : 0x10000 ∣ d.toNat) (he : 0x10000 ∣ e.toNat)
    (word : UInt32) : moveJump e (moveJump d word) = moveJump (d + e) word := by
  obtain ⟨hd4, he4, hsum, -⟩ := toNat_add_div (show 4 ∣ 0x10000 by decide) hd he
  have hlt := word.toNat_lt
  refine UInt32.toNat_inj.mp ?_
  rw [toNat_moveJump he4, toNat_moveJump hd4, toNat_moveJump hsum, UInt64.toNat_add]
  omega

lemma moveJump_zero (word : UInt32) : moveJump 0 word = word := by
  refine UInt32.toNat_inj.mp ?_
  rw [toNat_moveJump (Nat.dvd_zero _), UInt64.toNat_zero]
  omega

/-! ### Moves add up -/

namespace FixupKind

variable {kind : FixupKind} {d e : UInt64} {b : ByteArray}

/-- Nothing of the difference is lost. -/
def Lossless (difference : UInt64) : FixupKind → Prop
  | .high | .mipsJump => 0x10000 ∣ difference.toNat
  | .highAdjusted => False
  | .absolute | .low | .highLow | .ia64Bundle | .dir64 => True

/-- **Moving twice is moving by the sum.** -/
theorem move_move (hd : kind.Lossless d) (he : kind.Lossless e) (low : UInt16) (b : ByteArray) :
    kind.move e low (kind.move d low b) = kind.move (d + e) low b := by
  cases kind with
  | absolute => rfl
  | high =>
      show encode 2 _ = encode 2 _
      rw [move, u16At_encode, moveHigh_moveHigh hd he]
  | low =>
      show encode 2 _ = encode 2 _
      rw [move, u16At_encode, UInt64.toUInt16_add, UInt16.add_assoc]
  | highLow =>
      show encode 4 _ = encode 4 _
      rw [move, u32At_encode, UInt64.toUInt32_add, UInt32.add_assoc]
  | highAdjusted => exact hd.elim
  | mipsJump =>
      show encode 4 _ = encode 4 _
      rw [move, u32At_encode, moveJump_moveJump hd he]
  | ia64Bundle =>
      show Bundle.toByteArray _ = Bundle.toByteArray _
      rw [move, Bundle.ofBytes_toByteArray]
      simp only [Bundle.addImmediate]
      rw [Bundle.immediate_setImmediate, Bundle.setImmediate_setImmediate, UInt64.add_assoc]
  | dir64 =>
      show encode 8 _ = encode 8 _
      rw [move, u64At_encode, UInt64.add_assoc]

/-- **Moving by nothing changes nothing.** -/
theorem move_zero (hk : kind.Lossless 0) (low : UInt16) (hb : b.size = kind.width) :
    kind.move 0 low b = b := by
  cases kind with
  | absolute => rfl
  | high =>
      rw [move, moveHigh_zero, toNat_u16At]
      exact encode_natAt hb
  | low =>
      rw [move, show (0 : UInt64).toUInt16 = 0 from rfl, UInt16.add_zero, toNat_u16At]
      exact encode_natAt hb
  | highLow =>
      rw [move, show (0 : UInt64).toUInt32 = 0 from rfl, UInt32.add_zero, toNat_u32At]
      exact encode_natAt hb
  | highAdjusted => exact hk.elim
  | mipsJump =>
      rw [move, moveJump_zero, toNat_u32At]
      exact encode_natAt hb
  | ia64Bundle =>
      rw [move, Bundle.addImmediate, UInt64.add_zero, Bundle.setImmediate_immediate,
        Bundle.toByteArray_ofBytes hb]
  | dir64 =>
      rw [move, UInt64.add_zero, toNat_u64At]
      exact encode_natAt hb

end FixupKind

/-! ### Moves in memory -/

namespace Memory

variable {m : Memory} {d e : UInt64} {f : Fixup} {fixups : List Fixup}

/-- Patches by functions that agree on as many bytes as are patched are the same. -/
lemma patch_congr (m : Memory) (a : UInt32) {n : ℕ} {f g : ByteArray → ByteArray}
    (h : ∀ b, b.size = n → f b = g b) : m.patch a n f = m.patch a n g := by
  rw [patch_eq, patch_eq]
  split_ifs with hread
  · rw [h _ hread]
  · rfl

/-- A patch that puts back what it reads changes nothing. -/
lemma agree_patch_id (hm : m.WellFormed) (a : UInt32) {n : ℕ} {f : ByteArray → ByteArray}
    (h : ∀ b, b.size = n → f b = b) : Agree Set.univ (m.patch a n f) m where
  limit := limit_patch m a n f
  tableEnd := tableEnd_patch m a n f
  accessible := isAccessibleAt_patch m a n f
  flat r _ := by
    rw [flat_patch hm fun b hb => by rw [h b hb, hb]]
    split_ifs with hr
    · obtain ⟨hin, hle, -⟩ := hr
      have hsize : (m.read a.toNat n).size = n := (size_read_eq_iff hm _ _).mpr (.inl hle)
      rw [Set.mem_Ico] at hin
      rw [h _ hsize, byteAt_read hm (by omega), Nat.add_sub_cancel' hin.1]
    · rfl

/-- **One fixup, applied twice**, is the fixup by the sum of the differences. -/
lemma agree_apply_apply (hm : m.WellFormed) (hd : f.kind.Lossless d) (he : f.kind.Lossless e)
    (hu : m.Uniform f.stretch) :
    Agree f.stretch (apply e (apply d m f) f) (apply (d + e) m f) := by
  have htwice := agree_patch_patch hm (f.kind.size_move d f.low) (f.kind.size_move e f.low) hu
  have hsum : m.patch (f.kind.start f.target) f.kind.width
      (f.kind.move e f.low ∘ f.kind.move d f.low) = apply (d + e) m f := by
    rw [apply_eq_patch]
    exact patch_congr m _ fun b _ => FixupKind.move_move hd he f.low b
  rw [hsum] at htwice
  rwa [apply_eq_patch, apply_eq_patch]

/-- **Fixups that keep apart, applied twice**, are the fixups by the sum of the differences. -/
theorem agree_move_move (hm : m.WellFormed)
    (hd : ∀ f ∈ fixups, f.kind.Lossless d ∧ f.kind.Lossless e)
    (hp : fixups.Pairwise fun f g => Disjoint f.stretch g.stretch)
    (hu : ∀ f ∈ fixups, m.Uniform f.stretch) :
    Agree Set.univ ((m.move d fixups).move e fixups) (m.move (d + e) fixups) := by
  have hm' := hm.move d fixups
  -- what no fixup touches stays, and that is enough for the size and the access
  have hout (s : Set ℕ) (hs : ∀ f ∈ fixups, Disjoint s f.stretch) :
      Agree s ((m.move d fixups).move e fixups) (m.move (d + e) fixups) :=
    ((agree_move hm' hs).trans (agree_move hm hs)).trans (agree_move hm hs).symm
  have hempty := hout ∅ fun f _ => Set.empty_disjoint _
  refine ⟨hempty.limit, hempty.tableEnd, hempty.accessible, fun r _ => ?_⟩
  by_cases hr : ∃ f ∈ fixups, r ∈ f.stretch
  · obtain ⟨f, hf, hr⟩ := hr
    -- each fixup acts as if it were alone, in the first move, in the second and in the sum
    have hfirst : Agree f.stretch (m.move d fixups) (apply d m f) := agree_move_of_mem hm hp hf
    have hsecond : Agree f.stretch ((m.move d fixups).move e fixups)
        (apply e (m.move d fixups) f) := agree_move_of_mem hm' hp hf
    have hboth := hsecond.trans (hfirst.apply hm' (hm.apply d f) subset_rfl e)
    have hsum := hboth.trans (agree_apply_apply hm (hd f hf).1 (hd f hf).2 (hu f hf))
    exact (hsum.trans (agree_move_of_mem hm hp hf).symm).flat r hr
  · refine (hout {r} fun f hf => ?_).flat r rfl
    rw [Set.disjoint_singleton_left]
    exact fun h => hr ⟨f, hf, h⟩

/-- Fixups by nothing change nothing. -/
theorem agree_move_zero (hm : m.WellFormed) (hd : ∀ f ∈ fixups, f.kind.Lossless 0) :
    Agree Set.univ (m.move 0 fixups) m := by
  induction fixups generalizing m with
  | nil => exact Agree.refl _ m
  | cons f rest ih =>
      rw [List.forall_mem_cons] at hd
      have hfirst : Agree Set.univ (apply 0 m f) m := by
        rw [apply_eq_patch]
        exact agree_patch_id hm _ fun b hb => FixupKind.move_zero hd.1 f.low hb
      exact (ih (hm.apply 0 f) hd.2).trans hfirst

end Memory

end PeImage
