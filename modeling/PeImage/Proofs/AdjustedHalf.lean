/-
Adjusted upper halves, and the addresses that they encode.

An adjusted upper half is the upper half of an address, rounded to the nearest, because the lower
half is added to it as a signed number. The entry behind that of the upper half gives the lower
half, and a move rounds again. It takes the lower half as an unsigned number, though, and so the
encoded address moves by the difference exactly if that makes no difference.

* `adjustedAddress`, `lowCarry`: the address that two halves encode, and what rounding carries;
* `toNat_moveHighAdjusted`: moving an adjusted upper half, in numbers;
* `adjustedAddress_move_iff`: when the encoded address moves by the difference;
* `ReadThrough`, `Memory.applyFixups_append`: entries that are read through to their end, and what
  comes behind them;
* `Memory.applyFixups_adjusted`: what an adjusted upper half anywhere in a block does;
* `Image.carried_adjustedFile`: a file of which an encoded address moves by too much.
-/
import PeImage.Proofs.DirectoryEntries
import PeImage.Proofs.Rebase

namespace PeImage

/-! ### Two halves of an address -/

/-- The address that an adjusted upper half and its lower half encode, where the lower half counts
as a signed number. -/
def adjustedAddress (high low : UInt16) : ℤ := high.toNat * 0x10000 + low.toInt16.toInt

/-- What rounding to the nearest carries from the lower half to the upper one. -/
def lowCarry (low : UInt16) : ℕ := if low.toNat < 0x8000 then 0 else 1

lemma toInt_toInt16 (low : UInt16) : low.toInt16.toInt = low.toNat - 0x10000 * lowCarry low := by
  have hsign : low.toInt16.toInt = low.toBitVec.toInt := rfl
  have hnat : low.toBitVec.toNat = low.toNat := rfl
  rw [hsign, BitVec.toInt_eq_toNat_cond, hnat, lowCarry]
  split_ifs <;> omega

section

variable {d : UInt64} (hd : 0x10000 ∣ d.toNat) (high low : UInt16)

include hd

/-- An adjusted upper half moves by the upper half of the difference, which is all of it, and by
what rounding carries once more. -/
lemma toNat_moveHighAdjusted :
    (moveHighAdjusted d high low).toNat =
      (high.toNat + d.toNat / 0x10000 + lowCarry low) % 0x10000 := by
  have hhigh := high.toNat_lt
  have hlow := low.toNat_lt
  obtain ⟨k, hk⟩ := hd
  simp only [moveHighAdjusted, UInt32.toNat_toUInt16, UInt32.toNat_shiftRight, UInt32.toNat_add,
    UInt32.toNat_shiftLeft, UInt16.toNat_toUInt32, UInt64.toNat_toUInt32, UInt32.reduceToNat,
    Nat.reduceMod, Nat.shiftLeft_eq, Nat.shiftRight_eq_div_pow, hk, lowCarry]
  split_ifs <;> omega

/-- **When an encoded address moves by the difference**: exactly if nothing is carried. -/
lemma adjustedAddress_move_iff :
    adjustedAddress (moveHighAdjusted d high low) low ≡ adjustedAddress high low + d.toNat
      [ZMOD 2 ^ 32] ↔ low.toNat < 0x8000 := by
  have hmoved := toNat_moveHighAdjusted hd high low
  obtain ⟨k, hk⟩ := hd
  rw [adjustedAddress, adjustedAddress, hmoved, toInt_toInt16, hk, lowCarry, Int.ModEq]
  split_ifs <;> push_cast <;> omega

end

/-! ### Entries in front -/

/-- Entries that are read through to their end: all of them are of known kinds, and no adjusted
upper half is without its lower half. -/
inductive ReadThrough : List UInt16 → Prop
  | nil : ReadThrough []
  | single {entry : UInt16} {rest : List UInt16} {kind : FixupKind}
      (hkind : entryKind? entry = some kind) (hne : kind ≠ .highAdjusted)
      (hrest : ReadThrough rest) : ReadThrough (entry :: rest)
  | pair {entry low : UInt16} {rest : List UInt16}
      (hkind : entryKind? entry = some .highAdjusted) (hrest : ReadThrough rest) :
      ReadThrough (entry :: low :: rest)

namespace Memory

variable {m : Memory} {d : UInt64} {base : UInt32} {entry low high : UInt16}
  {front back : List UInt16}

/-- An adjusted upper half takes the entry behind it along. -/
lemma applyFixups_pair (hkind : entryKind? entry = some .highAdjusted) :
    m.applyFixups d base (entry :: low :: back) =
      (apply d m ⟨.highAdjusted, fixupTarget base entry, low⟩).applyFixups d base back := by
  rw [entryKind?] at hkind
  rw [applyFixups, hkind]
  rfl

/-- No other entry does. -/
lemma applyFixups_single {kind : FixupKind} (hkind : entryKind? entry = some kind)
    (hne : kind ≠ .highAdjusted) :
    m.applyFixups d base (entry :: back) =
      (apply d m ⟨kind, fixupTarget base entry, 0⟩).applyFixups d base back := by
  rw [entryKind?] at hkind
  rw [applyFixups.eq_def]
  dsimp only
  rw [hkind]
  cases kind with
  | highAdjusted => exact absurd rfl hne
  | absolute | high | low | highLow | mipsJump | ia64Bundle | dir64 => rfl

/-- Entries behind others that are read through find the memory that those leave. -/
lemma applyFixups_append (h : ReadThrough front) :
    m.applyFixups d base (front ++ back) =
      (m.applyFixups d base front).1.applyFixups d base back := by
  induction h generalizing m with
  | nil => rfl
  | single hkind hne _ ih =>
      rw [List.cons_append, applyFixups_single hkind hne, applyFixups_single hkind hne, ih]
  | pair hkind _ ih =>
      rw [List.cons_append, List.cons_append, applyFixups_pair hkind, applyFixups_pair hkind, ih]

/-! ### An adjusted upper half in memory -/

/-- Where the upper half lies. -/
abbrev halfStretch (target : UInt32) : Set ℕ := Set.Ico target.toNat (target.toNat + 2)

/-- The fixup of an adjusted upper half replaces it by the moved one. -/
lemma read_apply_highAdjusted (hm : m.WellFormed) {target : UInt32}
    (hread : m.read target.toNat 2 = encode 2 high.toNat)
    (hacc : ∀ r ∈ halfStretch target, m.isAccessibleAt r = true) :
    (apply d m ⟨.highAdjusted, target, low⟩).read target.toNat 2 =
      encode 2 (moveHighAdjusted d high low).toNat := by
  have hreach : target.toNat + 2 ≤ m.reach := by
    have hsize : (m.read target.toNat 2).size = 2 := by
      rw [hread, size_encode]
    exact ((size_read_eq_iff hm _ _).mp hsize).resolve_right (by decide)
  have hpatch := read_patch hm (FixupKind.size_move .highAdjusted d low) hreach hacc
  rw [apply_eq_patch]
  refine hpatch.trans ?_
  show encode 2 (moveHighAdjusted d (u16At (m.read target.toNat 2) 0) low).toNat = _
  rw [hread, u16At_encode]

/-- **What an adjusted upper half does** that stands anywhere in a block, for a difference of whole
granules. Let the entries in front of it be read through, and let it be stored in two bytes with
access in the memory that they leave. Then those two bytes are replaced, no others, and the rest of
the block follows. The upper half moves by the difference and by what rounding carries, so that the
encoded address moves by the difference exactly if the lower half is below `0x8000`. If no fixup
behind it touches the two bytes, they stay so to the end of the block. -/
theorem applyFixups_adjusted (low : UInt16) (back : List UInt16) (hm : m.WellFormed)
    (hd : 0x10000 ∣ d.toNat)
    (hfront : ReadThrough front) (hkind : entryKind? entry = some .highAdjusted)
    (hread : (m.applyFixups d base front).1.read (fixupTarget base entry).toNat 2 =
      encode 2 high.toNat)
    (hacc : ∀ r ∈ halfStretch (fixupTarget base entry), m.isAccessibleAt r = true) :
    let target := fixupTarget base entry
    let result := m.applyFixups d base (front ++ entry :: low :: back)
    ∃ (after : Memory) (high' : UInt16),
      result = after.applyFixups d base back ∧
      Agree (halfStretch target)ᶜ after (m.applyFixups d base front).1 ∧
      after.read target.toNat 2 = encode 2 high'.toNat ∧
      high'.toNat = (high.toNat + d.toNat / 0x10000 +
        if low.toNat < 0x8000 then 0 else 1) % 0x10000 ∧
      (adjustedAddress high' low ≡ adjustedAddress high low + d.toNat [ZMOD 2 ^ 32] ↔
        low.toNat < 0x8000) ∧
      ((∀ f ∈ (fixupsOf base back).1, Disjoint (halfStretch target) f.stretch) →
        result.1.read target.toNat 2 = encode 2 high'.toNat) := by
  intro target result
  set before := (m.applyFixups d base front).1 with hbefore
  rw [applyFixups_eq] at hbefore
  have hbm : before.WellFormed := hbefore ▸ hm.move d _
  have hbacc : ∀ r ∈ halfStretch target, before.isAccessibleAt r = true := by
    intro r hr
    have hkeep : Agree ∅ before m :=
      hbefore ▸ agree_move hm fun f _ => Set.empty_disjoint f.stretch
    rw [hkeep.accessible]
    exact hacc r hr
  set after := apply d before ⟨.highAdjusted, target, low⟩
  have ham : after.WellFormed := hbm.apply d _
  have hhalf : after.read target.toNat 2 = encode 2 (moveHighAdjusted d high low).toNat :=
    read_apply_highAdjusted hbm hread hbacc
  have hresult : result = after.applyFixups d base back :=
    (applyFixups_append hfront).trans (applyFixups_pair hkind)
  refine ⟨after, moveHighAdjusted d high low, hresult, ?_, hhalf, toNat_moveHighAdjusted hd _ _,
    adjustedAddress_move_iff hd _ _, fun hback => ?_⟩
  · exact agree_apply (f := ⟨.highAdjusted, target, low⟩) hbm disjoint_compl_left d
  · rw [hresult, applyFixups_eq, ← hhalf]
    exact (agree_move ham hback).read (ham.move d _) ham subset_rfl

end Memory

/-! ### A file with an adjusted upper half -/

namespace Image

open Memory

/-- A flat file with one fixup: an adjusted upper half, with a lower half that is negative as a
signed number. -/
def adjustedFile : ByteArray :=
  movableFile 0 ⟨312, 12⟩ [0, 0x10, 0, 0, 12, 0, 0, 0, 0x20, 0x40, 0x00, 0x90]

def adjustedImage : Image := (loadFile adjustedFile).1

/-- What the file spells, and where it is mapped. -/
lemma spelled_adjustedFile :
    Movable adjustedFile ⟨312, 12⟩ ∧
      (adjustedImage.isMapped = true ∧ adjustedImage.optional.imageBase = 0x400000 ∧
        adjustedImage.baseAddress = 116 ∧ adjustedImage.layout = .narrow ∧
        adjustedFile.size = 324 ∧ adjustedImage.alignedSize = 0x3000 ∧
        adjustedImage.flatBytes = 0x3000) ∧
      adjustedImage.frontFixups ⟨312, 12⟩ adjustedFile =
        ([⟨.highAdjusted, 0x1020, 0x9000⟩], true) := by
  decide +kernel

lemma front_adjustedImage : adjustedImage.Front ⟨312, 12⟩ adjustedFile :=
  spelled_adjustedFile.1.front

/-- The directory lies behind the stored base, and spells the same whatever base is stored. -/
lemma frontFixups_adjustedImage (base : UInt64) :
    adjustedImage.frontFixups ⟨312, 12⟩ (adjustedImage.frontWith base adjustedFile) =
      ([⟨.highAdjusted, 0x1020, 0x9000⟩], true) := by
  obtain ⟨-, ⟨-, -, haddress, hlayout, -⟩, hspelled⟩ := spelled_adjustedFile
  rw [front_adjustedImage.frontFixups_frontWith (by rw [haddress, hlayout]; decide)]
  exact hspelled

/-- Behind its headers the image is zero, and has access. -/
lemma read_adjustedImage :
    adjustedImage.memory.read (0x1020 : UInt32).toNat 2 = encode 2 (0 : UInt16).toNat ∧
    ∀ r ∈ halfStretch 0x1020, adjustedImage.memory.isAccessibleAt r = true := by
  obtain ⟨hmovable, ⟨-, -, -, -, hsize, haligned, hflat⟩, -⟩ := spelled_adjustedFile
  have hbehind : adjustedFile.size ≤ 0x1020 := by
    rw [hsize]
    decide
  have hend : 0x1020 + 2 ≤ min adjustedImage.alignedSize.toNat adjustedImage.flatBytes := by
    rw [haligned, hflat]
    decide
  obtain ⟨hread, hin⟩ :=
    hmovable.showsFile.behind front_adjustedImage.wellFormed hbehind hend
  exact ⟨hread, fun r hr => (hin r hr).1⟩

/-- A half in a longer block, with a lower half that is positive. -/
theorem applyFixups_adjustedImage :
    (adjustedImage.memory.applyFixups 0x10000 0x1000 [0x3010, 0x4020, 0x7000, 0]).1.read 0x1020 2 =
        encode 2 1 ∧
      adjustedAddress 1 0x7000 ≡ adjustedAddress 0 0x7000 + 0x10000 [ZMOD 2 ^ 32] := by
  have hm := front_adjustedImage.wellFormed
  obtain ⟨hzero, hacc⟩ := read_adjustedImage
  have hdvd : 0x10000 ∣ (0x10000 : UInt64).toNat := by decide
  have hfirst : entryKind? 0x3010 = some .highLow := by decide
  have hkind : entryKind? 0x4020 = some .highAdjusted := by decide
  have hfront : ReadThrough [0x3010] := .single hfirst (by decide) .nil
  have hread : (adjustedImage.memory.applyFixups 0x10000 0x1000 [0x3010]).1.read
      (fixupTarget 0x1000 0x4020).toNat 2 = encode 2 (0 : UInt16).toNat := by
    have hapart : ∀ f ∈ (fixupsOf 0x1000 [0x3010]).1, Disjoint (halfStretch 0x1020) f.stretch := by
      have hspelled : (fixupsOf 0x1000 [0x3010]).1 = [⟨.highLow, 0x1010, 0⟩] := by decide
      rw [hspelled, List.forall_mem_singleton, Fixup.stretch, Set.Ico_disjoint_Ico]
      decide
    rw [applyFixups_eq]
    exact ((agree_move hm hapart).read (hm.move _ _) hm subset_rfl).trans hzero
  have hacc : ∀ r ∈ halfStretch (fixupTarget 0x1000 0x4020),
      adjustedImage.memory.isAccessibleAt r = true := hacc
  obtain ⟨after, high', -, -, -, hhigh, hiff, hstays⟩ :=
    applyFixups_adjusted 0x7000 [0] hm hdvd hfront hkind hread hacc
  have hone : high' = 1 := UInt16.toNat_inj.mp (hhigh.trans (by decide))
  subst hone
  refine ⟨hstays fun f hf => ?_, hiff.mpr (by decide)⟩
  have hspelled : (fixupsOf 0x1000 [0]).1 = [⟨.absolute, 0x1000, 0⟩] := by decide
  rw [hspelled, List.mem_singleton] at hf
  subst hf
  rw [Fixup.stretch, Set.Ico_disjoint_Ico]
  decide

/-- The image moves by one granule, and the upper half by two. -/
theorem carried_adjustedFile :
    Reachable adjustedImage ∧ adjustedImage.isMapped = true ∧
      adjustedImage.optional.imageBase = 0x400000 ∧
      adjustedImage.fixups = [⟨.highAdjusted, 0x1020, 0x9000⟩] ∧
      (∀ r ∈ halfStretch 0x1020, adjustedImage.memory.isAccessibleAt r = true) ∧
      adjustedImage.memory.read 0x1020 2 = encode 2 0 ∧
      (adjustedImage.relocate 0x410000).2 = true ∧
      (adjustedImage.relocate 0x410000).1.memory.read 0x1020 2 = encode 2 2 ∧
      ¬ adjustedAddress 2 0x9000 ≡ adjustedAddress 0 0x9000 + 0x10000 [ZMOD 2 ^ 32] := by
  obtain ⟨-, ⟨hmapped, hbase, -, -, hsize, -⟩, hspelled⟩ := spelled_adjustedFile
  obtain ⟨hread, hacc⟩ := read_adjustedImage
  have hfront := front_adjustedImage
  have hm := hfront.wellFormed
  have hreachable : Reachable adjustedImage := reachable_loadFile adjustedFile
  have hfixups : adjustedImage.fixups = [⟨.highAdjusted, 0x1020, 0x9000⟩] := by
    rw [fixups_eq hfront.directory, hfront.directoryFixups_eq, hspelled]
  obtain ⟨pages, hmove, hfront', hagree⟩ := hfront.relocate (by rw [hbase]; decide)
    (fun _ => by decide) (frontFixups_adjustedImage 0x410000) (by rw [hsize]; decide)
  have hhalf : (adjustedImage.rebased 0x410000 pages).memory.read 0x1020 2 = encode 2 2 := by
    have hbehind : Set.Ico 0x1020 (0x1020 + 2) ⊆ Set.Ici adjustedFile.size := by
      rw [hsize]
      exact fun r hr => le_trans (by decide) hr.1
    rw [hagree.read hfront'.wellFormed (hm.move _ _) hbehind, hbase]
    exact read_apply_highAdjusted hm hread hacc
  rw [hmove]
  refine ⟨hreachable, hmapped, hbase, hfixups, hacc, hread, rfl, hhalf, ?_⟩
  decide

end Image

end PeImage
