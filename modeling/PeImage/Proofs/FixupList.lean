/-
The fixups of a directory as a list of patches.

The entries of a block are read from left to right, and an upper half takes the entry behind it
along. What a block does to memory is decided by its entries alone: they spell a list of fixups,
which are carried out one after the other.

* `FixupKind.width`, `FixupKind.start`, `FixupKind.move`: how many bytes a fixup of a kind replaces,
  where they begin, and by which function of them; `Memory.fixup_eq_patch`: so a fixup is a patch;
* `Fixup`, `Fixup.stretch`, `fixupsOf`, `fixupsOfBlocks`: the fixups that entries and blocks spell,
  up to the first entry of an unknown kind;
* `Memory.move`: carrying them out, and `Memory.applyBlocks_eq`: that is what blocks do;
* `Memory.agree_move`: fixups outside of a set of addresses do not matter there, and
  `Memory.agree_move_of_mem`, `Memory.flat_move_of_mem`: among fixups that keep apart, each one acts
  as if it were alone.
-/
import PeImage.Image.Relocation
import PeImage.Proofs.Immediate
import PeImage.Proofs.Patch

namespace PeImage

/-! ### A fixup as a patch -/

namespace FixupKind

/-- The number of bytes that a fixup replaces. -/
def width : FixupKind → ℕ
  | .absolute => 0
  | .high | .low | .highAdjusted => 2
  | .highLow | .mipsJump => 4
  | .ia64Bundle => Bundle.size
  | .dir64 => 8

/-- The address at which the replaced bytes begin. Bundles are aligned. -/
def start : FixupKind → UInt32 → UInt32
  | .ia64Bundle, a => a &&& ~~~15
  | _, a => a

/-- The bytes after the move, as a function of those before it. -/
def move (difference : UInt64) (low : UInt16) : FixupKind → ByteArray → ByteArray
  | .absolute, b => b
  | .high, b => encode 2 (moveHigh difference (u16At b 0)).toNat
  | .low, b => encode 2 (u16At b 0 + difference.toUInt16).toNat
  | .highLow, b => encode 4 (u32At b 0 + difference.toUInt32).toNat
  | .highAdjusted, b => encode 2 (moveHighAdjusted difference (u16At b 0) low).toNat
  | .mipsJump, b => encode 4 (moveJump difference (u32At b 0)).toNat
  | .ia64Bundle, b => ((Bundle.ofBytes b).addImmediate difference).toByteArray
  | .dir64, b => encode 8 (u64At b 0 + difference).toNat

end FixupKind

/-- A move replaces as many bytes as there were. -/
lemma FixupKind.size_move (kind : FixupKind) (difference : UInt64) (low : UInt16) (b : ByteArray)
    (hb : b.size = kind.width) : (kind.move difference low b).size = kind.width := by
  cases kind with
  | absolute => exact hb
  | ia64Bundle => exact Bundle.size_toByteArray _
  | high | low | highLow | highAdjusted | mipsJump | dir64 => exact size_encode _ _

namespace Memory

/-- Nothing is read or written where nothing is asked for. -/
lemma patch_zero (m : Memory) (a : UInt32) (low : UInt16) (difference : UInt64) :
    m.patch a 0 (FixupKind.absolute.move difference low) = m := by
  have hread : m.read a.toNat 0 = .empty := by
    rw [read, readUpTo, dif_neg]
    rw [stop]
    omega
  have hwrite : (m.write a.toNat .empty).1 = m := by
    rw [write, writeUpTo, dif_neg]
    rw [stop, ByteArray.size_empty]
    omega
  rw [patch_eq, hread]
  exact hwrite

/-- **A fixup is a patch** of as many bytes as its kind says. -/
lemma fixup_eq_patch (m : Memory) (difference : UInt64) (kind : FixupKind) (a : UInt32)
    (low : UInt16) : m.fixup difference kind a low =
      m.patch (kind.start a) kind.width (kind.move difference low) := by
  cases kind with
  | absolute => exact (patch_zero m a low difference).symm
  | high | low | highLow | highAdjusted | mipsJump | ia64Bundle | dir64 => rfl

end Memory

/-! ### The fixups that a directory spells -/

/-- A fixup: how an address is stored, where, and the lower half that goes with an upper one. -/
structure Fixup where
  /-- How the address is stored. -/
  kind : FixupKind
  /-- Where the entry points. -/
  target : UInt32
  /-- The lower half that goes with an adjusted upper half. -/
  low : UInt16
  deriving DecidableEq, Repr

/-- The addresses of the bytes that a fixup replaces. -/
def Fixup.stretch (f : Fixup) : Set ℕ :=
  Set.Ico (f.kind.start f.target).toNat ((f.kind.start f.target).toNat + f.kind.width)

/-- The fixups that the entries of a block at `base` spell, and whether all kinds are known. -/
def fixupsOf (base : UInt32) : List UInt16 → List Fixup × Bool
  | [] => ([], true)
  | entry :: rest =>
    match FixupKind.ofValue? (entry >>> 12).toNat with
    | none => ([], false)
    | some .highAdjusted =>
      match rest with
      | [] => ([], true)
      | low :: rest =>
        (fixupsOf base rest).map (⟨.highAdjusted, Memory.fixupTarget base entry, low⟩ :: ·) id
    | some kind =>
      (fixupsOf base rest).map (⟨kind, Memory.fixupTarget base entry, 0⟩ :: ·) id

/-- The fixups that blocks spell, up to the first entry of an unknown kind. -/
def fixupsOfBlocks : List FixupBlock → List Fixup × Bool
  | [] => ([], true)
  | b :: rest =>
    match fixupsOf b.address b.entries with
    | (fixups, true) => (fixupsOfBlocks rest).map (fixups ++ ·) id
    | (fixups, false) => (fixups, false)

namespace Memory

/-- Carries out a fixup. -/
def apply (difference : UInt64) (m : Memory) (f : Fixup) : Memory :=
  m.fixup difference f.kind f.target f.low

/-- Carries out fixups, one after the other. -/
def move (m : Memory) (difference : UInt64) (fixups : List Fixup) : Memory :=
  fixups.foldl (apply difference) m

/-- A block carries out the fixups that its entries spell. -/
lemma applyFixups_eq (m : Memory) (difference : UInt64) (base : UInt32) (entries : List UInt16) :
    m.applyFixups difference base entries =
      (m.move difference (fixupsOf base entries).1, (fixupsOf base entries).2) := by
  fun_induction fixupsOf base entries generalizing m with
  | case1 => rfl
  | case2 entry rest h =>
      unfold applyFixups
      rw [h]
      rfl
  | case3 entry h =>
      unfold applyFixups
      rw [h]
      rfl
  | case4 entry h low rest ih =>
      unfold applyFixups
      rw [h]
      exact ih _
  | case5 entry rest kind hne h ih =>
      unfold applyFixups
      rw [h]
      split
      · next heq => cases heq
      · next heq => exact absurd (Option.some.inj heq) hne
      · next heq =>
        cases heq
        exact ih _

/-- **Blocks carry out the fixups that they spell.** -/
lemma applyBlocks_eq (m : Memory) (difference : UInt64) (blocks : List FixupBlock) :
    m.applyBlocks difference blocks =
      (m.move difference (fixupsOfBlocks blocks).1, (fixupsOfBlocks blocks).2) := by
  fun_induction fixupsOfBlocks blocks generalizing m with
  | case1 => rfl
  | case2 b rest fixups heq ih =>
      rw [applyBlocks, applyFixups_eq, heq]
      dsimp only
      rw [ih]
      simp only [move, Prod.map, List.foldl_append, id]
  | case3 b rest fixups heq =>
      rw [applyBlocks, applyFixups_eq, heq]

/-! ### What fixups do -/

section

variable {m m' : Memory} {difference : UInt64} {f : Fixup} {fixups : List Fixup} {s : Set ℕ}

lemma apply_eq_patch (difference : UInt64) (m : Memory) (f : Fixup) :
    apply difference m f =
      m.patch (f.kind.start f.target) f.kind.width (f.kind.move difference f.low) :=
  fixup_eq_patch m difference f.kind f.target f.low

lemma WellFormed.apply (hm : m.WellFormed) (difference : UInt64) (f : Fixup) :
    (apply difference m f).WellFormed := by
  rw [apply_eq_patch]
  exact hm.patch _ _ _

lemma WellFormed.move (hm : m.WellFormed) (difference : UInt64) (fixups : List Fixup) :
    (m.move difference fixups).WellFormed := by
  induction fixups generalizing m with
  | nil => exact hm
  | cons f rest ih => exact ih (hm.apply difference f)

@[simp] lemma limit_move (m : Memory) (difference : UInt64) (fixups : List Fixup) :
    (m.move difference fixups).limit = m.limit := by
  induction fixups generalizing m with
  | nil => rfl
  | cons f rest ih =>
      refine (ih _).trans ?_
      rw [apply_eq_patch, limit_patch]

/-- A fixup within a set does the same to memories that agree on it. -/
lemma Agree.apply (hm : m.WellFormed) (hm' : m'.WellFormed) (h : Agree s m m')
    (hs : f.stretch ⊆ s) (difference : UInt64) :
    Agree s (Memory.apply difference m f) (Memory.apply difference m' f) := by
  rw [apply_eq_patch, apply_eq_patch]
  exact h.patch hm hm' (f.kind.size_move difference f.low) hs

/-- So do many. -/
lemma Agree.move (hm : m.WellFormed) (hm' : m'.WellFormed) (h : Agree s m m')
    (hs : ∀ f ∈ fixups, f.stretch ⊆ s) (difference : UInt64) :
    Agree s (m.move difference fixups) (m'.move difference fixups) := by
  induction fixups generalizing m m' with
  | nil => exact h
  | cons f rest ih =>
      rw [List.forall_mem_cons] at hs
      exact ih (hm.apply difference f) (hm'.apply difference f) (h.apply hm hm' hs.1 difference)
        hs.2

/-- A fixup outside of a set does not matter there. -/
lemma agree_apply (hm : m.WellFormed) (hs : Disjoint s f.stretch) (difference : UInt64) :
    Agree s (apply difference m f) m := by
  rw [apply_eq_patch]
  exact agree_patch hm (f.kind.size_move difference f.low) hs

/-- Neither do many. -/
lemma agree_move (hm : m.WellFormed) (hs : ∀ f ∈ fixups, Disjoint s f.stretch) :
    Agree s (m.move difference fixups) m := by
  induction fixups generalizing m with
  | nil => exact Agree.refl s m
  | cons f rest ih =>
      rw [List.forall_mem_cons] at hs
      exact (ih (hm.apply difference f) hs.2).trans (agree_apply hm hs.1 difference)

/-- **Fixups that keep apart** each act as if they were alone. -/
lemma agree_move_of_mem (hm : m.WellFormed)
    (hd : fixups.Pairwise fun f g => Disjoint f.stretch g.stretch) (hf : f ∈ fixups) :
    Agree f.stretch (m.move difference fixups) (apply difference m f) := by
  induction fixups generalizing m with
  | nil => cases hf
  | cons g rest ih =>
      obtain ⟨hg, hrest⟩ := List.pairwise_cons.mp hd
      rcases List.mem_cons.mp hf with rfl | hf
      · -- the fixups behind it leave its bytes alone
        exact agree_move (hm.apply difference f) hg
      · -- the fixup in front of it left its bytes alone
        have hfront : Agree f.stretch (apply difference m g) m :=
          agree_apply hm (hg f hf).symm difference
        exact (ih (hm.apply difference g) hrest hf).trans
          (hfront.apply (hm.apply difference g) hm subset_rfl difference)

/-- The bytes with access of a fixup that keeps apart are those that its kind makes of the bytes
before. -/
lemma flat_move_of_mem (hm : m.WellFormed)
    (hd : fixups.Pairwise fun f g => Disjoint f.stretch g.stretch) (hf : f ∈ fixups)
    (hsize : (m.read (f.kind.start f.target).toNat f.kind.width).size = f.kind.width) {r : ℕ}
    (hr : r ∈ f.stretch) (ha : m.isAccessibleAt r = true) :
    (m.move difference fixups).flat r =
      byteAt (f.kind.move difference f.low (m.read (f.kind.start f.target).toNat f.kind.width))
        (r - (f.kind.start f.target).toNat) := by
  rw [(agree_move_of_mem hm hd hf).flat r hr, apply_eq_patch,
    flat_patch hm (f.kind.size_move difference f.low), if_pos]
  exact ⟨hr, le_reach_of_size_read hm hsize hr, ha⟩

end

end Memory

/-! ### The directory of an image -/

namespace Image

/-- The fixups that the bytes of a directory spell, up to the first entry of an unknown kind or the
first malformed block, and whether there is neither. -/
def spelledFixups (image : Image) (directory : ByteArray) : List Fixup × Bool :=
  let (blocks, complete) := image.parseBlocks directory
  let (fixups, known) := fixupsOfBlocks blocks
  (fixups, known && complete)

/-- The fixups that a directory spells in a memory. -/
def directoryFixups (image : Image) (m : Memory) (d : Directory) : List Fixup × Bool :=
  image.spelledFixups (m.read d.rva.toNat d.size.toNat)

/-- **A directory carries out the fixups that it spells**, unless its size is out of range. -/
lemma applyDirectory_eq (image : Image) (m : Memory) (difference : UInt64) (d : Directory) :
    image.applyDirectory m difference d =
      if d.size.toNat < FixupBlock.headerSize ∨ d.size.toNat > maxRelocationSize then (m, false)
      else (m.move difference (image.directoryFixups m d).1, (image.directoryFixups m d).2) := by
  unfold applyDirectory directoryFixups spelledFixups
  split_ifs
  · rfl
  · dsimp only
    rw [Memory.applyBlocks_eq]

lemma wellFormed_applyDirectory {m : Memory} (hm : m.WellFormed) (image : Image)
    (difference : UInt64) (d : Directory) : (image.applyDirectory m difference d).1.WellFormed := by
  rw [applyDirectory_eq]
  split_ifs
  · exact hm
  · exact hm.move _ _

end Image

end PeImage
