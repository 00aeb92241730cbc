/-
Moving an image in machine words.

* `addImmediateChecked_eq`: the number of a bundle is taken apart and put together by shifts, which
  stay within their words;
* `patchChecked_eq`, `fixupChecked_eq`: one fixup, which reads and writes the image;
* `applyFixupsChecked_eq`: a block, whose entries are taken by their position;
* `loop_blockRound`, `applyDirectoryChecked_eq`: a directory, whose blocks are applied as soon as
  they are read. A round starts where a header fits in, so a block that the end of the directory
  cuts has at least that many bytes, and every round goes on by as many;
* `relocateChecked_eq`: so every move goes through.
-/
import PeImage.Proofs.Checked.Access
import PeImage.Proofs.Immediate
import PeImage.Proofs.Moves

namespace PeImage

open Checked

/-! ### Bundles -/

namespace ImmediateField

/-- As many low bits as the piece has. -/
def maskChecked (f : ImmediateField) : Checked UInt32 := do
  return UInt32.ofNat (← sub (2 ^ (← distance 64 f.width.toNat)) 1)

/-- The piece of the number that a word holds, at its place in the number. -/
def ofWordChecked (f : ImmediateField) (word : UInt32) : Checked UInt64 := do
  let mask ← f.maskChecked
  let position ← distance 32 f.position.toNat
  let valuePosition ← distance 64 f.valuePosition.toNat
  return ((word >>> UInt32.ofNat position) &&& mask).toUInt64 <<< UInt64.ofNat valuePosition

/-- The word with the piece of a number put into it. -/
def intoWordChecked (f : ImmediateField) (word : UInt32) (value : UInt64) : Checked UInt32 := do
  let mask ← f.maskChecked
  let position := UInt32.ofNat (← distance 32 f.position.toNat)
  let valuePosition ← distance 64 f.valuePosition.toNat
  let piece := (value >>> UInt64.ofNat valuePosition).toUInt32 &&& mask
  return (word &&& ~~~(mask <<< position)) ||| (piece <<< position)

variable {f : ImmediateField}

lemma ofNat_valuePosition (f : ImmediateField) :
    UInt64.ofNat f.valuePosition.toNat = f.valuePosition.toUInt64 := by
  refine UInt64.toNat_inj.mp ?_
  rw [UInt32.toNat_toUInt64, UInt64.toNat_ofNat']
  exact Nat.mod_eq_of_lt (f.valuePosition.toNat_lt.trans (by decide))

lemma maskChecked_eq (h : f.Fits) : f.maskChecked = .ok f.mask := by
  have hwidth : f.width.toNat < 64 := h.1.trans (by decide)
  rw [maskChecked, distance_eq hwidth, ok_bind, sub_eq Nat.one_le_two_pow, ok_bind,
    ← toNat_mask h, UInt32.ofNat_toNat]
  rfl

lemma ofWordChecked_eq (h : f.Fits) (word : UInt32) :
    f.ofWordChecked word = .ok (f.ofWord word) := by
  obtain ⟨-, -, -, hposition, hvalue⟩ := id h
  rw [ofWordChecked, maskChecked_eq h, ok_bind, distance_eq hposition, ok_bind, distance_eq hvalue,
    ok_bind, UInt32.ofNat_toNat, ofNat_valuePosition]
  rfl

lemma intoWordChecked_eq (h : f.Fits) (word : UInt32) (value : UInt64) :
    f.intoWordChecked word value = .ok (f.intoWord word value) := by
  obtain ⟨-, -, -, hposition, hvalue⟩ := id h
  rw [intoWordChecked, maskChecked_eq h, ok_bind, distance_eq hposition, ok_bind,
    distance_eq hvalue, ok_bind, UInt32.ofNat_toNat, ofNat_valuePosition]
  rfl

end ImmediateField

namespace Bundle

/-- The number that a bundle loads. -/
def immediateChecked (b : Bundle) : Checked UInt64 :=
  immediateFields.foldlM (fun value f => do
    return value ||| (← f.ofWordChecked (← get b.toList f.word.val))) 0

/-- The bundle that loads another number. -/
def setImmediateChecked (b : Bundle) (value : UInt64) : Checked Bundle :=
  immediateFields.foldlM (fun b f => do
    return b.set f.word (← f.intoWordChecked (← get b.toList f.word.val) value)
      (show f.word.val + 1 ≤ 4 from f.word.isLt)) b

/-- The bundle that loads a number greater by `difference`. -/
def addImmediateChecked (b : Bundle) (difference : UInt64) : Checked Bundle := do
  b.setImmediateChecked ((← b.immediateChecked) + difference)

lemma get_toList (b : Bundle) (i : Fin 4) : get b.toList i.val = .ok (b.get i) :=
  get_eq (by rw [Vector.getElem?_toList, Vector.getElem?_eq_getElem i.isLt]; rfl)

lemma immediateChecked_eq (b : Bundle) : b.immediateChecked = .ok b.immediate := by
  refine foldlM_eq (fun _ rest => ∀ f ∈ rest, ImmediateField.Fits f)
    (fun value f rest hfits => ⟨?_, fun g hg => hfits g (List.mem_cons_of_mem f hg)⟩)
    fits_immediateFields
  rw [get_toList, ok_bind, f.ofWordChecked_eq (hfits f List.mem_cons_self)]
  rfl

lemma setImmediateChecked_eq (b : Bundle) (value : UInt64) :
    b.setImmediateChecked value = .ok (b.setImmediate value) := by
  refine foldlM_eq (fun _ rest => ∀ f ∈ rest, ImmediateField.Fits f)
    (fun b f rest hfits => ⟨?_, fun g hg => hfits g (List.mem_cons_of_mem f hg)⟩)
    fits_immediateFields
  rw [get_toList, ok_bind, f.intoWordChecked_eq (hfits f List.mem_cons_self)]
  rfl

lemma addImmediateChecked_eq (b : Bundle) (difference : UInt64) :
    b.addImmediateChecked difference = .ok (b.addImmediate difference) := by
  rw [addImmediateChecked, immediateChecked_eq, ok_bind, setImmediateChecked_eq]
  rfl

end Bundle

/-- The bytes of an address after the move, as a function of those before it. -/
def FixupKind.moveChecked (kind : FixupKind) (difference : UInt64) (low : UInt16) (b : ByteArray) :
    Checked ByteArray :=
  match kind with
  | .ia64Bundle => do return (← (Bundle.ofBytes b).addImmediateChecked difference).toByteArray
  | .absolute | .high | .low | .highLow | .highAdjusted | .mipsJump | .dir64 =>
    return kind.move difference low b

lemma FixupKind.moveChecked_eq (kind : FixupKind) (difference : UInt64) (low : UInt16)
    (b : ByteArray) : kind.moveChecked difference low b = .ok (kind.move difference low b) := by
  cases kind with
  | ia64Bundle =>
      rw [moveChecked, Bundle.addImmediateChecked_eq]
      rfl
  | _ => rfl

namespace Image

variable {image : Image} {m : Memory}

/-! ### Images with memory -/

/-- The image is mapped, and its pages are whole. -/
structure HasMemory (image : Image) : Prop where
  contents : image.contents = .mapped image.pages
  allWhole : AllWhole image.pages

/-- The image with the pages of another memory. -/
def withMemory (image : Image) (m : Memory) : Image := { image with contents := .mapped m.pages }

lemma memory_withMemory (hm : m.limit = image.memory.limit) : (image.withMemory m).memory = m := by
  obtain ⟨pages, limit⟩ := m
  obtain rfl : limit = image.memory.limit := hm
  rfl

/-- What is left of a block after a fixup does not depend on what the image held before it. -/
lemma map_withMemory (hm : m.limit = image.memory.limit) (difference : UInt64) (base : UInt32)
    (rest : List UInt16) :
    ((image.withMemory m).memory.applyFixups difference base rest).map
        (image.withMemory m).withMemory id =
      (m.applyFixups difference base rest).map image.withMemory id := by
  rw [memory_withMemory hm]
  rfl

namespace HasMemory

variable (h : image.HasMemory)

include h

lemma withMemory_memory : image.withMemory image.memory = image := by
  show { image with contents := .mapped image.pages } = image
  rw [← h.contents]

lemma read_eq (a : UInt32) (n : ℕ) : image.read a n = image.memory.read a.toNat n := by
  rw [read, h.contents]
  rfl

lemma write_eq (a : UInt32) (src : ByteArray) :
    (image.write a src).1 = image.withMemory (image.memory.write a.toNat src).1 := by
  rw [write, h.contents]
  rfl

end HasMemory

lemma hasMemory_withMemory (hm : m.WellFormed) : (image.withMemory m).HasMemory := ⟨rfl, hm⟩

/-! ### Fixups -/

/-- The image with the `n` bytes at an address replaced by a function of them. -/
def patchChecked (image : Image) (a : UInt32) (n : ℕ) (f : ByteArray → Checked ByteArray) :
    Checked Image := do
  let bytes ← image.readChecked a n
  if bytes.size = n then return (← image.writeChecked a (← f bytes)).1 else return image

/-- Moves the address stored at `a` in the given way. -/
def fixupChecked (image : Image) (difference : UInt64) (kind : FixupKind) (a : UInt32)
    (low : UInt16) : Checked Image :=
  match kind with
  | .absolute => return image
  | .high | .low | .highLow | .highAdjusted | .mipsJump | .ia64Bundle | .dir64 =>
    image.patchChecked (kind.start a) kind.width (kind.moveChecked difference low)

/-- One round of the loop over the entries of a block. The state is the image and the position of
the entry. -/
def fixupRound (difference : UInt64) (base : UInt32) (entries : List UInt16) (s : Image × ℕ) :
    Checked (Round (Image × ℕ) (Image × Bool)) := do
  let (image, i) := s
  if i < entries.length then
    let entry ← get entries i
    match FixupKind.ofValue? (entry >>> 12).toNat with
    | none => return .done (image, false)
    | some .highAdjusted =>
      match entries[← add 64 i 1]? with
      | none => return .done (image, true)
      | some low =>
        let i ← add 64 i 1
        let image ← image.fixupChecked difference .highAdjusted (Memory.fixupTarget base entry) low
        return .next (image, ← add 64 i 1)
    | some kind =>
      let image ← image.fixupChecked difference kind (Memory.fixupTarget base entry) 0
      return .next (image, ← add 64 i 1)
  else return .done (image, true)

/-- Applies the entries of a block at `base` in order. -/
def applyFixupsChecked (image : Image) (difference : UInt64) (base : UInt32)
    (entries : List UInt16) : Checked (Image × Bool) :=
  loop (fixupRound difference base entries) (entries.length + 1) (image, 0)

lemma patchChecked_eq (h : image.HasMemory) (a : UInt32) {n : ℕ} (hn : n < 2 ^ 63)
    {f : ByteArray → Checked ByteArray} {g : ByteArray → ByteArray} (hf : ∀ b, f b = .ok (g b))
    (hg : ∀ b, b.size = n → (g b).size = n) :
    image.patchChecked a n f = .ok (image.withMemory (image.memory.patch a n g)) := by
  rw [patchChecked, readChecked_eq h.allWhole a hn, ok_bind, Memory.patch_eq, ← h.read_eq]
  split_ifs with hsize
  · rw [hf, ok_bind, writeChecked_eq h.allWhole a (by rw [hg _ hsize]; exact hn), ok_bind,
      ← h.write_eq]
    rfl
  · rw [h.withMemory_memory]
    rfl

lemma fixupChecked_eq (h : image.HasMemory) (difference : UInt64) (kind : FixupKind) (a : UInt32)
    (low : UInt16) : image.fixupChecked difference kind a low =
      .ok (image.withMemory (image.memory.fixup difference kind a low)) := by
  have hn : kind.width < 2 ^ 63 := by cases kind <;> decide
  have hpatch := patchChecked_eq h (kind.start a) hn (kind.moveChecked_eq difference low)
    (kind.size_move difference low)
  rw [← Memory.fixup_eq_patch] at hpatch
  cases kind with
  | absolute =>
      show _ = Except.ok (image.withMemory image.memory)
      rw [h.withMemory_memory]
      rfl
  | _ => exact hpatch

lemma limit_fixup (m : Memory) (difference : UInt64) (kind : FixupKind) (a : UInt32)
    (low : UInt16) : (m.fixup difference kind a low).limit = m.limit := by
  rw [Memory.fixup_eq_patch, Memory.limit_patch]

/-- A fixup leaves an image with the memory that it fixed up. -/
lemma HasMemory.fixup (h : image.HasMemory) (difference : UInt64) (kind : FixupKind) (a : UInt32)
    (low : UInt16) : (image.withMemory (image.memory.fixup difference kind a low)).HasMemory := by
  refine hasMemory_withMemory ?_
  rw [Memory.fixup_eq_patch]
  exact Memory.WellFormed.patch (m := image.memory) h.allWhole _ _ _

/-- **A block is applied** without a stop. -/
theorem applyFixupsChecked_eq (h : image.HasMemory) (difference : UInt64) (base : UInt32)
    {entries : List UInt16} (hlength : entries.length < 2 ^ 63) :
    image.applyFixupsChecked difference base entries =
      .ok ((image.memory.applyFixups difference base entries).map image.withMemory id) := by
  refine loop_eq (fun s : Image × ℕ => s.1.HasMemory) (fun s => entries.length - s.2)
    (fun s =>
      (s.1.memory.applyFixups difference base (entries.drop s.2)).map s.1.withMemory id) ?_ h
    (Nat.lt_succ_of_le (Nat.sub_le _ _))
  rintro ⟨image, i⟩ (h : image.HasMemory)
  have hdone (b : Bool) : (image.memory, b).map image.withMemory id = (image, b) := by
    rw [Prod.map_apply, h.withMemory_memory]
    rfl
  dsimp only [fixupRound]
  by_cases hin : i < entries.length
  · rw [if_pos hin, get_eq (List.getElem?_eq_getElem hin), ok_bind, List.drop_eq_getElem_cons hin,
      Memory.applyFixups.eq_def]
    dsimp only
    cases FixupKind.ofValue? (entries[i] >>> 12).toNat with
    | none =>
        refine .inl ?_
        dsimp only
        rw [hdone]
        rfl
    | some kind =>
        cases kind with
        | highAdjusted =>
            dsimp only
            rw [add_eq (by omega), ok_bind]
            by_cases hlow : i + 1 < entries.length
            · rw [List.drop_eq_getElem_cons hlow, List.getElem?_eq_getElem hlow]
              dsimp only
              rw [ok_bind, fixupChecked_eq h, ok_bind, add_eq (by omega), ok_bind]
              refine .inr ⟨_, rfl, h.fixup .., ?_, map_withMemory (limit_fixup ..) ..⟩
              dsimp only
              omega
            · rw [List.drop_eq_nil_of_le (Nat.le_of_not_lt hlow),
                List.getElem?_eq_none (Nat.le_of_not_lt hlow)]
              refine .inl ?_
              dsimp only
              rw [hdone]
              rfl
        | _ =>
            dsimp only
            rw [fixupChecked_eq h, ok_bind, add_eq (by omega), ok_bind]
            refine .inr ⟨_, rfl, h.fixup .., ?_, map_withMemory (limit_fixup ..) ..⟩
            dsimp only
            omega
  · refine .inl ?_
    rw [if_neg hin, List.drop_eq_nil_of_le (Nat.le_of_not_lt hin), Memory.applyFixups, hdone]
    rfl

/-! ### Directories -/

/-- The size of the block at `cursor`, which the end of a directory of `length` bytes may cut. -/
def blockSizeChecked (length cursor declared : ℕ) : Checked ℕ := do
  if (← add 64 cursor declared) > length then sub length cursor else return declared

/-- One round of the loop over the blocks of a directory. The state is the image and the position of
the block. -/
def blockRound (directory : ByteArray) (difference : UInt64) (s : Image × ℕ) :
    Checked (Round (Image × ℕ) (Image × Bool)) := do
  let (image, cursor) := s
  if (← add 64 cursor FixupBlock.headerSize) ≤ directory.size then
    let address := u32At directory cursor
    let declared := u32At directory (cursor + 4)
    if !image.isValidBlock address declared then return .done (image, false)
    else if declared.toNat ≤ FixupBlock.headerSize then
      return .next (image, ← add 64 cursor FixupBlock.headerSize)
    else if (← div32 address pageSize32) = 0 then
      return .next (image, ← add 64 cursor declared.toNat)
    else
      let size ← blockSizeChecked directory.size cursor declared.toNat
      let count ← div (← sub size FixupBlock.headerSize) 2
      let entries := entriesAt directory (← add 64 cursor FixupBlock.headerSize) count
      match ← image.applyFixupsChecked difference address entries with
      | (image, true) => return .next (image, ← add 64 cursor size)
      | (image, false) => return .done (image, false)
  else return .done (image, true)

/-- Applies a directory to an image. -/
def applyDirectoryChecked (image : Image) (difference : UInt64) (d : Directory) :
    Checked (Image × Bool) := do
  if d.size.toNat < FixupBlock.headerSize ∨ d.size.toNat > maxRelocationSize then
    return (image, false)
  else
    let buffer ← blank d.size.toNat
    let directory ← image.readChecked d.rva buffer.size
    loop (blockRound directory difference) (directory.size + 1) (image, 0)

/-- Stores another base, in the mapped headers and in those that the image keeps. -/
def storeBaseChecked (image : Image) (base : UInt64) : Checked Image := do
  let (image, _) ←
    image.writeChecked image.baseAddress (encode image.layout.addressSize base.toNat)
  return { image with optional := { image.optional with imageBase := base } }

/-- Moves a mapped image to a base: the image, and whether every fixup was applied. -/
def relocateChecked (image : Image) (base : UInt64) : Checked (Image × Bool) := do
  let difference := base - image.optional.imageBase
  if base = image.optional.imageBase then return (image, true)
  else if image.pageCount = 0 ∨ image.isRelocatable base = false then return (image, false)
  else
    let image ← image.storeBaseChecked base
    match image.relocationDirectory? with
    | none => return (image, false)
    | some d => image.applyDirectoryChecked difference d

/-- Blocks follow those that are there already. -/
lemma parseBlocksFrom_append (image : Image) (directory : ByteArray) (cursor : ℕ)
    (front acc : Array FixupBlock) : image.parseBlocksFrom directory cursor (front ++ acc) =
      (image.parseBlocksFrom directory cursor acc).map (front ++ ·) id := by
  fun_induction parseBlocksFrom image directory cursor acc with
  | case1 cursor acc hc address declared hvalid =>
      rw [parseBlocksFrom, dif_pos hc]
      dsimp only
      rw [if_pos hvalid]
      rfl
  | case2 cursor acc hc address declared hvalid hsmall ih =>
      rw [parseBlocksFrom, dif_pos hc]
      dsimp only
      rw [if_neg hvalid, dif_pos hsmall, ih]
  | case3 cursor acc hc address declared hvalid hsmall hfirst ih =>
      rw [parseBlocksFrom, dif_pos hc]
      dsimp only
      rw [if_neg hvalid, dif_neg hsmall, if_pos hfirst, ih]
  | case4 cursor acc hc address declared hvalid hsmall hfirst size entries ih =>
      rw [parseBlocksFrom, dif_pos hc]
      dsimp only
      rw [if_neg hvalid, dif_neg hsmall, if_neg hfirst, Array.push_append]
      exact ih
  | case5 cursor acc hc =>
      rw [parseBlocksFrom, dif_neg hc]
      rfl

/-- What the blocks of a directory from `cursor` on make of an image. -/
def afterBlocks (image : Image) (directory : ByteArray) (difference : UInt64) (cursor : ℕ) :
    Image × Bool :=
  let (blocks, complete) := image.parseBlocksFrom directory cursor #[]
  let (m, applied) := image.memory.applyBlocks difference blocks.toList
  (image.withMemory m, applied && complete)

lemma afterBlocks_withMemory (hm : m.limit = image.memory.limit) (directory : ByteArray)
    (difference : UInt64) (cursor : ℕ) :
    (image.withMemory m).afterBlocks directory difference cursor =
      let (blocks, complete) := image.parseBlocksFrom directory cursor #[]
      let (m, applied) := m.applyBlocks difference blocks.toList
      (image.withMemory m, applied && complete) := by
  have hblocks : (image.withMemory m).parseBlocksFrom directory cursor #[] =
      image.parseBlocksFrom directory cursor #[] := by
    have hsize : (image.withMemory m).optional.sizeOfImage = image.optional.sizeOfImage := rfl
    exact parseBlocksFrom_congr hsize _ _ _
  rw [afterBlocks, memory_withMemory hm, hblocks]
  rfl

lemma blockSizeChecked_eq {length cursor declared : ℕ} (hcursor : cursor ≤ length)
    (hfits : cursor + declared < 2 ^ 64) :
    blockSizeChecked length cursor declared = .ok (min declared (length - cursor)) := by
  rw [blockSizeChecked, add_eq hfits, ok_bind]
  split_ifs with hcut
  · rw [sub_eq hcursor, Nat.min_eq_right (by omega)]
  · rw [Nat.min_eq_left (by omega)]
    rfl

/-- A block leaves a memory that an image can have. -/
lemma applyFixups_frame (h : image.HasMemory) (difference : UInt64) (base : UInt32)
    (entries : List UInt16) :
    (image.memory.applyFixups difference base entries).1.limit = image.memory.limit ∧
      (image.memory.applyFixups difference base entries).1.WellFormed := by
  rw [Memory.applyFixups_eq]
  exact ⟨Memory.limit_move _ _ _, Memory.WellFormed.move (m := image.memory) h.allWhole _ _⟩

lemma div_pageSize32_eq_zero {a : UInt32} : a / pageSize32 = 0 ↔ a < pageSize32 := by
  rw [← UInt32.toNat_inj, UInt32.toNat_div, UInt32.toNat_zero, UInt32.lt_iff_toNat_lt,
    Nat.div_eq_zero_iff_lt (by decide)]

/-- What the blocks from `cursor` on make of an image, block by block: one that the end of the
directory cuts is applied as far as it goes, and none behind one that is not valid or that holds an
unknown entry. -/
lemma afterBlocks_eq (h : image.HasMemory) (directory : ByteArray) (difference : UInt64)
    (cursor : ℕ) : image.afterBlocks directory difference cursor =
      if cursor + FixupBlock.headerSize ≤ directory.size then
        let address := u32At directory cursor
        let declared := u32At directory (cursor + 4)
        if !image.isValidBlock address declared then (image, false)
        else if declared.toNat ≤ FixupBlock.headerSize then
          image.afterBlocks directory difference (cursor + FixupBlock.headerSize)
        else if address < pageSize32 then
          image.afterBlocks directory difference (cursor + declared.toNat)
        else
          let size := min declared.toNat (directory.size - cursor)
          let entries := entriesAt directory (cursor + FixupBlock.headerSize)
            ((size - FixupBlock.headerSize) / 2)
          match image.memory.applyFixups difference address entries with
          | (m, true) => (image.withMemory m).afterBlocks directory difference (cursor + size)
          | (m, false) => (image.withMemory m, false)
      else (image, true) := by
  have hdone (b : Bool) : (image.withMemory image.memory, b) = (image, b) := by
    rw [h.withMemory_memory]
  conv_lhs => rw [afterBlocks, parseBlocksFrom]
  split_ifs with hin
  · dsimp only
    generalize u32At directory cursor = address
    generalize u32At directory (cursor + 4) = declared
    split_ifs with hvalid hsmall hfirst
    · exact hdone false
    · rfl
    · rfl
    · generalize min declared.toNat (directory.size - cursor) = size
      generalize entriesAt directory (cursor + FixupBlock.headerSize)
        ((size - FixupBlock.headerSize) / 2) = entries
      have hblocks : image.parseBlocksFrom directory (cursor + size) (#[].push ⟨address, entries⟩) =
          (image.parseBlocksFrom directory (cursor + size) #[]).map
            (#[⟨address, entries⟩] ++ ·) id :=
        image.parseBlocksFrom_append directory (cursor + size) #[⟨address, entries⟩] #[]
      have hlimit := (applyFixups_frame h difference address entries).1
      rw [hblocks]
      dsimp only [Prod.map_fst, Prod.map_snd]
      rw [Array.toList_append]
      dsimp only [List.cons_append, List.nil_append, Memory.applyBlocks]
      generalize image.memory.applyFixups difference address entries = applied at *
      obtain ⟨m, known⟩ := applied
      cases known with
      | false => rfl
      | true =>
        exact (image.afterBlocks_withMemory hlimit directory difference (cursor + size)).symm
  · exact hdone true

/-- The bytes of a block in its directory: one that the end of the directory cuts still has its
header. -/
lemma exists_blockSize {directory : ByteArray} {cursor declared : ℕ}
    (hin : cursor + FixupBlock.headerSize ≤ directory.size)
    (hsmall : ¬ declared ≤ FixupBlock.headerSize) : ∃ size,
      min declared (directory.size - cursor) = size ∧ FixupBlock.headerSize ≤ size ∧
        0 < size ∧ cursor + size ≤ directory.size := by
  have hheader : FixupBlock.headerSize = 8 := rfl
  exact ⟨_, rfl, by omega, by omega, by omega⟩

/-- **The blocks of a directory are applied** without a stop. -/
theorem loop_blockRound (h : image.HasMemory) {directory : ByteArray}
    (hsize : directory.size < 2 ^ 33) (difference : UInt64) :
    loop (blockRound directory difference) (directory.size + 1) (image, 0) =
      .ok (image.afterBlocks directory difference 0) := by
  have hheader : FixupBlock.headerSize = 8 := rfl
  refine loop_eq (fun s : Image × ℕ => s.1.HasMemory ∧ s.2 ≤ directory.size + 2 ^ 32)
    (fun s => directory.size - s.2)
    (fun s => s.1.afterBlocks directory difference s.2) ?_ ⟨h, Nat.zero_le _⟩
    (Nat.lt_succ_of_le (Nat.sub_le _ _))
  rintro ⟨image, cursor⟩ ⟨h : image.HasMemory, hcursor : cursor ≤ _⟩
  dsimp only [blockRound]
  rw [add_eq (by omega), ok_bind, afterBlocks_eq h]
  by_cases hin : cursor + FixupBlock.headerSize ≤ directory.size
  · have hdeclared := (u32At directory (cursor + 4)).toNat_lt
    rw [if_pos hin, if_pos hin]
    dsimp only
    generalize u32At directory cursor = address
    generalize u32At directory (cursor + 4) = declared at *
    by_cases hvalid : (!image.isValidBlock address declared) = true
    · rw [if_pos hvalid, if_pos hvalid]
      exact .inl rfl
    rw [if_neg hvalid, if_neg hvalid]
    by_cases hsmall : declared.toNat ≤ FixupBlock.headerSize
    · rw [if_pos hsmall, if_pos hsmall, ok_bind]
      refine .inr ⟨_, rfl, ⟨h, ?_⟩, ?_, rfl⟩ <;> dsimp only <;> omega
    rw [if_neg hsmall, if_neg hsmall, div32_eq (by decide), ok_bind]
    by_cases hfirst : address < pageSize32
    · rw [if_pos (div_pageSize32_eq_zero.mpr hfirst), if_pos hfirst, add_eq (by omega), ok_bind]
      refine .inr ⟨_, rfl, ⟨h, ?_⟩, ?_, rfl⟩ <;> dsimp only <;> omega
    obtain ⟨size, hcut, hlow, hpos, hhigh⟩ := exists_blockSize hin hsmall
    rw [if_neg (div_pageSize32_eq_zero.not.mpr hfirst), if_neg hfirst,
      blockSizeChecked_eq (by omega) (by omega), ok_bind, hcut, sub_eq hlow, ok_bind,
      div_eq (by decide), ok_bind, ok_bind]
    generalize hentries : entriesAt directory (cursor + FixupBlock.headerSize)
      ((size - FixupBlock.headerSize) / 2) = entries
    have hlength : entries.length < 2 ^ 63 := by
      rw [← hentries, entriesAt, List.length_map, List.length_range]
      omega
    have hm := (applyFixups_frame h difference address entries).2
    rw [applyFixupsChecked_eq h difference address hlength, ok_bind]
    generalize image.memory.applyFixups difference address entries = applied at *
    obtain ⟨m, known⟩ := applied
    cases known with
    | false => exact .inl rfl
    | true =>
        dsimp only [Prod.map_apply, id_eq]
        rw [add_eq (by omega), ok_bind]
        refine .inr ⟨_, rfl, ⟨hasMemory_withMemory hm, ?_⟩, ?_, rfl⟩ <;> dsimp only <;> omega
  · rw [if_neg hin, if_neg hin]
    exact .inl rfl

lemma applyDirectoryChecked_eq (h : image.HasMemory) (difference : UInt64) (d : Directory) :
    image.applyDirectoryChecked difference d =
      .ok ((image.applyDirectory image.memory difference d).map image.withMemory id) := by
  rw [applyDirectoryChecked, applyDirectory]
  split_ifs with hsize
  · rw [Prod.map_apply, h.withMemory_memory]
    rfl
  · have hmax : maxRelocationSize = 0xA00000 := rfl
    have hn : d.size.toNat < 2 ^ 33 := by omega
    have hread := size_read_le h.allWhole d.rva d.size.toNat
    rw [blank_eq (by omega), ok_bind, size_zeros, readChecked_eq h.allWhole d.rva (by omega),
      ok_bind, loop_blockRound h (by omega), afterBlocks, h.read_eq]
    rfl

/-- A directory does the same to an image that has another base already. -/
lemma applyDirectory_rebased (base : UInt64) (pages : Array Page) (difference : UInt64)
    (d : Directory) : (image.rebased base pages).applyDirectory m difference d =
      image.applyDirectory m difference d := by
  rw [applyDirectory_eq, applyDirectory_eq, directoryFixups, directoryFixups, spelledFixups_rebased]

lemma storeBaseChecked_eq (h : image.HasMemory) (base : UInt64) :
    image.storeBaseChecked base = .ok (image.rebased base (image.storeBase base).pages) := by
  have hsmall : (encode image.layout.addressSize base.toNat).size < 2 ^ 63 := by
    rw [size_encode]
    cases image.layout <;> decide
  rw [storeBaseChecked, writeChecked_eq h.allWhole image.baseAddress hsmall, ok_bind]
  dsimp only
  rw [h.write_eq]
  rfl

/-- **Every move goes through**, if the pages are whole. -/
theorem relocateChecked_eq (hw : AllWhole image.pages) (base : UInt64) :
    image.relocateChecked base = .ok (image.relocate base) := by
  rw [relocateChecked, relocate_eq]
  split_ifs with hself hno
  · rfl
  · rfl
  · have hpages : image.pageCount ≠ 0 := fun h0 => hno (.inl h0)
    have h : image.HasMemory := ⟨contents_of_pageCount hpages, hw⟩
    have hstored : (image.storeBase base).WellFormed := wellFormed_storeBase hw base
    have hrebased : (image.rebased base (image.storeBase base).pages).HasMemory := ⟨rfl, hstored⟩
    rw [storeBaseChecked_eq h, ok_bind]
    show (match image.relocationDirectory? with
      | none => return (image.rebased base (image.storeBase base).pages, false)
      | some d => (image.rebased base (image.storeBase base).pages).applyDirectoryChecked
          (base - image.optional.imageBase) d) = _
    cases image.relocationDirectory? with
    | none => rfl
    | some d =>
        dsimp only
        rw [applyDirectoryChecked_eq hrebased, applyDirectory_rebased,
          memory_rebased (m := image.storeBase base) image base rfl]
        rfl

end Image

end PeImage
