/-
The entries of a directory of base relocations, by their places.

The blocks of a directory lie one behind the other, and the entries of a block behind its header. Of
each entry its place says whether a move heeds it: it has to lie in the directory and in a block for
a page behind the first one, it must not be the lower half that goes with the entry in front of it,
and no entry of an unknown kind may come first.

* `Image.BlockAt`, `HasEntry`, `IsLowerHalf`, `Image.Aborts`: blocks and entries by their places;
* `Image.SpelledAt`, `Image.Spells`: the fixup that an entry spells;
* `Image.fixupsOf_drop`: the entries of one block, by induction over them;
* `Image.WalkedTo`: how far a walk over the blocks gets, and `Image.spells_of_mem_blocks`,
  `Image.spells_of_mem`: so the fixups that a directory spells are those of its entries, by
  induction over the blocks.
-/
import PeImage.Proofs.Moves

namespace PeImage

/-! ### Blocks and entries -/

/-- The address of the block at `c`. -/
def blockAddress (directory : ByteArray) (c : ℕ) : UInt32 := u32At directory c

/-- The size that the block at `c` declares. -/
def blockSize (directory : ByteArray) (c : ℕ) : UInt32 := u32At directory (c + 4)

/-- Entry `i` of the block at `c`. -/
def entryAt (directory : ByteArray) (c i : ℕ) : UInt16 :=
  u16At directory (c + FixupBlock.headerSize + 2 * i)

/-- The kind of an entry, if it is known. -/
def entryKind? (entry : UInt16) : Option FixupKind := FixupKind.ofValue? (entry >>> 12).toNat

/-- Entry `i` lies wholly in the block at `c`, and wholly in the directory. -/
def HasEntry (directory : ByteArray) (c i : ℕ) : Prop :=
  FixupBlock.headerSize + 2 * i + 2 ≤ (blockSize directory c).toNat ∧
    c + FixupBlock.headerSize + 2 * i + 2 ≤ directory.size

/-- Entry `i` is the lower half that goes with the entry in front of it, which is an adjusted upper
half and no lower half itself. -/
def IsLowerHalf (directory : ByteArray) (c : ℕ) : ℕ → Prop
  | 0 => False
  | i + 1 => entryKind? (entryAt directory c i) = some .highAdjusted ∧ ¬ IsLowerHalf directory c i

namespace Image

/-- At `c` there is the whole header of a block that lies within the image. -/
def IsBlock (image : Image) (directory : ByteArray) (c : ℕ) : Prop :=
  c + FixupBlock.headerSize ≤ directory.size ∧
    image.isValidBlock (blockAddress directory c) (blockSize directory c) = true

/-- The block at `c` is one for a page behind the first one. -/
structure HeededBlock (image : Image) (directory : ByteArray) (c : ℕ) : Prop where
  isBlock : image.IsBlock directory c
  pageSize_le : pageSize ≤ (blockAddress directory c).toNat

/-- Where blocks begin: at the start, and behind each block within the image, which takes up at
least the space of its header. -/
inductive BlockAt (image : Image) (directory : ByteArray) : ℕ → Prop
  | first : BlockAt image directory 0
  | next {c : ℕ} (h : BlockAt image directory c) (hb : image.IsBlock directory c) :
      BlockAt image directory (c + max FixupBlock.headerSize (blockSize directory c).toNat)

/-- Entry `i` of the block at `c` is to be carried out and of no known kind. -/
structure Aborts (image : Image) (directory : ByteArray) (c i : ℕ) : Prop where
  blockAt : image.BlockAt directory c
  heeded : image.HeededBlock directory c
  hasEntry : HasEntry directory c i
  head : ¬ IsLowerHalf directory c i
  kind : entryKind? (entryAt directory c i) = none

/-- Entry `i` of the block at `c` spells a fixup that a move carries out. -/
structure SpelledAt (image : Image) (directory : ByteArray) (c i : ℕ) (f : Fixup) : Prop where
  blockAt : image.BlockAt directory c
  heeded : image.HeededBlock directory c
  hasEntry : HasEntry directory c i
  head : ¬ IsLowerHalf directory c i
  /-- No entry in front of it ends the work. -/
  unaborted : ∀ c' i', c' < c ∨ c' = c ∧ i' < i → ¬ image.Aborts directory c' i'
  kind : entryKind? (entryAt directory c i) = some f.kind
  /-- An adjusted upper half has its lower half behind it. -/
  lower : f.kind = .highAdjusted → HasEntry directory c (i + 1)
  /-- The target counts from the address of the block. -/
  target : f.target.toNat =
    (blockAddress directory c).toNat + (entryAt directory c i).toNat % pageSize

/-- Some entry of the directory spells the fixup. -/
def Spells (image : Image) (directory : ByteArray) (f : Fixup) : Prop :=
  ∃ c i, image.SpelledAt directory c i f

variable {image : Image} {directory : ByteArray} {c c' i : ℕ} {f : Fixup}

/-- Blocks keep apart: between the starts of two there is room for the first one. -/
lemma BlockAt.add_le (h : image.BlockAt directory c) (h' : image.BlockAt directory c')
    (hlt : c < c') :
    c + max FixupBlock.headerSize (blockSize directory c).toNat ≤ c' := by
  induction c' using Nat.strong_induction_on generalizing c with
  | _ c' ih =>
    cases h' with
    | first => omega
    | @next b hb _ =>
        rcases Nat.lt_trichotomy c b with hcb | rfl | hbc
        · have hb' : b < b + max FixupBlock.headerSize (blockSize directory b).toNat :=
            Nat.lt_add_of_pos_right (lt_max_of_lt_left (by decide))
          exact (ih b hb' h hb hcb).trans hb'.le
        · exact le_rfl
        · -- the block at `c` begins behind the end of the one at `b`
          exact absurd (ih c hlt hb h hbc) (Nat.not_le.mpr hlt)

/-! ### The entries of one block -/

/-- All entries in front of entry `i` that are no lower halves are of known kinds. -/
def KnownBefore (directory : ByteArray) (c i : ℕ) : Prop :=
  ∀ j < i, HasEntry directory c j → ¬ IsLowerHalf directory c j →
    entryKind? (entryAt directory c j) ≠ none

lemma KnownBefore.succ (h : KnownBefore directory c i)
    (hi : IsLowerHalf directory c i ∨ entryKind? (entryAt directory c i) ≠ none) :
    KnownBefore directory c (i + 1) := by
  intro j hj he hl
  rcases Nat.lt_succ_iff_lt_or_eq.mp hj with hlt | rfl
  · exact h j hlt he hl
  · exact hi.resolve_left hl

/-- Entry `i` of the block at `c`, looked at alone, spells the fixup. -/
structure EntrySpells (directory : ByteArray) (c i : ℕ) (f : Fixup) : Prop where
  hasEntry : HasEntry directory c i
  head : ¬ IsLowerHalf directory c i
  kind : entryKind? (entryAt directory c i) = some f.kind
  lower : f.kind = .highAdjusted → HasEntry directory c (i + 1)
  target : f.target = Memory.fixupTarget (blockAddress directory c) (entryAt directory c i)

/-- What is left of the entries behind the first `i`, if anything: entry `i`, and what is left
behind it. -/
lemma of_drop_entriesAt {n : ℕ} {entry : UInt16} {rest : List UInt16}
    (h : entry :: rest = (entriesAt directory (c + FixupBlock.headerSize) n).drop i) :
    i < n ∧ entry = entryAt directory c i ∧
      rest = (entriesAt directory (c + FixupBlock.headerSize) n).drop (i + 1) := by
  have hlen : i < n := by
    have hpos := congrArg List.length h
    simp [entriesAt] at hpos
    omega
  rw [List.drop_eq_getElem_cons (by simpa [entriesAt] using hlen)] at h
  obtain ⟨rfl, rfl⟩ := List.cons.inj h
  exact ⟨hlen, by simp [entriesAt, entryAt], rfl⟩

/-- **The entries of a block**: those from entry `i` on spell fixups that entries spell, with known
kinds in front; and if they are said to be known, all entries are. -/
theorem fixupsOf_drop {n : ℕ} (hn : ∀ j, j < n ↔ HasEntry directory c j) {entries : List UInt16}
    (he : entries = (entriesAt directory (c + FixupBlock.headerSize) n).drop i)
    (hhead : ¬ IsLowerHalf directory c i) (hknown : KnownBefore directory c i) :
    (∀ f ∈ (fixupsOf (blockAddress directory c) entries).1,
        ∃ j, EntrySpells directory c j f ∧ KnownBefore directory c j) ∧
      ((fixupsOf (blockAddress directory c) entries).2 = true →
        ∀ j, KnownBefore directory c j) := by
  -- behind the last entry there is none that could be unknown
  have hall {m : ℕ} (hm : n ≤ m) (h : KnownBefore directory c m) (j : ℕ) :
      KnownBefore directory c j :=
    fun k _ hk => h k (((hn k).mpr hk).trans_le hm) hk
  have hend {m : ℕ} (h : [] = (entriesAt directory (c + FixupBlock.headerSize) n).drop m) :
      n ≤ m := by
    simpa [entriesAt] using h.symm
  fun_induction fixupsOf (blockAddress directory c) entries generalizing i with
  | case1 => exact ⟨by simp, fun _ => hall (hend he) hknown⟩
  | case2 entry rest hkind => exact ⟨by simp, by simp⟩
  | case3 entry hkind =>
      obtain ⟨-, rfl, hrest⟩ := of_drop_entriesAt he
      have hsucc := hknown.succ (.inr (by rw [entryKind?, hkind]; simp))
      exact ⟨by simp, fun _ => hall (hend hrest) hsucc⟩
  | case4 entry hkind low rest ih =>
      obtain ⟨hi, rfl, hlow⟩ := of_drop_entriesAt he
      obtain ⟨hi', rfl, hrest⟩ := of_drop_entriesAt hlow
      have hlower : IsLowerHalf directory c (i + 1) := ⟨hkind, hhead⟩
      have hsucc := hknown.succ (.inr (by rw [entryKind?, hkind]; simp))
      obtain ⟨hspells, hknows⟩ := ih hrest (fun h => h.2 hlower) (hsucc.succ (.inl hlower))
      refine ⟨List.forall_mem_cons.mpr ⟨⟨i, ?_, hknown⟩, hspells⟩, hknows⟩
      exact ⟨(hn i).mp hi, hhead, hkind, fun _ => (hn _).mp hi', rfl⟩
  | case5 entry rest kind hne hkind ih =>
      obtain ⟨hi, rfl, hrest⟩ := of_drop_entriesAt he
      have hnot : ¬ IsLowerHalf directory c (i + 1) := fun h =>
        hne (Option.some.inj (hkind.symm.trans h.1))
      have hsucc := hknown.succ (.inr (by rw [entryKind?, hkind]; simp))
      obtain ⟨hspells, hknows⟩ := ih hrest hnot hsucc
      refine ⟨List.forall_mem_cons.mpr ⟨⟨i, ?_, hknown⟩, hspells⟩, hknows⟩
      exact ⟨(hn i).mp hi, hhead, hkind, fun h => absurd h hne, rfl⟩

/-- The entries of a whole block. -/
lemma fixupsOf_entriesAt {n : ℕ} (hn : ∀ j, j < n ↔ HasEntry directory c j) :
    (∀ f ∈ (fixupsOf (blockAddress directory c)
          (entriesAt directory (c + FixupBlock.headerSize) n)).1,
        ∃ j, EntrySpells directory c j f ∧ KnownBefore directory c j) ∧
      ((fixupsOf (blockAddress directory c)
          (entriesAt directory (c + FixupBlock.headerSize) n)).2 = true →
        ∀ j, KnownBefore directory c j) :=
  fixupsOf_drop hn (i := 0) rfl id fun j hj => absurd hj (Nat.not_lt_zero j)

/-! ### The blocks -/

/-- Fixups of the blocks behind the first one only count where all of its entries are known. -/
lemma mem_fixupsOfBlocks_cons {b : FixupBlock} {rest : List FixupBlock}
    (hf : f ∈ (fixupsOfBlocks (b :: rest)).1) :
    f ∈ (fixupsOf b.address b.entries).1 ∨
      (fixupsOf b.address b.entries).2 = true ∧ f ∈ (fixupsOfBlocks rest).1 := by
  cases hb : fixupsOf b.address b.entries with
  | mk fixups known =>
      cases known with
      | true =>
          simp only [fixupsOfBlocks, hb, Prod.map, List.mem_append] at hf
          exact hf.imp_right fun hrest => ⟨rfl, hrest⟩
      | false =>
          simp only [fixupsOfBlocks, hb] at hf
          exact .inl hf

/-- The target of an entry does not wrap where the block lies within an image that can be mapped. -/
lemma toNat_fixupTarget (hsize : image.optional.sizeOfImage ≤ largestImage)
    (hb : image.IsBlock directory c) (entry : UInt16) :
    (Memory.fixupTarget (blockAddress directory c) entry).toNat =
      (blockAddress directory c).toNat + entry.toNat % pageSize := by
  have hlt : (blockAddress directory c).toNat < image.optional.sizeOfImage.toNat := by
    have hvalid := hb.2
    simp only [isValidBlock, Bool.and_eq_true, decide_eq_true_iff] at hvalid
    exact UInt32.lt_iff_toNat_lt.mp hvalid.1.1
  have hle : image.optional.sizeOfImage.toNat ≤ 0x77000000 := UInt32.le_iff_toNat_le.mp hsize
  have hoff : (entry &&& 0xFFF).toUInt32.toNat = entry.toNat % pageSize := by
    rw [UInt16.toNat_toUInt32, UInt16.toNat_and]
    exact Nat.and_two_pow_sub_one_eq_mod entry.toNat 12
  have hmod : entry.toNat % pageSize < pageSize := Nat.mod_lt _ pageSize_pos
  rw [Memory.fixupTarget, UInt32.toNat_add, hoff]
  refine Nat.mod_eq_of_lt ?_
  rw [pageSize] at hmod ⊢
  omega

/-- A walk over the blocks gets to the cursor: there is a block, if its header fits, and no entry in
front of it ends the work. -/
structure WalkedTo (image : Image) (directory : ByteArray) (cursor : ℕ) : Prop where
  blockAt : cursor + FixupBlock.headerSize ≤ directory.size → image.BlockAt directory cursor
  unaborted : ∀ c < cursor, ∀ i, ¬ image.Aborts directory c i

/-- Entries that a walk gets to spell fixups that are carried out. -/
lemma EntrySpells.spells (hsize : image.optional.sizeOfImage ≤ largestImage)
    (hwalk : image.WalkedTo directory c) (hb : image.HeededBlock directory c)
    (h : EntrySpells directory c i f) (hknown : KnownBefore directory c i) :
    image.Spells directory f := by
  refine ⟨c, i, hwalk.blockAt hb.isBlock.1, hb, h.hasEntry, h.head, ?_, h.kind, h.lower, ?_⟩
  · rintro c' i' (hlt | ⟨rfl, hlt⟩) haborts
    · exact hwalk.unaborted c' hlt i' haborts
    · exact hknown i' hlt haborts.hasEntry haborts.head haborts.kind
  · rw [h.target, toNat_fixupTarget hsize hb.isBlock]

/-- A walk gets behind a block of which no entry ends the work, or to the end of the directory. -/
lemma WalkedTo.next (h : image.WalkedTo directory c) (hb : image.IsBlock directory c)
    (hc : ∀ i, ¬ image.Aborts directory c i) {stop : ℕ}
    (hle : stop ≤ c + max FixupBlock.headerSize (blockSize directory c).toNat)
    (hstop : c + max FixupBlock.headerSize (blockSize directory c).toNat ≤ stop ∨
      directory.size ≤ stop) : image.WalkedTo directory stop := by
  have hat := h.blockAt hb.1
  constructor
  case blockAt =>
    intro hfits
    have hpos : 0 < FixupBlock.headerSize := by decide
    rcases hstop with hge | hend
    · rw [le_antisymm hle hge]
      exact hat.next hb
    · omega
  case unaborted =>
    intro c' hlt i haborts
    rcases Nat.lt_trichotomy c' c with hfront | rfl | hbehind
    · exact h.unaborted c' hfront i haborts
    · exact hc i haborts
    · -- there is no block between this one and the next
      have hnext := hat.add_le haborts.blockAt hbehind
      omega

/-- A block without entries has none that ends the work. -/
lemma not_aborts_of_size_le (h : (blockSize directory c).toNat ≤ FixupBlock.headerSize) (i : ℕ) :
    ¬ image.Aborts directory c i := by
  intro haborts
  have hin := haborts.hasEntry.1
  omega

/-- Neither has a block for the first page, of which no entry counts. -/
lemma not_aborts_of_lt_pageSize (h : blockAddress directory c < pageSize32) (i : ℕ) :
    ¬ image.Aborts directory c i := by
  intro haborts
  exact Nat.not_lt.mpr haborts.heeded.pageSize_le (UInt32.lt_iff_toNat_lt.mp h)

/-- The parser puts blocks behind those that it has. -/
lemma exists_parseBlocksFrom (image : Image) (directory : ByteArray) (cursor : ℕ)
    (acc : Array FixupBlock) : ∃ blocks,
      (image.parseBlocksFrom directory cursor acc).1.toList = acc.toList ++ blocks := by
  fun_induction parseBlocksFrom image directory cursor acc with
  | case1 | case5 => exact ⟨[], (List.append_nil _).symm⟩
  | case2 _ _ _ _ _ _ _ ih | case3 _ _ _ _ _ _ _ _ ih => exact ih
  | case4 cursor acc _ address _ _ _ _ size entries ih =>
      obtain ⟨blocks, h⟩ := ih
      exact ⟨⟨address, entries⟩ :: blocks, by rw [h]; simp⟩

lemma isBlock_of_not (hc : c + FixupBlock.headerSize ≤ directory.size)
    (h : ¬ (!image.isValidBlock (u32At directory c) (u32At directory (c + 4))) = true) :
    image.IsBlock directory c := by
  rw [Bool.not_eq_true', Bool.not_eq_false] at h
  exact ⟨hc, h⟩

/-- **The blocks of a directory**: those from the cursor on spell fixups that entries spell, if a
walk gets to the cursor. -/
theorem spells_of_mem_blocks (hsize : image.optional.sizeOfImage ≤ largestImage) (cursor : ℕ)
    (acc : Array FixupBlock) : ∀ blocks,
      (image.parseBlocksFrom directory cursor acc).1.toList = acc.toList ++ blocks →
        image.WalkedTo directory cursor →
          ∀ f ∈ (fixupsOfBlocks blocks).1, image.Spells directory f := by
  have hnil {acc : Array FixupBlock} (blocks : List FixupBlock)
      (h : acc.toList = acc.toList ++ blocks) : ∀ f ∈ (fixupsOfBlocks blocks).1,
        image.Spells directory f := by
    rw [List.self_eq_append_right.mp h]
    simp [fixupsOfBlocks]
  fun_induction parseBlocksFrom image directory cursor acc with
  | case1 | case5 => exact fun blocks h _ => hnil blocks h
  | case2 cursor acc hc address declared hvalid hsmall ih =>
      intro blocks hblocks hwalk
      have hmax : max FixupBlock.headerSize (blockSize directory cursor).toNat =
          FixupBlock.headerSize := max_eq_left hsmall
      refine ih blocks hblocks
        (hwalk.next (isBlock_of_not hc hvalid) (not_aborts_of_size_le hsmall) ?_ (.inl ?_))
      · rw [hmax]
      · rw [hmax]
  | case3 cursor acc hc address declared hvalid hsmall hfirst ih =>
      intro blocks hblocks hwalk
      have hmax : max FixupBlock.headerSize (blockSize directory cursor).toNat =
          declared.toNat := max_eq_right (Nat.lt_of_not_le hsmall).le
      refine ih blocks hblocks
        (hwalk.next (isBlock_of_not hc hvalid) (not_aborts_of_lt_pageSize hfirst) ?_ (.inl ?_))
      · rw [hmax]
      · rw [hmax]
  | case4 cursor acc hc address declared hvalid hsmall hfirst size entries ih =>
      intro blocks hblocks hwalk
      have hb := isBlock_of_not hc hvalid
      have hheeded : image.HeededBlock directory cursor :=
        ⟨hb, Nat.le_of_not_lt fun hlt => hfirst (UInt32.lt_iff_toNat_lt.mpr hlt)⟩
      obtain ⟨rest, hrest⟩ := exists_parseBlocksFrom image directory (cursor + size)
        (acc.push ⟨address, entries⟩)
      have hcons : blocks = ⟨address, entries⟩ :: rest := by
        rw [hrest, Array.toList_push, List.append_assoc] at hblocks
        exact (List.append_cancel_left hblocks).symm
      have hdeclared : declared.toNat = (blockSize directory cursor).toNat := rfl
      have hn (j : ℕ) : j < (size - FixupBlock.headerSize) / 2 ↔ HasEntry directory cursor j := by
        rw [HasEntry, ← hdeclared]
        omega
      obtain ⟨hentries, hknown⟩ := fixupsOf_entriesAt hn
      intro f hf
      rw [hcons] at hf
      rcases mem_fixupsOfBlocks_cons hf with hhere | ⟨hall, hbehind⟩
      · obtain ⟨i, hspells, hbefore⟩ := hentries f hhere
        exact hspells.spells hsize hwalk hheeded hbefore
      · have hclean (i : ℕ) : ¬ image.Aborts directory cursor i := fun haborts =>
          hknown hall (i + 1) i (Nat.lt_succ_self i) haborts.hasEntry haborts.head haborts.kind
        refine ih rest hrest (hwalk.next hb hclean ?_ ?_) f hbehind
        · omega
        · omega

/-- **The fixups that a directory spells** are those of its entries. -/
theorem spells_of_mem (hsize : image.optional.sizeOfImage ≤ largestImage)
    (hf : f ∈ (image.spelledFixups directory).1) : image.Spells directory f := by
  refine spells_of_mem_blocks hsize 0 #[] (image.parseBlocks directory).1 rfl ?_ f hf
  exact ⟨fun _ => .first, fun c hc => absurd hc (Nat.not_lt_zero c)⟩

end Image

end PeImage
