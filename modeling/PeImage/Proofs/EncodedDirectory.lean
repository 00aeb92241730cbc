/-
Directories that are encodings of blocks.

The blocks of a directory, written one behind the other, are read back as they were, but for those
without entries, which have nothing to apply. So a directory that encodes blocks does what the
blocks do, one after the other, up to the first one that fails.

* `encodedBlocks`: the bytes of a directory with the given blocks;
* `FixupBlock.u32At_front`, `FixupBlock.entriesAt_front`: what is read at the start of a block that
  stands between other bytes;
* `Image.parseBlocksFrom_encodedBlocks`: the blocks from the end of a front on, by induction over
  the blocks with the front growing;
* `Memory.CarriesOut`: carrying out blocks in order, and `Image.applyDirectory_encodedBlocks`: what
  a directory does that encodes blocks.
-/
import PeImage.Proofs.Moves
import PeImage.Proofs.FixupValues

namespace PeImage

/-! ### Fields between other bytes -/

section

variable {a b : ByteArray} {i w : ℕ}

/-- A field that lies in the front is a field of the front. -/
lemma natAt_append_front (h : i + w ≤ a.size) : natAt (a ++ b) i w = natAt a i w :=
  natAt_congr fun k hk => by rw [byteAt_append, if_pos (by omega)]

/-- A field behind the front is a field of what stands there. -/
lemma natAt_append_back (a b : ByteArray) (i w : ℕ) :
    natAt (a ++ b) (a.size + i) w = natAt b i w :=
  natAt_congr fun k _ => by
    rw [byteAt_append, if_neg (by omega), Nat.add_assoc, Nat.add_sub_cancel_left]

end

/-! ### The bytes of a block -/

namespace FixupBlock

/-- The bytes of entries, one behind the other. -/
def entryBytes (entries : List UInt16) : ByteArray :=
  entries.foldl (fun acc e => acc ++ encode 2 e.toNat) .empty

lemma size_entryBytes (entries : List UInt16) : (entryBytes entries).size = 2 * entries.length := by
  have hentry : ∀ e ∈ entries, (encode 2 e.toNat).size = 2 := fun _ _ => size_encode _ _
  rw [entryBytes, size_foldl_append hentry, ByteArray.size_empty, Nat.zero_add]

/-- Entries that are written are read back. -/
lemma u16At_entryBytes {entries : List UInt16} {i : ℕ} (hi : i < entries.length) :
    u16At (entryBytes entries) (2 * i) = entries[i] := by
  have hentry : ∀ e ∈ entries, (encode 2 e.toNat).size = 2 := fun _ _ => size_encode _ _
  have hfield : natAt (entryBytes entries) (2 * i) 2 = natAt (encode 2 entries[i].toNat) 0 2 := by
    refine natAt_congr fun k hk => ?_
    have hpiece := byteAt_foldl_append hentry .empty hi hk
    rw [ByteArray.size_empty, Nat.zero_add] at hpiece
    rw [Nat.zero_add]
    exact hpiece
  have hread : u16At (entryBytes entries) (2 * i) = u16At (encode 2 entries[i].toNat) 0 := by
    rw [u16At, u16At, hfield]
  exact hread.trans (u16At_encode _)

variable (b : FixupBlock)

/-- The header of a block. -/
def headerBytes : ByteArray := encode 4 b.address.toNat ++ encode 4 b.size

lemma size_headerBytes : b.headerBytes.size = headerSize := by
  rw [headerBytes, ByteArray.size_append, size_encode, size_encode]
  rfl

lemma encoded_eq : b.encoded = b.headerBytes ++ entryBytes b.entries := rfl

/-- A block takes up the space that it declares. -/
lemma size_encoded : b.encoded.size = b.size := by
  rw [encoded_eq, ByteArray.size_append, size_headerBytes, size_entryBytes]
  rfl

lemma headerSize_le_size : headerSize ≤ b.size := Nat.le_add_right _ _

variable (front back : ByteArray)

/-- A field of a block that stands between other bytes. -/
lemma natAt_front {i w : ℕ} (h : i + w ≤ b.size) :
    natAt (front ++ (b.encoded ++ back)) (front.size + i) w = natAt b.encoded i w := by
  rw [natAt_append_back, natAt_append_front (h.trans b.size_encoded.ge)]

/-- A field of its header. -/
lemma natAt_header {i w : ℕ} (h : i + w ≤ headerSize) :
    natAt (front ++ (b.encoded ++ back)) (front.size + i) w = natAt b.headerBytes i w := by
  rw [b.natAt_front front back (h.trans b.headerSize_le_size), encoded_eq,
    natAt_append_front (h.trans b.size_headerBytes.ge)]

/-- The header is read back: the address, and the size up to 32 bits. -/
lemma u32At_front :
    u32At (front ++ (b.encoded ++ back)) front.size = b.address ∧
      (b.size < 2 ^ 32 →
        (u32At (front ++ (b.encoded ++ back)) (front.size + 4)).toNat = b.size) := by
  constructor
  · have hfield : natAt (front ++ (b.encoded ++ back)) front.size 4 =
        natAt (encode 4 b.address.toNat) 0 4 := by
      refine (b.natAt_header front back (i := 0) (by decide)).trans ?_
      exact natAt_append_front (by rw [size_encode])
    have hread : u32At (front ++ (b.encoded ++ back)) front.size =
        u32At (encode 4 b.address.toNat) 0 := by
      rw [u32At, u32At, hfield]
    exact hread.trans (u32At_encode b.address)
  · intro hlt
    have hfield : natAt b.headerBytes 4 4 = natAt (encode 4 b.size) 0 4 := by
      have hback := natAt_append_back (encode 4 b.address.toNat) (encode 4 b.size) 0 4
      rwa [size_encode] at hback
    rw [toNat_u32At, b.natAt_header front back (by decide), hfield, natAt_encode]
    exact Nat.mod_eq_of_lt hlt

/-- The entries are read back. -/
lemma entriesAt_front :
    Image.entriesAt (front ++ (b.encoded ++ back)) (front.size + headerSize) b.entries.length =
      b.entries := by
  refine List.ext_getElem (by simp [Image.entriesAt]) fun i hi hi' => ?_
  have hfits : headerSize + 2 * i + 2 ≤ b.size := by
    rw [size]
    omega
  have hentry : natAt b.encoded (headerSize + 2 * i) 2 =
      natAt (entryBytes b.entries) (2 * i) 2 := by
    rw [encoded_eq, ← b.size_headerBytes]
    exact natAt_append_back _ _ _ _
  rw [← u16At_entryBytes hi']
  simp only [Image.entriesAt, List.getElem_map, List.getElem_range]
  rw [u16At, u16At, Nat.add_assoc, b.natAt_front front back hfits, hentry]

end FixupBlock

/-- The bytes of a directory with the given blocks, one behind the other. -/
def encodedBlocks : List FixupBlock → ByteArray
  | [] => .empty
  | b :: rest => b.encoded ++ encodedBlocks rest

/-! ### Reading the blocks back -/

namespace Image

variable {image : Image} {b : FixupBlock} {blocks : List FixupBlock} {m : Memory}
  {difference : UInt64} {d : Directory}

/-- A block that a directory may encode: it is for a page behind the first one, and as large as it
is, it ends within the size of image. -/
structure Admits (image : Image) (b : FixupBlock) : Prop where
  pageSize_le : pageSize ≤ b.address.toNat
  end_le : b.address.toNat + b.size ≤ image.optional.sizeOfImage.toNat

lemma Admits.size_lt (h : image.Admits b) : b.size < 2 ^ 32 := by
  have hpage := h.pageSize_le
  have hend := h.end_le
  have hlt := image.optional.sizeOfImage.toNat_lt
  rw [pageSize] at hpage
  omega

/-- Such a block lies within the image. -/
lemma Admits.isValidBlock (h : image.Admits b) {declared : UInt32}
    (hsize : declared.toNat = b.size) : image.isValidBlock b.address declared = true := by
  have hpage := h.pageSize_le
  have hend := h.end_le
  have hheader := b.headerSize_le_size
  rw [pageSize] at hpage
  rw [FixupBlock.headerSize] at hheader
  simp only [Image.isValidBlock, Bool.and_eq_true, decide_eq_true_iff, UInt32.lt_iff_toNat_lt,
    hsize]
  omega

/-- The blocks that have entries. -/
def withEntries (blocks : List FixupBlock) : List FixupBlock :=
  blocks.filter fun b => b.entries ≠ []

/-- One round of the parser at a block that stands between other bytes: it gets to the end of the
block, and takes the block along if it has entries. -/
lemma parseBlocksFrom_front (h : image.Admits b) (front back : ByteArray)
    (acc : Array FixupBlock) :
    image.parseBlocksFrom (front ++ (b.encoded ++ back)) front.size acc =
      image.parseBlocksFrom (front ++ (b.encoded ++ back)) (front.size + b.size)
        (if b.entries = [] then acc else acc.push b) := by
  obtain ⟨haddress, hdeclared⟩ := b.u32At_front front back
  have hsize := hdeclared h.size_lt
  have hentries := b.entriesAt_front front back
  have hlength : (front ++ (b.encoded ++ back)).size = front.size + (b.size + back.size) := by
    rw [ByteArray.size_append, ByteArray.size_append, b.size_encoded]
  have hheader := b.headerSize_le_size
  have hvalid := h.isValidBlock hsize
  have hpage : ¬ b.address < pageSize32 := fun hlt =>
    Nat.not_lt.mpr h.pageSize_le (UInt32.lt_iff_toNat_lt.mp hlt)
  rw [parseBlocksFrom, dif_pos (by omega)]
  dsimp only
  rw [haddress, hvalid, if_neg (by decide), hsize]
  by_cases hempty : b.entries = []
  · have hnone : b.size = FixupBlock.headerSize := by
      rw [FixupBlock.size, hempty]
      rfl
    rw [dif_pos hnone.le, if_pos hempty, hnone]
  · have hsome : 0 < b.entries.length := List.length_pos_iff.mpr hempty
    have hlarge : ¬ b.size ≤ FixupBlock.headerSize := by
      rw [FixupBlock.size]
      omega
    have hmin : min b.size ((front ++ (b.encoded ++ back)).size - front.size) = b.size := by
      omega
    have hcount : (b.size - FixupBlock.headerSize) / 2 = b.entries.length := by
      rw [FixupBlock.size]
      omega
    rw [dif_neg hlarge, if_neg hpage, hmin, hcount, hentries, if_neg hempty]

/-- **Blocks that are encoded are read back**, behind any front, but for those without entries. -/
theorem parseBlocksFrom_encodedBlocks (h : ∀ b ∈ blocks, image.Admits b) (front : ByteArray)
    (acc : Array FixupBlock) :
    image.parseBlocksFrom (front ++ encodedBlocks blocks) front.size acc =
      (acc ++ (withEntries blocks).toArray, true) := by
  induction blocks generalizing front acc with
  | nil =>
      have hend : ¬ front.size + FixupBlock.headerSize ≤ (front ++ encodedBlocks []).size := by
        rw [ByteArray.size_append, encodedBlocks, ByteArray.size_empty, FixupBlock.headerSize]
        omega
      rw [parseBlocksFrom, dif_neg hend]
      simp [withEntries]
  | cons b rest ih =>
      rw [List.forall_mem_cons] at h
      have hstart : (front ++ b.encoded).size = front.size + b.size := by
        rw [ByteArray.size_append, b.size_encoded]
      rw [encodedBlocks, parseBlocksFrom_front h.1, ← hstart, ← ByteArray.append_assoc, ih h.2]
      by_cases hempty : b.entries = []
      · simp [withEntries, hempty]
      · simp [withEntries, hempty]

/-- The blocks of a directory that encodes blocks, which is well formed up to its end. -/
lemma parseBlocks_encodedBlocks (h : ∀ b ∈ blocks, image.Admits b) :
    image.parseBlocks (encodedBlocks blocks) = (withEntries blocks, true) := by
  have hread := parseBlocksFrom_encodedBlocks h .empty #[]
  rw [ByteArray.empty_append, ByteArray.size_empty] at hread
  rw [parseBlocks, hread]
  simp

end Image

/-! ### Carrying blocks out -/

namespace Memory

/-- Carrying out blocks in order: with success if all of them succeed, and else up to and with the
first one that fails. -/
inductive CarriesOut (difference : UInt64) :
    Memory → List FixupBlock → Memory × Bool → Prop
  | done (m : Memory) : CarriesOut difference m [] (m, true)
  | fails {m m' : Memory} {b : FixupBlock} {rest : List FixupBlock}
      (h : m.applyFixups difference b.address b.entries = (m', false)) :
      CarriesOut difference m (b :: rest) (m', false)
  | next {m m' : Memory} {b : FixupBlock} {rest : List FixupBlock} {result : Memory × Bool}
      (h : m.applyFixups difference b.address b.entries = (m', true))
      (hrest : CarriesOut difference m' rest result) :
      CarriesOut difference m (b :: rest) result

variable {m : Memory} {difference : UInt64} {blocks : List FixupBlock}

/-- What comes of blocks is what applying them gives. -/
lemma carriesOut_iff {result : Memory × Bool} :
    CarriesOut difference m blocks result ↔ m.applyBlocks difference blocks = result := by
  constructor
  · intro h
    induction h with
    | done => rfl
    | fails h => rw [applyBlocks, h]
    | next h _ ih =>
        rw [applyBlocks, h]
        exact ih
  · rintro rfl
    fun_induction applyBlocks m difference blocks with
    | case1 m => exact .done m
    | case2 m b rest m' heq ih => exact .next heq ih
    | case3 m b rest m' heq => exact .fails heq

/-- Blocks without entries have nothing to apply. -/
lemma applyBlocks_withEntries (m : Memory) (difference : UInt64) (blocks : List FixupBlock) :
    m.applyBlocks difference (Image.withEntries blocks) = m.applyBlocks difference blocks := by
  induction blocks generalizing m with
  | nil => rfl
  | cons b rest ih =>
      by_cases hempty : b.entries = []
      · have hskip : Image.withEntries (b :: rest) = Image.withEntries rest := by
          simp [Image.withEntries, hempty]
        rw [hskip, ih, applyBlocks, hempty, applyFixups]
      · have hkeep : Image.withEntries (b :: rest) = b :: Image.withEntries rest := by
          simp [Image.withEntries, hempty]
        rw [hkeep, applyBlocks, applyBlocks]
        cases m.applyFixups difference b.address b.entries with
        | mk m' applied =>
            cases applied with
            | true => exact ih m'
            | false => rfl

end Memory

namespace Image

open Memory

variable {image : Image} {m : Memory} {blocks : List FixupBlock} {d : Directory}

/-- **What a directory does that encodes blocks.** Let the bytes that are read of a directory be
those of blocks, each for a page behind the first one and within the size of image, and let the size
of the directory be within bounds. Then the blocks are read back, but for those without entries, and
the directory does what all of the blocks do: they are carried out in order, up to and with the
first one that fails, and the directory succeeds exactly if none does. -/
theorem applyDirectory_encodedBlocks (difference : UInt64)
    (hblocks : ∀ b ∈ blocks, image.Admits b)
    (hread : m.read d.rva.toNat d.size.toNat = encodedBlocks blocks)
    (hmin : FixupBlock.headerSize ≤ d.size.toNat) (hmax : d.size.toNat ≤ maxRelocationSize) :
    image.parseBlocks (m.read d.rva.toNat d.size.toNat) =
        (withEntries blocks, true) ∧
      ∀ result, image.applyDirectory m difference d = result ↔
        CarriesOut difference m blocks result := by
  have hparsed := parseBlocks_encodedBlocks hblocks
  rw [← hread] at hparsed
  refine ⟨hparsed, fun result => ?_⟩
  have happly : image.applyDirectory m difference d = m.applyBlocks difference blocks := by
    rw [applyDirectory, if_neg (by omega), hparsed]
    dsimp only
    rw [applyBlocks_withEntries, Bool.and_true]
  rw [happly, carriesOut_iff]

/-- A directory of three blocks: one with an entry that fills it up, one without entries, and one
with an odd number of entries. -/
def threeBlocks : List FixupBlock :=
  [⟨0x1000, [0x3010, 0]⟩, ⟨0x2000, []⟩, ⟨0x1000, [0x3020]⟩]

def threeBlocksFile : ByteArray :=
  movableFile 0 ⟨312, 30⟩
    [0, 0x10, 0, 0, 12, 0, 0, 0, 0x10, 0x30, 0, 0,
     0, 0x20, 0, 0, 8, 0, 0, 0,
     0, 0x10, 0, 0, 10, 0, 0, 0, 0x20, 0x30]

/-- The file holds the directory, and all of its blocks are carried out. -/
theorem applyDirectory_threeBlocksFile :
    let image := (loadFile threeBlocksFile).1
    image.isMapped = true ∧
      image.memory.read 312 30 = encodedBlocks threeBlocks ∧
      image.parseBlocks (image.memory.read 312 30) =
        ([⟨0x1000, [0x3010, 0]⟩, ⟨0x1000, [0x3020]⟩], true) ∧
      CarriesOut 0x10000 image.memory threeBlocks
        (image.applyDirectory image.memory 0x10000 ⟨312, 30⟩) := by
  intro image
  have hmovable : Movable threeBlocksFile ⟨312, 30⟩ := by decide +kernel
  have hfile : image.isMapped = true ∧ image.optional.sizeOfImage = 0x3000 ∧
      window threeBlocksFile 312 30 = encodedBlocks threeBlocks := by
    decide +kernel
  have hfront := hmovable.front
  have hread : image.memory.read 312 30 = encodedBlocks threeBlocks :=
    (hfront.beginsWith.read hfront.wellFormed hfront.directoryEnd_le).trans hfile.2.2
  have hadmits : ∀ b ∈ threeBlocks, image.Admits b := by
    have hends : ∀ b ∈ threeBlocks,
        pageSize ≤ b.address.toNat ∧ b.address.toNat + b.size ≤ (0x3000 : UInt32).toNat := by
      decide
    rw [← hfile.2.1] at hends
    exact fun b hb => ⟨(hends b hb).1, (hends b hb).2⟩
  have hdone := applyDirectory_encodedBlocks (d := ⟨312, 30⟩) 0x10000 hadmits hread (by decide)
    (by decide)
  exact ⟨hfile.1, hread, hdone.1, (hdone.2 _).mp rfl⟩

end Image

end PeImage
