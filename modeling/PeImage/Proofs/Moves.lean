/-
What a move of an image does.

A move stores the new base, reads the directory of base relocations, and carries out the fixups that
it spells. It succeeds where the image may be moved and the directory is well formed; and where the
front of the memory is known up to the end of both the stored base and the directory, the bytes
there say which fixups are carried out.

* `Image.fixups`: the fixups of an image;
* `Image.Accepts`: what makes a move succeed, `Image.accepts_of_relocate`: nothing else does, and
  `Image.Accepts.relocate_eq`: what a move does that succeeds;
* `Image.Front`: an image to move with a known front, and `Image.Front.relocate`: a move leaves such
  an image with the new base in the front and the fixups carried out behind it;
* `Image.movableFile`: files to try it on.
-/
import PeImage.Proofs.FlatMapping
import PeImage.Proofs.FlatMemory
import PeImage.Proofs.StoredBase

namespace PeImage

/-- The addresses of a directory. -/
def Directory.stretch (d : Directory) : Set ℕ :=
  Set.Ico d.rva.toNat (d.rva.toNat + d.size.toNat)

lemma Fixup.stretch_subset_Ici {f : Fixup} {n : ℕ} (h : n ≤ (f.kind.start f.target).toNat) :
    f.stretch ⊆ Set.Ici n := fun _ hr => h.trans hr.1

namespace Image

open Memory

variable {image : Image} {base : UInt64} {d : Directory} {m m' : Memory}

/-! ### What a move reads -/

/-- The fixups of an image: those that its directory of base relocations spells. -/
def fixups (image : Image) : List Fixup :=
  match image.relocationDirectory? with
  | some d => (image.directoryFixups image.memory d).1
  | none => []

/-- The addresses of the directory of base relocations. -/
def directoryStretch (image : Image) : Set ℕ :=
  match image.relocationDirectory? with
  | some d => d.stretch
  | none => ∅

/-- The blocks of a directory depend on the size of image and on nothing else of the headers. -/
lemma parseBlocksFrom_congr {image' : Image}
    (h : image'.optional.sizeOfImage = image.optional.sizeOfImage) (directory : ByteArray)
    (cursor : ℕ) (acc : Array FixupBlock) :
    image'.parseBlocksFrom directory cursor acc = image.parseBlocksFrom directory cursor acc := by
  have hblock (a n : UInt32) : image'.isValidBlock a n = image.isValidBlock a n := by
    rw [isValidBlock, isValidBlock, h]
  fun_induction parseBlocksFrom image directory cursor acc with
  | case1 cursor acc hc address declared hvalid =>
      rw [parseBlocksFrom, dif_pos hc]
      dsimp only
      rw [hblock, if_pos hvalid]
  | case2 cursor acc hc address declared hvalid hsmall ih =>
      rw [parseBlocksFrom, dif_pos hc]
      dsimp only
      rw [hblock, if_neg hvalid, dif_pos hsmall, ih]
  | case3 cursor acc hc address declared hvalid hsmall hfirst ih =>
      rw [parseBlocksFrom, dif_pos hc]
      dsimp only
      rw [hblock, if_neg hvalid, dif_neg hsmall, if_pos hfirst, ih]
  | case4 cursor acc hc address declared hvalid hsmall hfirst size entries ih =>
      rw [parseBlocksFrom, dif_pos hc]
      dsimp only
      rw [hblock, if_neg hvalid, dif_neg hsmall, if_neg hfirst]
      exact ih
  | case5 cursor acc hc => rw [parseBlocksFrom, dif_neg hc]

/-- A moved image reads the same bytes in the same way. -/
lemma spelledFixups_rebased (image : Image) (base : UInt64) (pages : Array Page)
    (directory : ByteArray) :
    (image.rebased base pages).spelledFixups directory = image.spelledFixups directory := by
  have hsize : (image.rebased base pages).optional.sizeOfImage = image.optional.sizeOfImage := rfl
  rw [spelledFixups, spelledFixups, parseBlocks, parseBlocks, parseBlocksFrom_congr hsize]

/-- It spells the same fixups in memories that agree on the directory. -/
lemma directoryFixups_rebased (image : Image) (base : UInt64) (pages : Array Page)
    (hm : m.WellFormed) (hm' : m'.WellFormed) (h : Agree d.stretch m m') :
    (image.rebased base pages).directoryFixups m d = image.directoryFixups m' d := by
  have hread : m.read d.rva.toNat d.size.toNat = m'.read d.rva.toNat d.size.toNat :=
    h.read hm hm' subset_rfl
  rw [directoryFixups, directoryFixups, spelledFixups_rebased, hread]

/-! ### When a move succeeds -/

/-- What it takes for a move to succeed, but for the base: the image is mapped and may be moved, and
its directory is well formed in the given memory. -/
structure Accepts (image : Image) (m : Memory) (d : Directory) : Prop where
  pageCount : image.pageCount ≠ 0
  isRelocatable : image.isRelocatable 0 = true
  directory : image.relocationDirectory? = some d
  size : ¬ (d.size.toNat < FixupBlock.headerSize ∨ d.size.toNat > maxRelocationSize)
  known : (image.directoryFixups m d).2 = true

/-- **What a move does that succeeds**: it carries out the fixups of the directory, after the base
is stored. -/
lemma Accepts.relocate_eq (ha : image.Accepts (image.storeBase base) d)
    (hne : base ≠ image.optional.imageBase) (hf : image.FitsBase base) :
    image.relocate base =
      (image.rebased base ((image.storeBase base).move (base - image.optional.imageBase)
        (image.directoryFixups (image.storeBase base) d).1).pages, true) := by
  have hr := (isRelocatable_iff base).mpr ⟨ha.isRelocatable, hf⟩
  have hyes : ¬ (image.pageCount = 0 ∨ image.isRelocatable base = false) := by
    simp [ha.pageCount, hr]
  rw [Image.relocate_eq, if_neg hne, if_neg hyes, ha.directory]
  dsimp only
  rw [applyDirectory_eq, if_neg ha.size, ha.known]
  rfl

/-- **Nothing else succeeds**, but a move to the base that the image has. -/
lemma accepts_of_relocate (hne : base ≠ image.optional.imageBase)
    (h : (image.relocate base).2 = true) : ∃ d, image.Accepts (image.storeBase base) d := by
  rw [relocate_eq, if_neg hne] at h
  split_ifs at h with hno
  rw [not_or, Bool.not_eq_false] at hno
  cases hd : image.relocationDirectory? with
  | none =>
      rw [hd] at h
      cases h
  | some d =>
      rw [hd] at h
      dsimp only at h
      rw [applyDirectory_eq] at h
      split_ifs at h with hsize
      · cases h
      · exact ⟨d, hno.1, ((isRelocatable_iff base).mp hno.2).1, hd, hsize, h⟩

/-! ### What a move leaves -/

/-- The pages of a memory of the same size, in the moved image, are that memory. -/
lemma memory_rebased (image : Image) (base : UInt64) (h : m.limit = image.memory.limit) :
    (image.rebased base m.pages).memory = m := by
  cases m with
  | mk pages limit =>
      cases h
      rfl

lemma wellFormed_storeBase (hm : image.memory.WellFormed) (base : UInt64) :
    (image.storeBase base).WellFormed := hm.write _ _

/-! ### A known front -/

variable {b : ByteArray}

/-- The image may be moved, and its memory begins with a buffer in which both the stored base and
the directory lie. -/
structure Front (image : Image) (d : Directory) (b : ByteArray) : Prop where
  pageCount : image.pageCount ≠ 0
  isRelocatable : image.isRelocatable 0 = true
  directory : image.relocationDirectory? = some d
  size : ¬ (d.size.toNat < FixupBlock.headerSize ∨ d.size.toNat > maxRelocationSize)
  wellFormed : image.memory.WellFormed
  beginsWith : image.memory.BeginsWith b
  baseEnd_le : image.baseAddress.toNat + image.layout.addressSize ≤ b.size
  directoryEnd_le : d.rva.toNat + d.size.toNat ≤ b.size

/-- The front with another base stored in it. -/
def frontWith (image : Image) (base : UInt64) (b : ByteArray) : ByteArray :=
  overwrite b image.baseAddress.toNat (encode image.layout.addressSize base.toNat)

section

variable (hb : image.baseAddress.toNat + image.layout.addressSize ≤ b.size)

include hb

lemma size_frontWith (base : UInt64) : (image.frontWith base b).size = b.size := by
  refine size_overwrite ?_
  rwa [size_encode]

lemma byteAt_frontWith (base : UInt64) (i : ℕ) :
    byteAt (image.frontWith base b) i =
      if image.baseAddress.toNat ≤ i ∧
        i < image.baseAddress.toNat + image.layout.addressSize then
        byteAt (encode image.layout.addressSize base.toNat) (i - image.baseAddress.toNat)
      else byteAt b i := by
  rw [frontWith, byteAt_overwrite (by rwa [size_encode]), size_encode]

/-- The base is read back from where it was stored. -/
lemma window_frontWith (base : UInt64) :
    window (image.frontWith base b) image.baseAddress.toNat image.layout.addressSize =
      encode image.layout.addressSize base.toNat := by
  refine eq_of_byteAt_eq ?_ fun i hi => ?_
  · rw [size_window, size_frontWith hb, size_encode]
    omega
  · have hlt : i < image.layout.addressSize := by
      rw [size_window] at hi
      omega
    rw [byteAt_window, if_pos hlt, byteAt_frontWith hb, if_pos (by omega), Nat.add_sub_cancel_left]

/-- Of two bases stored one after the other, the second one stays. -/
lemma frontWith_frontWith (base base' : UInt64) :
    image.frontWith base' (image.frontWith base b) = image.frontWith base' b := by
  have hsize := size_frontWith hb
  have hb' : image.baseAddress.toNat + image.layout.addressSize ≤
      (image.frontWith base b).size := by
    rwa [hsize]
  refine eq_of_byteAt_eq (by rw [size_frontWith hb', hsize, hsize]) fun i _ => ?_
  rw [byteAt_frontWith hb', byteAt_frontWith hb, byteAt_frontWith hb]
  split_ifs <;> rfl

/-- Storing the base that is stored changes nothing. -/
lemma frontWith_eq_self (hstored : window b image.baseAddress.toNat image.layout.addressSize =
    encode image.layout.addressSize base.toNat) : image.frontWith base b = b := by
  refine eq_of_byteAt_eq (size_frontWith hb base) fun i _ => ?_
  rw [byteAt_frontWith hb, ← hstored]
  split_ifs with hin
  · rw [byteAt_window, if_pos (by omega), Nat.add_sub_cancel' hin.1]
  · rfl

end

/-- The fixups that a front spells in the directory. -/
def frontFixups (image : Image) (d : Directory) (b : ByteArray) : List Fixup × Bool :=
  image.spelledFixups (window b d.rva.toNat d.size.toNat)

namespace Front

variable (h : image.Front d b)

include h

/-- The fixups of the image are those that its front spells. -/
lemma directoryFixups_eq : image.directoryFixups image.memory d = image.frontFixups d b := by
  rw [directoryFixups, h.beginsWith.read h.wellFormed h.directoryEnd_le, frontFixups]

lemma accepts (hknown : (image.frontFixups d b).2 = true) : image.Accepts image.memory d where
  pageCount := h.pageCount
  isRelocatable := h.isRelocatable
  directory := h.directory
  size := h.size
  known := by rwa [h.directoryFixups_eq]

lemma size_frontWith (base : UInt64) : (image.frontWith base b).size = b.size :=
  Image.size_frontWith h.baseEnd_le base

/-- Storing a base changes the front and nothing else. -/
lemma storeBase (base : UInt64) :
    (image.storeBase base).BeginsWith (image.frontWith base b) ∧
      Agree (Set.Ici b.size) (image.storeBase base) image.memory := by
  have hend := h.baseEnd_le
  rw [← size_encode image.layout.addressSize base.toNat] at hend
  refine ⟨h.beginsWith.write h.wellFormed hend, agree_write h.wellFormed ?_⟩
  refine Set.disjoint_left.mpr fun r hr hin => ?_
  rw [Set.mem_Ici] at hr
  rw [Set.mem_Ico] at hin
  omega

lemma directoryFixups_storeBase (base : UInt64) :
    image.directoryFixups (image.storeBase base) d =
      image.frontFixups d (image.frontWith base b) := by
  have hend := h.directoryEnd_le
  rw [← h.size_frontWith base] at hend
  rw [directoryFixups, (h.storeBase base).1.read (wellFormed_storeBase h.wellFormed base) hend,
    frontFixups]

/-- **A move with a known front**, in which the stored base spells fixups behind the front: it
succeeds, and leaves an image with a known front, and with the fixups carried out. -/
theorem relocate {fixups : List Fixup} (hne : base ≠ image.optional.imageBase)
    (hf : image.FitsBase base)
    (hfixups : image.frontFixups d (image.frontWith base b) = (fixups, true))
    (hbehind : ∀ f ∈ fixups, b.size ≤ (f.kind.start f.target).toNat) :
    ∃ pages, image.relocate base = (image.rebased base pages, true) ∧
      (image.rebased base pages).Front d (image.frontWith base b) ∧
      Agree (Set.Ici b.size) (image.rebased base pages).memory
        (image.memory.move (base - image.optional.imageBase) fixups) := by
  obtain ⟨hbegins, hagree⟩ := h.storeBase base
  have hsubset : ∀ f ∈ fixups, f.stretch ⊆ Set.Ici b.size := fun f hf =>
    Fixup.stretch_subset_Ici (hbehind f hf)
  have hm := wellFormed_storeBase h.wellFormed base
  have hspelled := (h.directoryFixups_storeBase base).trans hfixups
  have ha : image.Accepts (image.storeBase base) d :=
    ⟨h.pageCount, h.isRelocatable, h.directory, h.size, congrArg Prod.snd hspelled⟩
  have hmove := ha.relocate_eq hne hf
  rw [hspelled] at hmove
  set moved := (image.storeBase base).move (base - image.optional.imageBase) fixups with hmoved
  have hmemory : (image.rebased base moved.pages).memory = moved :=
    memory_rebased image base (limit_move (image.storeBase base) _ _)
  have hfront : Agree (Set.Iio (image.frontWith base b).size) moved (image.storeBase base) := by
    refine agree_move hm fun f hin => ?_
    rw [h.size_frontWith]
    exact Set.disjoint_left.mpr fun r hr hr' => Nat.not_lt.mpr (hsubset f hin hr') hr
  refine ⟨moved.pages, hmove, ?_, ?_⟩
  · constructor
    case pageCount =>
      intro h0
      have hend : pageSize * moved.pages.size = pageSize * image.pageCount :=
        hfront.tableEnd.trans (tableEnd_write image.memory _ _)
      have h0' : moved.pages.size = 0 := h0
      rw [h0', Nat.mul_zero] at hend
      exact h.pageCount ((Nat.mul_eq_zero.mp hend.symm).resolve_left pageSize_pos.ne')
    case isRelocatable => exact h.isRelocatable
    case directory => exact h.directory
    case size => exact h.size
    case wellFormed => rw [hmemory]; exact hm.move _ _
    case beginsWith => rw [hmemory]; exact hbegins.of_agree hfront
    case baseEnd_le => rw [h.size_frontWith]; exact h.baseEnd_le
    case directoryEnd_le => rw [h.size_frontWith]; exact h.directoryEnd_le
  · rw [hmemory]
    exact hagree.move hm h.wellFormed hsubset _

/-- **Two moves with a known front**, each with the fixups that its base spells. -/
theorem relocate_twice {base' : UInt64} {fixups fixups' : List Fixup}
    (hne : base ≠ image.optional.imageBase) (hne' : base' ≠ base)
    (hf : image.FitsBase base) (hf' : image.FitsBase base')
    (hfixups : image.frontFixups d (image.frontWith base b) = (fixups, true))
    (hfixups' : image.frontFixups d (image.frontWith base' (image.frontWith base b)) =
      (fixups', true))
    (hbehind : ∀ f ∈ fixups, b.size ≤ (f.kind.start f.target).toNat)
    (hbehind' : ∀ f ∈ fixups', b.size ≤ (f.kind.start f.target).toNat) :
    (image.relocate base).2 = true ∧ ((image.relocate base).1.relocate base').2 = true ∧
      Agree (Set.Ici b.size) ((image.relocate base).1.relocate base').1.memory
        ((image.memory.move (base - image.optional.imageBase) fixups).move (base' - base)
          fixups') := by
  obtain ⟨pages, hmove, hfront, hagree⟩ := h.relocate hne hf hfixups hbehind
  have hspelled : (image.rebased base pages).frontFixups d
      ((image.rebased base pages).frontWith base' (image.frontWith base b)) = (fixups', true) :=
    (spelledFixups_rebased image base pages _).trans hfixups'
  have hsize := h.size_frontWith base
  rw [← hsize] at hbehind'
  obtain ⟨pages', hmove', -, hagree'⟩ := hfront.relocate hne' hf' hspelled hbehind'
  rw [hsize] at hbehind' hagree'
  rw [hmove, hmove']
  refine ⟨rfl, rfl, hagree'.trans ?_⟩
  exact hagree.move hfront.wellFormed (h.wellFormed.move _ _)
    (fun f hf => Fixup.stretch_subset_Ici (hbehind' f hf)) _

/-- Fixups behind the front keep apart from the directory and the stored base. -/
lemma disjoint {f : Fixup} (hbehind : b.size ≤ (f.kind.start f.target).toNat) :
    Disjoint f.stretch image.directoryStretch ∧ Disjoint f.stretch image.baseStretch := by
  have hbase := h.baseEnd_le
  have hdirectory := h.directoryEnd_le
  have hfront {a n : ℕ} (hle : a + n ≤ b.size) : Disjoint f.stretch (Set.Ico a (a + n)) := by
    refine Set.disjoint_left.mpr fun r hr hin => ?_
    have hge := Set.mem_Ici.mp (Fixup.stretch_subset_Ici hbehind hr)
    rw [Set.mem_Ico] at hin
    omega
  rw [directoryStretch, h.directory]
  exact ⟨hfront hdirectory, hfront hbase⟩

end Front

/-! ### Files to move -/

lemma reachable_loadFile (file : ByteArray) : Reachable (loadFile file).1 :=
  ⟨.ofVersion .generic, [.load .contents file], rfl⟩

/-- A file that the lenient rules load as a flat image which may be moved, and in which both the
stored base and the directory lie. -/
def Movable (file : ByteArray) (d : Directory) : Prop :=
  (loadFile file).2 = .ok () ∧ (loadFile file).1.pageCount ≠ 0 ∧
    (loadFile file).1.isFlat = true ∧ (loadFile file).1.isRelocatable 0 = true ∧
    (loadFile file).1.relocationDirectory? = some d ∧
    ¬ (d.size.toNat < FixupBlock.headerSize ∨ d.size.toNat > maxRelocationSize) ∧
    file.size ≤ min (loadFile file).1.alignedSize.toNat (loadFile file).1.flatBytes ∧
    (loadFile file).1.baseAddress.toNat + (loadFile file).1.layout.addressSize ≤ file.size ∧
    d.rva.toNat + d.size.toNat ≤ file.size

instance (file : ByteArray) (d : Directory) : Decidable (Movable file d) :=
  inferInstanceAs (Decidable (_ ∧ _))

namespace Movable

variable {file : ByteArray} (h : Movable file d)

include h

/-- The memory of the image is the file. -/
lemma showsFile : (loadFile file).1.ShowsFile file := by
  obtain ⟨hload, hpages, hflat, -⟩ := h
  obtain ⟨F, hcapture, hshows⟩ := showsFile_of_load (load_empty_eq hload) hpages hflat
  have heq : F = file := capture_of_lenient (by decide) (Prod.ext rfl hcapture)
  rwa [heq] at hshows

lemma front : (loadFile file).1.Front d file := by
  have hshows := h.showsFile
  obtain ⟨-, hpages, -, hmove, hd, hsize, hfile, hbase, hend⟩ := h
  exact {
    pageCount := hpages
    isRelocatable := hmove
    directory := hd
    size := hsize
    wellFormed := (reachable_loadFile file).allWhole
    beginsWith := hshows.beginsWith hfile
    baseEnd_le := hbase
    directoryEnd_le := hend }

end Movable

/-- A flat file with 32-bit headers and all directories, of which the given one is that of base
relocations. What follows the headers is `data`. -/
def movableFile (systemMajor : UInt16) (d : Directory) (data : List UInt8) : ByteArray :=
  let dos : DosHeader := { magic := DosHeader.signature, ntOffset := 64 }
  let file : FileHeader := { machine := 0x14C, optionalSize := 224, characteristics := 2 }
  let optional : List Field :=
    [.u16 Layout.narrow.magic, ⟨26, 0⟩, .u32 0x400000, .u32 0x10, .u32 0x10, .u16 systemMajor,
     ⟨14, 0⟩, .u32 0x3000, .u32 0x200, ⟨28, 0⟩, .u32 16, ⟨40, 0⟩, .u32 d.rva, .u32 d.size, ⟨80, 0⟩]
  let fields := dos.fields ++ .u32 ntSignatureValue :: file.fields ++ optional
  fields.foldl (fun b f => b ++ encode f.width f.value) .empty ++ data.toByteArray

end Image

end PeImage
