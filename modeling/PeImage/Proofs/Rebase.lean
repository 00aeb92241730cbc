/-
Moving an image twice.

When fixups, directory and stored base keep apart from each other, a second move reads the same
directory as the first one, and the two moves add up. When the stored base lies within the
directory, storing another one can spell other fixups, and moving there and back does not restore
the image.

* `Image.KeepsApart`: fixups that do not get in each other's way, nor in that of the directory and
  the stored base;
* `Image.Accepts.exists_rebased`: what a move then does outside of the stored base, and
  `Image.Accepts.rebased`: the moved image spells the same fixups;
* `Image.relocate_relocate`: moving twice is moving once;
* `Image.not_restored_overlapFile`: a file in which the stored base lies within the directory.
-/
import PeImage.Proofs.FixupValues
import PeImage.Proofs.Moves

namespace PeImage

namespace Image

open Memory

variable {image : Image} {base : UInt64} {d : Directory}

/-! ### Keeping apart -/

/-- The fixups of an image keep apart: no kind of which something is always lost, and no fixup that
gets in the way of another one, of the directory or of the stored base, or that mixes pages with and
without access. -/
structure KeepsApart (image : Image) : Prop where
  kinds : ∀ f ∈ image.fixups, f.kind ≠ .highAdjusted
  pairwise : image.fixups.Pairwise fun f g => Disjoint f.stretch g.stretch
  directory : ∀ f ∈ image.fixups, Disjoint f.stretch image.directoryStretch
  base : ∀ f ∈ image.fixups, Disjoint f.stretch image.baseStretch
  uniform : ∀ f ∈ image.fixups, image.memory.Uniform f.stretch

lemma fixups_eq (hd : image.relocationDirectory? = some d) :
    image.fixups = (image.directoryFixups image.memory d).1 := by
  rw [fixups, hd]

lemma directoryStretch_eq (hd : image.relocationDirectory? = some d) :
    image.directoryStretch = d.stretch := by
  rw [directoryStretch, hd]

/-- Fixups behind the front keep apart when they do from each other. -/
lemma Front.keepsApart {b : ByteArray} {fixups : List Fixup} {known : Bool} (h : image.Front d b)
    (hfixups : image.frontFixups d b = (fixups, known))
    (hkinds : ∀ f ∈ fixups, f.kind ≠ .highAdjusted)
    (hp : fixups.Pairwise fun f g => Disjoint f.stretch g.stretch)
    (hbehind : ∀ f ∈ fixups, b.size ≤ (f.kind.start f.target).toNat)
    (hu : ∀ s, image.memory.Uniform s) : image.KeepsApart := by
  have heq : image.fixups = fixups := by
    rw [fixups_eq h.directory, h.directoryFixups_eq, hfixups]
  have hdisjoint (f : Fixup) (hf : f ∈ fixups) := h.disjoint (hbehind f hf)
  rw [← heq] at hkinds hp hdisjoint
  exact ⟨hkinds, hp, fun f hf => (hdisjoint f hf).1, fun f hf => (hdisjoint f hf).2,
    fun f _ => hu f.stretch⟩

/-- Storing the base changes nothing else. -/
lemma agree_storeBase (hm : image.memory.WellFormed) (base : UInt64) :
    Agree image.baseStretchᶜ (image.storeBase base) image.memory := by
  refine agree_write hm ?_
  rw [size_encode]
  exact disjoint_compl_left

/-- Nothing is lost of a difference of zero. -/
lemma lossless_zero {kind : FixupKind} (h : kind ≠ .highAdjusted) : kind.Lossless 0 := by
  cases kind with
  | high | mipsJump => exact Nat.dvd_zero _
  | highAdjusted => exact absurd rfl h
  | absolute | low | highLow | ia64Bundle | dir64 => trivial

section

variable (hm : image.memory.WellFormed) (hs : Disjoint image.baseStretch image.directoryStretch)

include hm hs

/-- Storing a base that keeps apart from the directory changes none of the fixups. -/
lemma directoryFixups_storeBase (hd : image.relocationDirectory? = some d) (base : UInt64) :
    image.directoryFixups (image.storeBase base) d = image.directoryFixups image.memory d := by
  have hc := agree_storeBase hm base
  rw [directoryStretch_eq hd] at hs
  have hread := (hc.mono hs.symm.subset_compl_right).read (wellFormed_storeBase hm base) hm
    subset_rfl
  rw [directoryFixups, directoryFixups, hread]

/-- What makes a move succeed does not depend on the base that is stored. -/
lemma accepts_storeBase_iff (base : UInt64) :
    image.Accepts (image.storeBase base) d ↔ image.Accepts image.memory d := by
  constructor
  · rintro ⟨hp, hr, hd, hsize, hknown⟩
    rw [directoryFixups_storeBase hm hs hd] at hknown
    exact ⟨hp, hr, hd, hsize, hknown⟩
  · rintro ⟨hp, hr, hd, hsize, hknown⟩
    rw [← directoryFixups_storeBase hm hs hd base] at hknown
    exact ⟨hp, hr, hd, hsize, hknown⟩

/-- **What a move does outside of the stored base**: it carries out the fixups of the image. -/
theorem Accepts.exists_rebased (ha : image.Accepts image.memory d)
    (hkinds : ∀ f ∈ image.fixups, f.kind ≠ .highAdjusted)
    (hbase : ∀ f ∈ image.fixups, Disjoint f.stretch image.baseStretch)
    (hf : image.FitsBase base) :
    ∃ pages, image.relocate base = (image.rebased base pages, true) ∧
      Agree image.baseStretchᶜ (image.rebased base pages).memory
        (image.memory.move (base - image.optional.imageBase) image.fixups) := by
  by_cases hne : base = image.optional.imageBase
  · -- a move to the base that the image has is a move by nothing
    have hc := contents_of_pageCount ha.pageCount
    have hsame : image.rebased base image.pages = image := by
      rw [rebased, ← hc, hne]
    refine ⟨image.pages, ?_, ?_⟩
    · rw [hsame, hne, relocate_self]
    · rw [hsame, hne, UInt64.sub_self]
      exact (agree_move_zero hm fun f hf => lossless_zero (hkinds f hf)).symm.mono
        (Set.subset_univ _)
  · have hstored := (accepts_storeBase_iff hm hs base).mpr ha
    refine ⟨_, hstored.relocate_eq hne hf, ?_⟩
    rw [directoryFixups_storeBase hm hs ha.directory, ← fixups_eq ha.directory,
      memory_rebased image base (limit_move (image.storeBase base) _ _)]
    refine (agree_storeBase hm base).move (wellFormed_storeBase hm base) hm ?_ _
    exact fun f hf => (hbase f hf).subset_compl_right

/-- **The moved image spells the same fixups**, and accepts the next move. -/
theorem Accepts.rebased (ha : image.Accepts image.memory d)
    (hdir : ∀ f ∈ image.fixups, Disjoint f.stretch image.directoryStretch)
    {difference : UInt64} {pages : Array Page}
    (hm' : (image.rebased base pages).memory.WellFormed)
    (hmoved : Agree image.baseStretchᶜ (image.rebased base pages).memory
      (image.memory.move difference image.fixups)) :
    (image.rebased base pages).Accepts (image.rebased base pages).memory d ∧
      (image.rebased base pages).fixups = image.fixups := by
  rw [directoryStretch_eq ha.directory] at hdir hs
  -- neither the base nor the fixups touch the directory
  have hdirectory : Agree d.stretch (image.rebased base pages).memory image.memory :=
    (hmoved.mono hs.symm.subset_compl_right).trans (agree_move hm fun f hf => (hdir f hf).symm)
  have hsame := directoryFixups_rebased image base pages hm' hm hdirectory
  have hd : (image.rebased base pages).relocationDirectory? = some d := ha.directory
  constructor
  · refine ⟨?_, ha.isRelocatable, hd, ha.size, ?_⟩
    · -- the table keeps its size
      have hend := hdirectory.tableEnd
      have hcount : pageSize * (image.rebased base pages).pageCount = pageSize * image.pageCount :=
        hend
      rw [Nat.eq_of_mul_eq_mul_left pageSize_pos hcount]
      exact ha.pageCount
    · rw [hsame]
      exact ha.known
  · rw [fixups_eq hd, fixups_eq ha.directory, hsame]

end

/-- A directory behind the stored base keeps apart from it. -/
lemma disjoint_directoryStretch (hd : image.relocationDirectory? = some d)
    (hbehind : image.baseAddress.toNat + image.layout.addressSize ≤ d.rva.toNat) :
    Disjoint image.baseStretch image.directoryStretch := by
  rw [directoryStretch_eq hd, baseStretch, Directory.stretch, Set.Ico_disjoint_Ico]
  exact (min_le_left _ _).trans (hbehind.trans (le_max_right _ _))

/-- So a front spells the same fixups whichever base is stored in it. -/
lemma Front.frontFixups_frontWith {b : ByteArray} (h : image.Front d b)
    (hbehind : image.baseAddress.toNat + image.layout.addressSize ≤ d.rva.toNat) (base : UInt64) :
    image.frontFixups d (image.frontWith base b) = image.frontFixups d b := by
  have hs := disjoint_directoryStretch h.directory hbehind
  rw [← h.directoryFixups_storeBase base,
    Image.directoryFixups_storeBase h.wellFormed hs h.directory, h.directoryFixups_eq]

/-! ### Moving twice -/

/-- Bases that differ by whole granules lose nothing, and neither do kinds that move by all of the
difference. -/
lemma lossless_sub {kind : FixupKind} {b c : UInt64} (hk : kind ≠ .highAdjusted)
    (h : kind = .high ∨ kind = .mipsJump → b.toNat % 0x10000 = c.toNat % 0x10000) :
    kind.Lossless (b - c) := by
  have hdvd (h : b.toNat % 0x10000 = c.toNat % 0x10000) : 0x10000 ∣ (b - c).toNat := by
    have hb := b.toNat_lt
    have hc := c.toNat_lt
    rw [UInt64.toNat_sub]
    omega
  cases kind with
  | high => exact hdvd (h (.inl rfl))
  | mipsJump => exact hdvd (h (.inr rfl))
  | highAdjusted => exact absurd rfl hk
  | absolute | low | highLow | ia64Bundle | dir64 => trivial

/-- Two moves carry out the fixups of the image twice, which is what one move by the sum of the
differences does. -/
lemma agree_relocate_relocate (hm : image.memory.WellFormed) (ha : image.Accepts image.memory d)
    (hk : image.KeepsApart) (hs : Disjoint image.baseStretch image.directoryStretch)
    {b c : UInt64} (hb : image.FitsBase b) (hc : image.FitsBase c)
    (hgranular : ∀ f ∈ image.fixups, f.kind = .high ∨ f.kind = .mipsJump →
      b.toNat % 0x10000 = image.optional.imageBase.toNat % 0x10000 ∧
        c.toNat % 0x10000 = b.toNat % 0x10000) :
    (image.relocate b).2 = true ∧ ((image.relocate b).1.relocate c).2 = true ∧
      Agree image.baseStretchᶜ ((image.relocate b).1.relocate c).1.memory
        (image.relocate c).1.memory := by
  obtain ⟨pages, hmove, hmoved⟩ := ha.exists_rebased hm hs hk.kinds hk.base hb
  have hm' : (image.rebased b pages).memory.WellFormed := by
    have hwhole : AllWhole (image.relocate b).1.pages := allWhole_relocate hm b
    rwa [hmove] at hwhole
  have hc' : (image.rebased b pages).FitsBase c := hc
  obtain ⟨ha', hfixups⟩ := ha.rebased hm hs hk.directory hm' hmoved
  have hkinds := hk.kinds
  have hbase := hk.base
  rw [← hfixups] at hkinds hbase
  obtain ⟨pages₂, hmove₂, hmoved₂⟩ := ha'.exists_rebased hm' hs hkinds hbase hc'
  obtain ⟨pages₃, hmove₃, hmoved₃⟩ := ha.exists_rebased hm hs hk.kinds hk.base hc
  rw [hmove, hmove₂, hmove₃]
  refine ⟨rfl, rfl, ?_⟩
  rw [hfixups] at hmoved₂
  have hlossless : ∀ f ∈ image.fixups, f.kind.Lossless (b - image.optional.imageBase) ∧
      f.kind.Lossless (c - b) := fun f hf =>
    ⟨lossless_sub (hk.kinds f hf) fun hkind => (hgranular f hf hkind).1,
      lossless_sub (hk.kinds f hf) fun hkind => (hgranular f hf hkind).2⟩
  have hsum : b - image.optional.imageBase + (c - b) = c - image.optional.imageBase := by
    rw [UInt64.add_comm]
    exact sub_add_sub_cancel c b _
  have htwice := agree_move_move hm hlossless hk.pairwise hk.uniform
  rw [hsum] at htwice
  -- the second move acts on what the first one left as on the fixups carried out once
  have hsecond := hmoved.move hm' (hm.move _ _)
    (fun f hf => (hk.base f hf).subset_compl_right) (c - b)
  exact (hmoved₂.trans hsecond).trans ((htwice.mono (Set.subset_univ _)).trans hmoved₃.symm)

/-- **Moving twice is moving once.** Let a mapped image accept a move to some base, let its fixups
keep apart, and let the directory keep apart from the stored base. Then it accepts moves to all
bases that its headers can store, one after the other, and what two of them leave outside of the
stored base is what the second one alone leaves. Moving there and back restores the image. -/
theorem relocate_relocate (h : Reachable image) (hne : base ≠ image.optional.imageBase)
    (haccept : (image.relocate base).2 = true) (hk : image.KeepsApart)
    (hs : Disjoint image.baseStretch image.directoryStretch) {b c : UInt64}
    (hb : image.FitsBase b) (hc : image.FitsBase c)
    (hgranular : (∃ f ∈ image.fixups, f.kind = .high ∨ f.kind = .mipsJump) →
      b.toNat % 0x10000 = image.optional.imageBase.toNat % 0x10000 ∧
        c.toNat % 0x10000 = image.optional.imageBase.toNat % 0x10000) :
    (image.relocate b).2 = true ∧
      ((image.relocate b).1.relocate c).2 = true ∧
      (∀ r ∉ image.baseStretch, ((image.relocate b).1.relocate c).1.memory.flat r =
        (image.relocate c).1.memory.flat r) ∧
      ((image.relocate b).1.relocate image.optional.imageBase).2 = true ∧
      ∀ r ∉ image.baseStretch,
        ((image.relocate b).1.relocate image.optional.imageBase).1.memory.flat r =
          image.memory.flat r := by
  have hm : image.memory.WellFormed := h.allWhole
  obtain ⟨d, hstored⟩ := accepts_of_relocate hne haccept
  have ha := (accepts_storeBase_iff hm hs base).mp hstored
  obtain ⟨h₁, h₂, hagree⟩ := agree_relocate_relocate hm ha hk hs hb hc fun f hf hkind => by
    obtain ⟨hgb, hgc⟩ := hgranular ⟨f, hf, hkind⟩
    exact ⟨hgb, hgc.trans hgb.symm⟩
  obtain ⟨-, h₃, hback⟩ := agree_relocate_relocate hm ha hk hs hb h.fitsBase fun f hf hkind => by
    obtain ⟨hgb, -⟩ := hgranular ⟨f, hf, hkind⟩
    exact ⟨hgb, hgb.symm⟩
  rw [relocate_self] at hback
  exact ⟨h₁, h₂, hagree.flat, h₃, hback.flat⟩

/-- A block with a fixup of every kind but the adjusted upper half. -/
def kindsFile : ByteArray :=
  movableFile 0 ⟨312, 22⟩
    [0, 0x10, 0, 0, 22, 0, 0, 0,
     0, 0x30, 4, 0x20, 8, 0xA0, 0x10, 0x10, 0x20, 0x90, 0x30, 0x50, 0, 0]

def kindsImage : Image := (loadFile kindsFile).1

theorem relocate_relocate_kindsImage :
    (kindsImage.relocate 0x10000000).2 = true ∧
      ((kindsImage.relocate 0x10000000).1.relocate 0x20000000).2 = true ∧
      (∀ r ∉ kindsImage.baseStretch,
        ((kindsImage.relocate 0x10000000).1.relocate 0x20000000).1.memory.flat r =
          (kindsImage.relocate 0x20000000).1.memory.flat r) ∧
      ((kindsImage.relocate 0x10000000).1.relocate kindsImage.optional.imageBase).2 = true ∧
      ∀ r ∉ kindsImage.baseStretch,
        ((kindsImage.relocate 0x10000000).1.relocate
          kindsImage.optional.imageBase).1.memory.flat r = kindsImage.memory.flat r := by
  have hmovable : Movable kindsFile ⟨312, 22⟩ := by decide +kernel
  have hfixups : kindsImage.frontFixups ⟨312, 22⟩ kindsFile =
      ([⟨.highLow, 0x1000, 0⟩, ⟨.low, 0x1004, 0⟩, ⟨.dir64, 0x1008, 0⟩, ⟨.high, 0x1010, 0⟩,
        ⟨.ia64Bundle, 0x1020, 0⟩, ⟨.mipsJump, 0x1030, 0⟩, ⟨.absolute, 0x1000, 0⟩], true) := by
    decide +kernel
  have hheaders : kindsImage.optional.imageBase = 0x400000 ∧ kindsImage.baseAddress = 116 ∧
      kindsImage.layout = .narrow ∧ kindsFile.size = 334 := by
    decide +kernel
  obtain ⟨himageBase, haddress, hlayout, hsize⟩ := hheaders
  have hfront : kindsImage.Front ⟨312, 22⟩ kindsFile := hmovable.front
  have hshows : kindsImage.ShowsFile kindsFile := hmovable.showsFile
  have hk : kindsImage.KeepsApart := by
    refine hfront.keepsApart hfixups ?_ ?_ ?_ hshows.uniform
    · decide
    · simp only [Fixup.stretch, Set.Ico_disjoint_Ico]
      decide
    · rw [hsize]
      decide
  have hs : Disjoint kindsImage.baseStretch kindsImage.directoryStretch := by
    rw [directoryStretch_eq hfront.directory, baseStretch, Directory.stretch, haddress, hlayout,
      Set.Ico_disjoint_Ico]
    decide
  have hb : kindsImage.FitsBase 0x10000000 := fun _ => by decide
  have hc : kindsImage.FitsBase 0x20000000 := fun _ => by decide
  have ha := hfront.accepts (congrArg Prod.snd hfixups)
  obtain ⟨pages, hmove, -⟩ := ha.exists_rebased hfront.wellFormed hs hk.kinds hk.base hb
  have hreachable : Reachable kindsImage := reachable_loadFile kindsFile
  refine relocate_relocate hreachable ?_ (congrArg Prod.snd hmove) hk hs hb hc fun _ => ?_
  · rw [himageBase]
    decide
  · rw [himageBase]
    decide

/-- A fixup of 32 zero bits stores the difference, and a later one elsewhere leaves it there. -/
lemma flat_move_zeros {m : Memory} (hm : m.WellFormed) {target : UInt32} {f : Fixup}
    (hd : Disjoint (⟨.highLow, target, 0⟩ : Fixup).stretch f.stretch)
    (hread : m.read target.toNat 4 = zeros 4) {r : ℕ}
    (hr : r ∈ (⟨.highLow, target, 0⟩ : Fixup).stretch) (ha : m.isAccessibleAt r = true)
    {difference difference' : UInt64} :
    ((m.move difference [⟨.highLow, target, 0⟩]).move difference' [f]).flat r =
      byteAt (encode 4 difference.toUInt32.toNat) (r - target.toNat) := by
  have hleft (m : Memory) (hm : m.WellFormed) : (m.move difference' [f]).flat r = m.flat r :=
    (agree_move hm (List.forall_mem_singleton.mpr hd)).flat r hr
  have hsize : (m.read target.toNat 4).size = 4 := by
    rw [hread, size_zeros]
  have hfirst : (m.move difference [⟨.highLow, target, 0⟩]).flat r =
      byteAt (encode 4 (u32At (m.read target.toNat 4) 0 + difference.toUInt32).toNat)
        (r - target.toNat) :=
    flat_move_of_mem hm (List.pairwise_singleton _ _)
      (List.mem_singleton_self (⟨.highLow, target, 0⟩ : Fixup)) hsize hr ha
  have hzero : u32At (zeros 4) 0 = 0 := by decide
  rw [hleft _ (hm.move _ _), hfirst, hread, hzero, UInt32.zero_add]

/-- A file in which the directory begins with the last byte of the stored base, which is also the
first one of the address of a block. -/
def overlapFile : ByteArray := movableFile 0x30 ⟨119, 10⟩ []

def overlapImage : Image := (loadFile overlapFile).1

/-- The directory that the file holds once the base `0x10000000` is stored. -/
def overlapDirectory : ByteArray := [16, 16, 0, 0, 0, 16, 0, 0, 0, 48].toByteArray

/-- What the file spells, before a move to that base and behind it. -/
lemma spelled_overlapFile :
    Movable overlapFile ⟨119, 10⟩ ∧
      (overlapImage.optional.imageBase = 0x400000 ∧ overlapImage.baseAddress = 116 ∧
        overlapImage.layout = .narrow ∧ overlapFile.size = 312 ∧
          overlapImage.alignedSize = 0x3000 ∧ overlapImage.flatBytes = 0x3000) ∧
      overlapImage.frontFixups ⟨119, 10⟩ overlapFile = ([⟨.highLow, 0x1000, 0⟩], true) ∧
      window overlapFile 116 4 = encode 4 0x400000 ∧
      (∀ i < 10, byteAt overlapDirectory i =
        if 116 ≤ 119 + i ∧ 119 + i < 116 + 4 then byteAt (encode 4 0x10000000) (119 + i - 116)
        else byteAt overlapFile (119 + i)) ∧
      overlapImage.spelledFixups overlapDirectory = ([⟨.highLow, 0x1010, 0⟩], true) := by
  decide +kernel

lemma headers_overlapImage : overlapImage.optional.imageBase = 0x400000 ∧
    overlapImage.baseAddress = 116 ∧ overlapImage.layout = .narrow ∧ overlapFile.size = 312 ∧
      overlapImage.alignedSize = 0x3000 ∧ overlapImage.flatBytes = 0x3000 :=
  spelled_overlapFile.2.1

lemma front_overlapImage : overlapImage.Front ⟨119, 10⟩ overlapFile :=
  spelled_overlapFile.1.front

lemma showsFile_overlapImage : overlapImage.ShowsFile overlapFile :=
  spelled_overlapFile.1.showsFile

lemma frontFixups_overlapFile : overlapImage.frontFixups ⟨119, 10⟩ overlapFile =
    ([⟨.highLow, 0x1000, 0⟩], true) :=
  spelled_overlapFile.2.2.1

/-- The other base spells another fixup. -/
lemma frontFixups_overlapDirectory : overlapImage.frontFixups ⟨119, 10⟩
    (overlapImage.frontWith 0x10000000 overlapFile) = ([⟨.highLow, 0x1010, 0⟩], true) := by
  obtain ⟨-, ⟨-, haddress, hlayout, hsize, -⟩, -, -, hbytes, hspelled⟩ := spelled_overlapFile
  have hend := front_overlapImage.baseEnd_le
  have hdirectory : window (overlapImage.frontWith 0x10000000 overlapFile) 119 10 =
      overlapDirectory := by
    refine eq_of_byteAt_eq ?_ fun i hi => ?_
    · rw [size_window, size_frontWith hend, hsize]
      rfl
    · have hlt : i < 10 := by
        rw [size_window] at hi
        omega
      rw [hbytes i hlt, byteAt_window, if_pos hlt, byteAt_frontWith hend, haddress, hlayout]
      rfl
  rw [← hspelled, ← hdirectory]
  rfl

lemma keepsApart_overlapImage : overlapImage.KeepsApart := by
  obtain ⟨-, -, -, hsize, -⟩ := headers_overlapImage
  refine front_overlapImage.keepsApart frontFixups_overlapFile ?_ ?_ ?_
    showsFile_overlapImage.uniform
  · decide
  · exact List.pairwise_singleton _ _
  · rw [hsize]
    decide

/-- Behind its headers the image is zero. -/
lemma read_overlapImage : overlapImage.memory.isAccessibleAt 0x1012 = true ∧
    overlapImage.memory.flat 0x1012 = 0 ∧ overlapImage.memory.read 0x1010 4 = zeros 4 := by
  obtain ⟨-, -, -, hsize, haligned, hflat⟩ := headers_overlapImage
  have hbehind : overlapFile.size ≤ 0x1010 := by
    rw [hsize]
    decide
  have hend : 0x1010 + 4 ≤ min overlapImage.alignedSize.toNat overlapImage.flatBytes := by
    rw [haligned, hflat]
    decide
  obtain ⟨hread, hin⟩ :=
    showsFile_overlapImage.behind front_overlapImage.wellFormed hbehind hend
  obtain ⟨haccess, hzero⟩ := hin 0x1012 (by decide)
  exact ⟨haccess, hzero, hread⟩

/-- The other base spells another fixup, and the old one spells the old fixup again. -/
lemma relocate_overlapImage :
    (overlapImage.relocate 0x10000000).2 = true ∧
      ((overlapImage.relocate 0x10000000).1.relocate 0x400000).2 = true ∧
      Agree (Set.Ici overlapFile.size)
        ((overlapImage.relocate 0x10000000).1.relocate 0x400000).1.memory
        ((overlapImage.memory.move (0x10000000 - 0x400000) [⟨.highLow, 0x1010, 0⟩]).move
          (0x400000 - 0x10000000) [⟨.highLow, 0x1000, 0⟩]) := by
  obtain ⟨himageBase, haddress, hlayout, hsize, -⟩ := headers_overlapImage
  have hend := front_overlapImage.baseEnd_le
  have hfixups := frontFixups_overlapDirectory
  have hstored : window overlapFile overlapImage.baseAddress.toNat
      overlapImage.layout.addressSize =
        encode overlapImage.layout.addressSize (0x400000 : UInt64).toNat := by
    rw [haddress, hlayout]
    exact spelled_overlapFile.2.2.2.1
  have hback : overlapImage.frontFixups ⟨119, 10⟩
      (overlapImage.frontWith 0x400000 (overlapImage.frontWith 0x10000000 overlapFile)) =
      ([⟨.highLow, 0x1000, 0⟩], true) := by
    rw [frontWith_frontWith hend, frontWith_eq_self hend hstored, frontFixups_overlapFile]
  have htwice := front_overlapImage.relocate_twice (by rw [himageBase]; decide) (by decide)
    (fun _ => by decide) (fun _ => by decide) hfixups hback (by rw [hsize]; decide)
    (by rw [hsize]; decide)
  rwa [himageBase] at htwice

theorem not_restored_overlapFile :
    Reachable overlapImage ∧ overlapImage.KeepsApart ∧
      overlapImage.fixups = [⟨.highLow, 0x1000, 0⟩] ∧
      overlapImage.optional.imageBase = 0x400000 ∧ overlapImage.FitsBase 0x10000000 ∧
      (overlapImage.relocate 0x10000000).2 = true ∧
      ((overlapImage.relocate 0x10000000).1.relocate 0x400000).2 = true ∧
      0x1012 ∉ overlapImage.baseStretch ∧
      ((overlapImage.relocate 0x10000000).1.relocate 0x400000).1.memory.flat 0x1012 ≠
        overlapImage.memory.flat 0x1012 := by
  obtain ⟨himageBase, haddress, hlayout, hsize, -⟩ := headers_overlapImage
  obtain ⟨hmove, hback, hagree⟩ := relocate_overlapImage
  obtain ⟨haccess, hzero, hread⟩ := read_overlapImage
  have hfront := front_overlapImage
  have hfixups : overlapImage.fixups = [⟨.highLow, 0x1000, 0⟩] := by
    rw [fixups_eq hfront.directory, hfront.directoryFixups_eq, frontFixups_overlapFile]
  have hreachable : Reachable overlapImage := reachable_loadFile overlapFile
  refine ⟨hreachable, keepsApart_overlapImage, hfixups, himageBase, fun _ => by decide, hmove,
    hback, ?_, ?_⟩
  · rw [baseStretch, haddress, hlayout]
    decide
  · have hapart : Disjoint (⟨.highLow, 0x1010, 0⟩ : Fixup).stretch
        (⟨.highLow, 0x1000, 0⟩ : Fixup).stretch := by
      simp only [Fixup.stretch, Set.Ico_disjoint_Ico]
      decide
    have hmem : 0x1012 ∈ (⟨.highLow, 0x1010, 0⟩ : Fixup).stretch := by
      rw [Fixup.stretch, Set.mem_Ico]
      decide
    rw [hagree.flat 0x1012 (by rw [hsize]; decide),
      flat_move_zeros hfront.wellFormed hapart hread hmem haccess, hzero]
    decide

end Image

end PeImage
