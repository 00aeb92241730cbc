/-
Moving a bundle in memory.

A fixup of a bundle adds the difference to its number, modulo `2 ^ 64`, and changes no other bit of
it or of the rest of the memory. So a move back restores the bundle. All of that is about bundles
within the image. An edit can make the image smaller than its table of pages, and a bundle behind
its end stays as it is, although its page has access.

* `Bundle.InNumber`: the bits of a bundle that make up its number, and `Bundle.MovedBy`: a bundle
  with a number that is greater by a difference; `Bundle.movedBy_addImmediate`: so moves a fixup;
* `Memory.bundleAt`: the bundle that the pages hold at an address;
* `Memory.bundleAt_fixup`, `Memory.fixup_of_limit_lt`: what a fixup makes of a bundle within the
  image and of one that goes on behind its end, and `Memory.agree_fixup_fixup_neg`: what two fixups
  by opposite differences do; `Memory.movedBy_fixup`: all of that;
* `Image.EditedFrom.memory_eq`, `Image.Front.of_edited`: an edit moves the end of the image and
  keeps its pages; `Image.unmoved_shortImage`: an image with a bundle behind its end.
-/
import PeImage.Proofs.Updates

namespace PeImage

/-! ### The number of a bundle -/

namespace Bundle

/-- The bit `j` of word `k` of a bundle is one of those of its number. -/
def InNumber (k : Fin 4) (j : ℕ) : Prop := ∃ f ∈ immediateFields, f.word = k ∧ f.Covers j

/-- The second bundle is the first one with a number that is greater by a difference, modulo
`2 ^ 64`. -/
structure MovedBy (difference : UInt64) (b moved : Bundle) : Prop where
  immediate : moved.immediate = b.immediate + difference
  bit : ∀ k, ∀ j < 32, ¬ InNumber k j → moved.bit k j = b.bit k j

/-- Another number changes none of the other bits. -/
lemma bit_setImmediate_of_not_inNumber (b : Bundle) (value : UInt64) {k : Fin 4} {j : ℕ}
    (hj : j < 32) (h : ¬ InNumber k j) : (b.setImmediate value).bit k j = b.bit k j :=
  (bit_setImmediate b value hj).2 k fun f hf hin => h ⟨f, hf, hin⟩

lemma movedBy_addImmediate (b : Bundle) (difference : UInt64) :
    b.MovedBy difference (b.addImmediate difference) where
  immediate := immediate_setImmediate b _
  bit _ _ hj h := bit_setImmediate_of_not_inNumber b _ hj h

/-- A bundle that stays as it is has not moved. -/
lemma not_movedBy_self {difference : UInt64} (h : difference ≠ 0) (b : Bundle) :
    ¬ b.MovedBy difference b := fun hmoved => h (left_eq_add.mp hmoved.immediate)

end Bundle

/-! ### Bundles in memory -/

namespace Memory

variable {m : Memory} {a : UInt32} {low : UInt16} {d : UInt64}

/-- The bundle that the pages hold at an address, whether it can be reached or not. -/
def bundleAt (m : Memory) (start : ℕ) : Bundle :=
  .ofBytes (window m.toByteArray start Bundle.size)

/-- The address at which the bundle begins that an address points into. -/
def bundleStart (a : UInt32) : ℕ := (a &&& ~~~15).toNat

/-- The addresses of the bytes of that bundle. -/
def bundleStretch (a : UInt32) : Set ℕ := Set.Ico (bundleStart a) (bundleStart a + Bundle.size)

/-- In front of the reach, the pages hold what can be read. -/
lemma window_toByteArray (hm : m.WellFormed) {start n : ℕ} (h : start + n ≤ m.reach) :
    window m.toByteArray start n = m.read start n := by
  have hend : m.reach ≤ m.tableEnd := min_le_right _ _
  have hsize : (m.read start n).size = n := (size_read_eq_iff hm _ _).mpr (.inl h)
  refine eq_of_byteAt_eq ?_ fun i hi => ?_
  · rw [size_window, size_toByteArray hm, hsize]
    omega
  · have hlt : i < n := by
      rw [size_window] at hi
      omega
    rw [byteAt_window, if_pos hlt, byteAt_toByteArray hm, byteAt_read hm (by omega)]

/-- Pages that agree on the bytes of a bundle hold the same bundle. -/
lemma Agree.bundleAt {m' : Memory} {start : ℕ} (hm : m.WellFormed) (hm' : m'.WellFormed)
    (h : Agree (Set.Ico start (start + Bundle.size)) m m') :
    m.bundleAt start = m'.bundleAt start := by
  have hwindow : window m.toByteArray start Bundle.size =
      window m'.toByteArray start Bundle.size := by
    refine eq_of_byteAt_eq ?_ fun i hi => ?_
    · rw [size_window, size_window, size_toByteArray hm, size_toByteArray hm', h.tableEnd]
    · have hlt : i < Bundle.size := by
        rw [size_window] at hi
        omega
      rw [byteAt_window, byteAt_window, if_pos hlt, if_pos hlt, byteAt_toByteArray hm,
        byteAt_toByteArray hm', h.flat _ ⟨Nat.le_add_right _ _, Nat.add_lt_add_left hlt _⟩]
  rw [Memory.bundleAt, Memory.bundleAt, hwindow]

/-- What has access has a page. -/
lemma le_tableEnd_of_isAccessibleAt {start n : ℕ} (hn : 0 < n)
    (hacc : ∀ r ∈ Set.Ico start (start + n), m.isAccessibleAt r = true) :
    start + n ≤ m.tableEnd := by
  by_contra hbehind
  have hlast := hacc (start + n - 1) (by rw [Set.mem_Ico]; omega)
  rw [isAccessibleAt_eq_false (by omega)] at hlast
  cases hlast

/-- A stretch with access does not mix pages. -/
lemma uniform_of_isAccessibleAt {s : Set ℕ} (hacc : ∀ r ∈ s, m.isAccessibleAt r = true) :
    m.Uniform s := by
  intro _ _ q hq _ hpage
  have haccess := hacc q hq
  rw [isAccessibleAt, hpage] at haccess
  cases haccess

/-- Where the limit moves, the pages are as well formed as before, and have access as before. -/
lemma WellFormed.withLimit (hm : m.WellFormed) (limit : ℕ) : WellFormed ⟨m.pages, limit⟩ :=
  fun page hpage => hm page hpage

lemma isAccessibleAt_withLimit (m : Memory) (limit r : ℕ) :
    isAccessibleAt ⟨m.pages, limit⟩ r = m.isAccessibleAt r := rfl

/-- A known front stays where the limit moves, as long as it stays in front of it. -/
lemma BeginsWith.withLimit {b : ByteArray} {limit : ℕ} (h : m.BeginsWith b)
    (hlimit : b.size ≤ limit) : BeginsWith ⟨m.pages, limit⟩ b where
  size_le := le_min hlimit (h.size_le.trans (min_le_right _ _))
  accessible := h.accessible
  flat := h.flat

/-! ### Fixups of bundles -/

/-- **A fixup of a bundle within the image** adds the difference to its number. -/
lemma bundleAt_fixup (hm : m.WellFormed)
    (hacc : ∀ r ∈ bundleStretch a, m.isAccessibleAt r = true)
    (hlimit : bundleStart a + Bundle.size ≤ m.limit) :
    (m.fixup d .ia64Bundle a low).bundleAt (bundleStart a) =
      (m.bundleAt (bundleStart a)).addImmediate d := by
  have hreach : bundleStart a + Bundle.size ≤ m.reach :=
    le_min hlimit (le_tableEnd_of_isAccessibleAt (by decide) hacc)
  have hread : (m.fixup d .ia64Bundle a low).read (bundleStart a) Bundle.size =
      ((Bundle.ofBytes (m.read (bundleStart a) Bundle.size)).addImmediate d).toByteArray := by
    rw [fixup_eq_patch]
    exact read_patch hm (FixupKind.size_move .ia64Bundle d low) hreach hacc
  have hwellFormed : (m.fixup d .ia64Bundle a low).WellFormed := hm.apply d ⟨.ia64Bundle, a, low⟩
  have hreach' : bundleStart a + Bundle.size ≤ (m.fixup d .ia64Bundle a low).reach := by
    rwa [fixup_eq_patch, reach_patch]
  rw [bundleAt, bundleAt, window_toByteArray hwellFormed hreach', window_toByteArray hm hreach,
    hread, Bundle.ofBytes_toByteArray]

/-- **A fixup of a bundle that goes on behind the end of the image** does nothing. -/
lemma fixup_of_limit_lt (hm : m.WellFormed) (hlimit : m.limit < bundleStart a + Bundle.size) :
    m.fixup d .ia64Bundle a low = m := by
  rw [fixup_eq_patch, patch_eq, if_neg]
  rw [size_read_eq_iff hm]
  have hreach : m.reach ≤ m.limit := min_le_left _ _
  rintro (hle | hzero)
  · exact absurd (hle.trans hreach) (Nat.not_le.mpr hlimit)
  · exact absurd hzero (by decide)

/-- **Moving there and back** restores the memory. -/
lemma agree_fixup_fixup_neg (hm : m.WellFormed)
    (hacc : ∀ r ∈ bundleStretch a, m.isAccessibleAt r = true) :
    Agree Set.univ ((m.fixup d .ia64Bundle a low).fixup (-d) .ia64Bundle a low) m := by
  have hboth : Agree Set.univ
      ((m.move d [⟨.ia64Bundle, a, low⟩]).move (-d) [⟨.ia64Bundle, a, low⟩])
      (m.move (d + -d) [⟨.ia64Bundle, a, low⟩]) := by
    refine agree_move_move hm ?_ (List.pairwise_singleton _ _) ?_
    · exact List.forall_mem_singleton.mpr ⟨trivial, trivial⟩
    · exact List.forall_mem_singleton.mpr (uniform_of_isAccessibleAt hacc)
  rw [add_neg_cancel] at hboth
  exact hboth.trans (agree_move_zero hm (List.forall_mem_singleton.mpr trivial))

/-- **Bundles and their numbers**: the number that was put in comes out, putting back the number of
a bundle changes nothing, and no other number changes any of the other bits. So a fixup of a bundle
on pages with access adds the difference to its number and changes no other bit, if the bundle lies
within the image, and else it does nothing. Neither way does it change anything else, and moving
there and back restores the memory. -/
theorem movedBy_fixup :
    (∀ (b : Bundle) (value : UInt64), (b.setImmediate value).immediate = value ∧
        ∀ k, ∀ j < 32, ¬ Bundle.InNumber k j → (b.setImmediate value).bit k j = b.bit k j) ∧
      (∀ b : Bundle, b.setImmediate b.immediate = b) ∧
      ∀ (m : Memory) (d : UInt64) (a : UInt32) (low : UInt16), m.WellFormed →
        (∀ r ∈ bundleStretch a, m.isAccessibleAt r = true) →
        let moved := m.fixup d .ia64Bundle a low
        (bundleStart a + Bundle.size ≤ m.limit →
            (m.bundleAt (bundleStart a)).MovedBy d (moved.bundleAt (bundleStart a))) ∧
          (m.limit < bundleStart a + Bundle.size → moved = m) ∧
          Agree (bundleStretch a)ᶜ moved m ∧
          Agree Set.univ (moved.fixup (-d) .ia64Bundle a low) m := by
  refine ⟨?_, Bundle.setImmediate_immediate, fun m d a low hm hacc => ?_⟩
  · exact fun b value => ⟨Bundle.immediate_setImmediate b value,
      fun _ _ hj h => Bundle.bit_setImmediate_of_not_inNumber b value hj h⟩
  · refine ⟨fun hlimit => ?_, fixup_of_limit_lt hm, ?_, agree_fixup_fixup_neg hm hacc⟩
    · rw [bundleAt_fixup hm hacc hlimit]
      exact Bundle.movedBy_addImmediate _ d
    · exact agree_apply (f := ⟨.ia64Bundle, a, low⟩) hm disjoint_compl_left d

/-- A page with bytes of its own, all the same. -/
def stripedPage : Page := .data (List.replicate pageSize 0xA5).toByteArray

/-- The last bundle of an image moves, whatever the page in front of it. -/
theorem movedBy_fixup_stripedPage :
    let m : Memory := ⟨#[.inaccessible, stripedPage], 0x2000⟩
    let moved := m.fixup 0x8123456789ABCDEF .ia64Bundle 0x1FF7 0
    m.WellFormed ∧ (∀ r ∈ bundleStretch 0x1FF7, m.isAccessibleAt r = true) ∧
      (m.bundleAt 0x1FF0).MovedBy 0x8123456789ABCDEF (moved.bundleAt 0x1FF0) ∧
      Agree (bundleStretch 0x1FF7)ᶜ moved m ∧
      Agree Set.univ (moved.fixup (-0x8123456789ABCDEF) .ia64Bundle 0x1FF7 0) m := by
  intro m moved
  have hm : m.WellFormed := by
    intro page hpage
    rcases List.mem_pair.mp (Array.mem_toList_iff.mpr hpage) with rfl | rfl
    · trivial
    · show (List.replicate pageSize 0xA5).toByteArray.size = pageSize
      rw [List.size_toByteArray, List.length_replicate]
  have hacc : ∀ r ∈ bundleStretch 0x1FF7, m.isAccessibleAt r = true := by
    intro r hr
    have hpage : r / pageSize = 1 := by
      have hlow : 0x1FF0 ≤ r := hr.1
      have hhigh : r < 0x2000 := hr.2
      rw [pageSize]
      omega
    rw [isAccessibleAt, hpage]
    rfl
  obtain ⟨hmoves, -, hout, hback⟩ :=
    movedBy_fixup.2.2 m 0x8123456789ABCDEF 0x1FF7 0 hm hacc
  exact ⟨hm, hacc, hmoves (by decide), hout, hback⟩

end Memory

/-! ### An image that ends in front of its last page -/

namespace Image

open Memory

variable {image edited : Image} {d : Directory} {b : ByteArray}

/-- Edits keep the pages, and can move the limit. -/
lemma EditedFrom.memory_eq (h : EditedFrom edited image) :
    edited.memory = ⟨image.memory.pages, edited.alignedSize.toNat⟩ := by
  rw [memory, memoryOf, pages, h.contents]
  rfl

/-- A known front stays known through edits that keep it in front of the limit. -/
lemma Front.of_edited (h : image.Front d b) (he : EditedFrom edited image)
    (hmove : edited.isRelocatable 0 = true) (hd : edited.relocationDirectory? = some d)
    (hlimit : b.size ≤ edited.alignedSize.toNat) : edited.Front d b := by
  have hpages : edited.pages = image.pages := by rw [pages, pages, he.contents]
  have hbase : edited.baseAddress = image.baseAddress := by
    rw [baseAddress, baseAddress, he.dos, he.layout]
  constructor
  case pageCount =>
    rw [Image.pageCount, hpages]
    exact h.pageCount
  case isRelocatable => exact hmove
  case directory => exact hd
  case size => exact h.size
  case wellFormed =>
    rw [he.memory_eq]
    exact h.wellFormed.withLimit _
  case beginsWith =>
    rw [he.memory_eq]
    exact h.beginsWith.withLimit hlimit
  case baseEnd_le =>
    rw [hbase, he.layout]
    exact h.baseEnd_le
  case directoryEnd_le => exact h.directoryEnd_le

/-- A flat file with one fixup, of a bundle on its third page. -/
def shortFile : ByteArray :=
  movableFile 0 ⟨312, 12⟩ [0xE0, 0x1F, 0, 0, 12, 0, 0, 0, 0x40, 0x90, 0, 0]

/-- The image after edits that let a section end it behind its second page. -/
def shortImage : Image :=
  (loadFile shortFile).1.run [.addSection "" 0, .enlargeLastSection 0x1E00]

/-- What the file spells, before the edits and behind them. -/
lemma spelled_shortFile :
    Movable shortFile ⟨312, 12⟩ ∧
      ((loadFile shortFile).1.alignedSize = 0x3000 ∧ (loadFile shortFile).1.flatBytes = 0x3000 ∧
        shortFile.size = 324) ∧
      (shortImage.isRelocatable 0 = true ∧
        shortImage.relocationDirectory? = some ⟨312, 12⟩ ∧
        shortImage.optional.imageBase = 0x400000 ∧ shortImage.baseAddress = 116 ∧
        shortImage.layout = .narrow ∧ shortImage.alignedSize = 0x2000) ∧
      shortImage.frontFixups ⟨312, 12⟩ shortFile =
        ([⟨.ia64Bundle, 0x2020, 0⟩, ⟨.absolute, 0x1FE0, 0⟩], true) := by
  decide +kernel

lemma reachable_shortImage : Reachable shortImage := (reachable_loadFile shortFile).run _

lemma editedFrom_shortImage : EditedFrom shortImage (loadFile shortFile).1 :=
  editedFrom_run _ (by simp [Operation.isEdit])

lemma front_shortImage : shortImage.Front ⟨312, 12⟩ shortFile := by
  obtain ⟨hmovable, ⟨-, -, hfile⟩, ⟨hmove, hdirectory, -, -, -, hsize⟩, -⟩ := spelled_shortFile
  refine hmovable.front.of_edited editedFrom_shortImage hmove hdirectory ?_
  rw [hfile, hsize]
  decide

/-- The bundle has access, and lies behind the end of the image. -/
lemma behind_shortImage :
    (∀ r ∈ bundleStretch 0x2020, shortImage.memory.isAccessibleAt r = true) ∧
      shortImage.memory.limit < bundleStart 0x2020 + Bundle.size := by
  obtain ⟨hmovable, ⟨hsize, hflat, hfile⟩, ⟨-, -, -, -, -, hshort⟩, -⟩ := spelled_shortFile
  rw [editedFrom_shortImage.memory_eq, hshort]
  refine ⟨?_, by decide⟩
  have hbehind : shortFile.size ≤ 0x2020 := by
    rw [hfile]
    decide
  have hend : 0x2020 + Bundle.size ≤
      min (loadFile shortFile).1.alignedSize.toNat (loadFile shortFile).1.flatBytes := by
    rw [hsize, hflat]
    decide
  obtain ⟨-, hin⟩ := hmovable.showsFile.behind hmovable.front.wellFormed hbehind hend
  intro r hr
  rw [isAccessibleAt_withLimit]
  exact (hin r hr).1

/-- The directory lies behind the stored base, and spells the same whatever base is stored. -/
lemma frontFixups_shortImage (base : UInt64) :
    shortImage.frontFixups ⟨312, 12⟩ (shortImage.frontWith base shortFile) =
      ([⟨.ia64Bundle, 0x2020, 0⟩, ⟨.absolute, 0x1FE0, 0⟩], true) := by
  obtain ⟨-, -, ⟨-, -, -, haddress, hlayout, -⟩, hspelled⟩ := spelled_shortFile
  rw [front_shortImage.frontFixups_frontWith (by rw [haddress, hlayout]; decide)]
  exact hspelled

/-- The move succeeds, and the bundle stays as it is. -/
theorem unmoved_shortImage :
    Reachable shortImage ∧ shortImage.optional.imageBase = 0x400000 ∧
      shortImage.fixups = [⟨.ia64Bundle, 0x2020, 0⟩, ⟨.absolute, 0x1FE0, 0⟩] ∧
      (∀ r ∈ bundleStretch 0x2020, shortImage.memory.isAccessibleAt r = true) ∧
      ¬ (shortImage.memory.bundleAt 0x2020).MovedBy 0x10000
        ((shortImage.memory.fixup 0x10000 .ia64Bundle 0x2020 0).bundleAt 0x2020) ∧
      (shortImage.relocate 0x410000).2 = true ∧
      ¬ (shortImage.memory.bundleAt 0x2020).MovedBy 0x10000
        ((shortImage.relocate 0x410000).1.memory.bundleAt 0x2020) := by
  obtain ⟨-, ⟨-, -, hsize⟩, ⟨-, -, hbase, -⟩, hspelled⟩ := spelled_shortFile
  obtain ⟨hacc, hlimit⟩ := behind_shortImage
  have hfront := front_shortImage
  have hm := hfront.wellFormed
  have hstays : shortImage.memory.fixup 0x10000 .ia64Bundle 0x2020 0 = shortImage.memory :=
    fixup_of_limit_lt hm hlimit
  have hfixups : shortImage.fixups = [⟨.ia64Bundle, 0x2020, 0⟩, ⟨.absolute, 0x1FE0, 0⟩] := by
    rw [fixups_eq hfront.directory, hfront.directoryFixups_eq, hspelled]
  have hunmoved := Bundle.not_movedBy_self (by decide : (0x10000 : UInt64) ≠ 0)
    (shortImage.memory.bundleAt 0x2020)
  obtain ⟨pages, hmove, hfront', hagree⟩ := hfront.relocate (by rw [hbase]; decide)
    (fun _ => by decide) (frontFixups_shortImage 0x410000) (by rw [hsize]; decide)
  have hbundle : (shortImage.rebased 0x410000 pages).memory.bundleAt 0x2020 =
      shortImage.memory.bundleAt 0x2020 := by
    have hsame : shortImage.memory.move (0x410000 - shortImage.optional.imageBase)
        [⟨.ia64Bundle, 0x2020, 0⟩, ⟨.absolute, 0x1FE0, 0⟩] = shortImage.memory := by
      rw [hbase]
      exact hstays
    rw [hsame] at hagree
    refine (hagree.mono ?_).bundleAt hfront'.wellFormed hm
    rw [hsize]
    exact fun r hr => le_trans (by decide) hr.1
  rw [hstays, hmove, hbundle]
  exact ⟨reachable_shortImage, hbase, hfixups, hacc, hunmoved, rfl, hunmoved⟩

end Image

end PeImage
