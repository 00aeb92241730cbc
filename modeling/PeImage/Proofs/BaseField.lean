/-
The base of a mapped image, in its headers and in its memory.

A mapped image has its base twice. A load decodes one from the file, and maps the field that spells
the other one with the front of the file. A move stores the new base in the field and keeps it in
the headers, or does neither, and no fixup comes near the first page. So the two agree as long as
the image is moved and nothing else is done to it.

* `Image.baseEnd`: where the field of the base ends;
* `Image.BaseStored`: the memory begins with a buffer that spells the base of the headers in that
  field; `Image.beginsWith_of_load`, `Image.natAt_of_load`: so it does after a load;
* `Image.BaseStored.relocate`: so it does after a move, and `Image.BaseStored.run`, by induction
  over the moves, after any number of them;
* `Image.ReadsBase`: a read of the field gives the base, and `Image.readsBase_of_load`: so it is
  after a load and any number of moves, successful or not.
-/
import PeImage.Proofs.FlatImage
import PeImage.Proofs.MoveFrame
import PeImage.Proofs.Translation

namespace PeImage

namespace Layout

/-- The field of the base ends with the same offset in both layouts. -/
lemma imageBaseOffset_add_addressSize (l : Layout) : l.imageBaseOffset + l.addressSize = 32 := by
  cases l <;> rfl

/-- No address is cut. -/
lemma toNat_addressAt (l : Layout) (b : ByteArray) (off : ℕ) :
    (l.addressAt b off).toNat = natAt b off l.addressSize := by
  refine UInt64.toNat_ofNat_of_lt' (lt_of_lt_of_le (natAt_lt _ _ _) ?_)
  cases l <;> decide

end Layout

namespace Image

open Memory

variable {image loaded : Image} {file F b : ByteArray} {base : UInt64}

/-! ### The field -/

/-- The end of the field of the base, where the headers of the file place it. -/
def baseEnd (image : Image) : ℕ :=
  image.dos.ntOffset.toNat + optionalStart + image.layout.imageBaseOffset +
    image.layout.addressSize

lemma baseEnd_eq (image : Image) :
    image.baseEnd = image.dos.ntOffset.toNat + optionalStart + 32 := by
  rw [baseEnd, Nat.add_assoc, image.layout.imageBaseOffset_add_addressSize]

/-- The field ends where its address and its size say, if no address wraps. -/
lemma baseAddress_add_addressSize (h : image.baseEnd < 2 ^ 32) :
    image.baseAddress.toNat + image.layout.addressSize = image.baseEnd := by
  rw [baseEnd_eq] at h
  rw [toNat_baseAddress h, baseEnd]

/-! ### The front of the memory -/

/-- The headers begin with every buffer that is the front of the file, as far as they go. -/
lemma ShowsLayout.beginsWith_of_byteAt (h : image.ShowsLayout F)
    (hl : GranularLayout image.optional image.sections)
    (hsize : b.size ≤ image.optional.sizeOfHeaders.toNat)
    (hb : ∀ r < b.size, byteAt F r = byteAt b r) : image.memory.BeginsWith b := by
  have hheaders := sizeOfHeaders_le_headerBytes hl
  constructor
  case size_le =>
    rw [h.reach_eq hl]
    calc b.size ≤ image.optional.sizeOfHeaders.toNat := hsize
      _ ≤ image.optional.sizeOfImage.toNat := UInt32.le_iff_toNat_le.mp hl.sizeOfHeaders_le
      _ ≤ roundUp image.optional.sizeOfImage.toNat pageSize := le_roundUp pageSize_pos _
  case accessible =>
    intro r hr
    have hpage : r / pageSize * pageSize < image.headerBytes :=
      lt_of_le_of_lt (Nat.div_mul_le_self r pageSize) (by omega)
    obtain ⟨page, hget, hzero, hshow⟩ := h.header _ hpage
    have hget' : image.memory.pages[r / pageSize]? = some page := hget
    rw [isAccessibleAt, hget']
    rcases Nat.lt_or_ge (r / pageSize * pageSize) F.size with hlt | hge
    · obtain ⟨bytes, rfl, -⟩ := hshow hlt
      rfl
    · rw [hzero hge]
      rfl
  case flat =>
    intro r hr
    rw [h.flat_header (by omega), hb r hr]

/-- **The front of a mapped image** is the front of its file: a buffer that ends in the first page,
in front of the section table, and in a section-granular image within the headers. -/
lemma beginsWith_of_load (h : image.load file = (loaded, .ok ())) (hp : loaded.pageCount ≠ 0)
    (hb : ∀ r < b.size, byteAt b r = byteAt file r) (htable : b.size ≤ loaded.tableOffset)
    (hpage : b.size ≤ pageSize)
    (hheaders : loaded.isFlat = false → b.size ≤ loaded.optional.sizeOfHeaders.toNat) :
    loaded.memory.BeginsWith b := by
  obtain ⟨captured, F, hc, hl⟩ := loaded_of_load h
  have hframe := hl.frame
  have hF : ∀ r < b.size, byteAt F r = byteAt b r := by
    intro r hr
    rw [hframe] at htable
    rw [hb r hr]
    exact byteAt_of_capture hc (lt_of_lt_of_le hr htable)
  cases hf : loaded.isFlat with
  | true =>
      obtain ⟨F', hF', hshow⟩ := showsFile_of_load h hp hf
      rw [hc] at hF'
      cases hF'
      obtain ⟨hpos, hle, -⟩ :=
        sizes_of_capture hc (not_grave_of_isMappable (hl.isMappable_of_pageCount hp))
      have hsize : loaded.optional = captured.optional := by rw [hframe]
      rw [← hsize] at hpos hle
      refine hshow.beginsWith_of_byteAt (le_min ?_ (hpage.trans (le_max_right _ _))) hF
      rw [toNat_alignedSize hle]
      exact hpage.trans (Nat.le_of_dvd (roundUp_pos pageSize_pos hpos) (dvd_roundUp _ _))
  | false =>
      have hcf : captured.isFlat = false := by
        rw [hframe] at hf
        exact hf
      have hlayout : GranularLayout loaded.optional loaded.sections := by
        rw [hframe]
        exact (hl.placed_of_pageCount hcf hp).1
      exact (hl.showsLayout hcf hp).beginsWith_of_byteAt hlayout (hheaders hf) hF

/-- The field of a mapped image ends in the file, and spells the base there. -/
lemma natAt_of_load (h : image.load file = (loaded, .ok ())) (hp : loaded.pageCount ≠ 0) :
    loaded.baseEnd < file.size ∧
      natAt file loaded.baseAddress.toNat loaded.layout.addressSize =
        loaded.optional.imageBase.toNat := by
  have hstart := (headers_of_load h hp).1
  obtain ⟨captured, F, hc, hl⟩ := loaded_of_load h
  have hg := not_grave_of_isMappable (hl.isMappable_of_pageCount hp)
  have hin := headers_lt_size hc hg
  have hoptional := optional_of_capture hc hg
  dsimp only at hoptional
  rw [toNat_baseAddress hstart, baseEnd_eq, hl.frame]
  refine ⟨hin, ?_⟩
  set off := captured.dos.ntOffset.toNat + optionalStart with hoff
  have hlayout := layout_eq_layoutAt hoptional (by omega)
  show natAt file (off + captured.layout.imageBaseOffset) captured.layout.addressSize =
    captured.optional.imageBase.toNat
  rw [hlayout, hoptional]
  exact (Layout.toNat_addressAt _ file _).symm

/-! ### The stored base -/

/-- The memory begins with a buffer in the first page, in which the base of the headers is
stored. -/
structure BaseStored (image : Image) (b : ByteArray) : Prop where
  wellFormed : image.memory.WellFormed
  sizeOfImage_le : image.optional.sizeOfImage ≤ largestImage
  size_le : b.size ≤ pageSize
  beginsWith : image.memory.BeginsWith b
  baseEnd_le : image.baseAddress.toNat + image.layout.addressSize ≤ b.size
  window_eq : window b image.baseAddress.toNat image.layout.addressSize =
    encode image.layout.addressSize image.optional.imageBase.toNat

/-- The base is stored after a load, where the field lies in the first page, in front of the section
table, and in a section-granular image within the headers. -/
lemma baseStored_of_load (h : image.load file = (loaded, .ok ())) (hp : loaded.pageCount ≠ 0)
    (ho : loaded.layout.size ≤ loaded.file.optionalSize.toNat)
    (hpage : loaded.baseEnd ≤ pageSize)
    (hheaders : loaded.isFlat = false → loaded.baseEnd ≤ loaded.optional.sizeOfHeaders.toNat) :
    loaded.BaseStored (window file 0 loaded.baseEnd) := by
  obtain ⟨hlt, hbase⟩ := natAt_of_load h hp
  obtain ⟨hstart, hsizeOfImage⟩ := headers_of_load h hp
  rw [← baseEnd_eq] at hstart
  have hend := baseAddress_add_addressSize hstart
  have hsize : (window file 0 loaded.baseEnd).size = loaded.baseEnd := by
    rw [size_window]
    omega
  have hbyte (r : ℕ) (hr : r < loaded.baseEnd) :
      byteAt (window file 0 loaded.baseEnd) r = byteAt file r := by
    rw [byteAt_window, if_pos hr, Nat.zero_add]
  have htable : loaded.baseEnd ≤ loaded.tableOffset := by
    have hl : 32 ≤ loaded.layout.size := by cases loaded.layout <;> decide
    rw [baseEnd_eq, tableOffset]
    omega
  constructor
  case wellFormed => exact (Reachable.of_load h).allWhole
  case sizeOfImage_le => exact hsizeOfImage
  case size_le => rwa [hsize]
  case beginsWith =>
    refine beginsWith_of_load h hp ?_ ?_ ?_ ?_
    all_goals rwa [hsize]
  case baseEnd_le => rw [hsize, hend]
  case window_eq =>
    refine eq_of_byteAt_eq ?_ fun k hk => ?_
    · rw [size_window, hsize, size_encode]
      omega
    · rw [size_window] at hk
      rw [byteAt_window, if_pos (by omega), hbyte _ (by omega), ← hbase,
        byteAt_encode_natAt (by omega)]

namespace BaseStored

/-- Another base, and what else a move leaves behind the first page. -/
lemma rebased (h : image.BaseStored b) {m : Memory} (hm : m.WellFormed)
    (hagree : Agree (Set.Iio b.size) m (image.storeBase base)) :
    (image.rebased base m.pages).BaseStored (image.frontWith base b) := by
  have hmemory : (image.rebased base m.pages).memory = m :=
    memory_rebased image base hagree.limit
  have hsize := size_frontWith h.baseEnd_le base
  have hend := h.baseEnd_le
  rw [← size_encode image.layout.addressSize base.toNat] at hend
  have hstored : (image.storeBase base).BeginsWith (image.frontWith base b) :=
    h.beginsWith.write h.wellFormed hend
  rw [← hsize] at hagree
  constructor
  case wellFormed => rwa [hmemory]
  case sizeOfImage_le => exact h.sizeOfImage_le
  case size_le => rw [hsize]; exact h.size_le
  case beginsWith => rw [hmemory]; exact hstored.of_agree hagree
  case baseEnd_le => rw [hsize]; exact h.baseEnd_le
  case window_eq => exact window_frontWith h.baseEnd_le base

/-- **One move**, whether it succeeds or not: it stores the base that it keeps, and its fixups lie
behind the first page. -/
theorem relocate (h : image.BaseStored b) (base : UInt64) :
    ∃ b', (image.relocate base).1.BaseStored b' := by
  have hm := wellFormed_storeBase h.wellFormed base
  rw [relocate_eq]
  split_ifs
  · exact ⟨b, h⟩
  · exact ⟨b, h⟩
  · refine ⟨image.frontWith base b, ?_⟩
    cases image.relocationDirectory? with
    | none => exact h.rebased hm (.refl _ _)
    | some d =>
        refine h.rebased (wellFormed_applyDirectory hm image _ d) ?_
        refine agree_applyDirectory hm (fun f hf => ?_) _
        have hbehind := (spells_of_mem h.sizeOfImage_le hf).subset_Ici
        exact Set.disjoint_left.mpr fun r hr hin =>
          Nat.not_lt.mpr (h.size_le.trans (hbehind hin)) hr

/-- **Any number of moves**, by induction over them. -/
theorem run (h : image.BaseStored b) (bases : List UInt64) :
    ∃ b', (image.run (bases.map .relocate)).BaseStored b' := by
  induction bases generalizing image b with
  | nil => exact ⟨b, h⟩
  | cons base rest ih =>
      obtain ⟨b', h'⟩ := h.relocate base
      exact ih h'

/-- A read of the field gives the stored base. -/
lemma read_eq (h : image.BaseStored b) : image.read image.baseAddress image.layout.addressSize =
    encode image.layout.addressSize image.optional.imageBase.toNat := by
  have hp : image.pageCount ≠ 0 := by
    intro h0
    have hreach : image.memory.reach ≤ pageSize * image.pageCount := min_le_right _ _
    have hpos : 0 < image.layout.addressSize := by cases image.layout <;> decide
    have hend := h.baseEnd_le
    have hfront := h.beginsWith.size_le
    rw [h0, Nat.mul_zero] at hreach
    omega
  rw [read_of_pageCount hp, h.beginsWith.read h.wellFormed h.baseEnd_le, h.window_eq]

end BaseStored

/-! ### Reading the base -/

/-- A read of the field of the base gives all of its bytes, and they spell the base that the headers
keep. -/
structure ReadsBase (image : Image) : Prop where
  size_eq : (image.read image.baseAddress image.layout.addressSize).size =
    image.layout.addressSize
  natAt_eq : natAt (image.read image.baseAddress image.layout.addressSize) 0
    image.layout.addressSize = image.optional.imageBase.toNat

/-- A stored base is read in full if the headers can store it. -/
lemma BaseStored.readsBase (h : image.BaseStored b) (hf : image.FitsBase image.optional.imageBase) :
    image.ReadsBase := by
  constructor
  case size_eq => rw [h.read_eq, size_encode]
  case natAt_eq =>
    rw [h.read_eq, natAt_encode]
    refine Nat.mod_eq_of_lt ?_
    cases hl : image.layout with
    | narrow => exact hf hl
    | wide => exact image.optional.imageBase.toNat_lt

/-- **Headers and memory agree on the base**: let an image be mapped by a load, let its optional
header hold all directories, and let the field of the base end in the first page, and in a
section-granular image within the headers. Then a read of the field gives the base that the headers
keep, after the load and after any number of moves, whether they succeed or not. -/
theorem readsBase_of_load (h : image.load file = (loaded, .ok ())) (hp : loaded.pageCount ≠ 0)
    (ho : loaded.layout.size ≤ loaded.file.optionalSize.toNat)
    (hpage : loaded.baseEnd ≤ pageSize)
    (hheaders : loaded.isFlat = false → loaded.baseEnd ≤ loaded.optional.sizeOfHeaders.toNat)
    (bases : List UInt64) : (loaded.run (bases.map .relocate)).ReadsBase := by
  obtain ⟨b, hstored⟩ := (baseStored_of_load h hp ho hpage hheaders).run bases
  exact hstored.readsBase ((Reachable.of_load h).run _).fitsBase

/-- A move, and one to a base that is too large for the narrow headers. -/
theorem readsBase_kindsImage :
    (kindsImage.run ([0x10000000, 0x123456789].map .relocate)).ReadsBase ∧
      kindsImage.isRelocatable 0x10000000 = true ∧
      kindsImage.isRelocatable 0x123456789 = false := by
  have hload : (loadFile kindsFile).2 = .ok () ∧ kindsImage.pageCount ≠ 0 ∧
      kindsImage.layout.size ≤ kindsImage.file.optionalSize.toNat ∧
      kindsImage.baseEnd ≤ pageSize ∧
      (kindsImage.isFlat = false →
        kindsImage.baseEnd ≤ kindsImage.optional.sizeOfHeaders.toNat) ∧
      kindsImage.isRelocatable 0x10000000 = true ∧
      kindsImage.isRelocatable 0x123456789 = false := by
    decide +kernel
  obtain ⟨hok, hp, ho, hpage, hheaders, hmay, hmaynot⟩ := hload
  have h : (empty (.ofVersion .generic)).load kindsFile = (kindsImage, .ok ()) := load_empty_eq hok
  exact ⟨readsBase_of_load h hp ho hpage hheaders _, hmay, hmaynot⟩

end Image

end PeImage
