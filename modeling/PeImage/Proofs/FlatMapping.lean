/-
The memory of a loaded flat image.

* `Image.ShowsFile`: a memory that is the file, laid over it from its start, with zeros behind the
  end of the file and no page without access;
* `FlatLayout.showsFile`: so is the table of a flat image, and `Image.showsFile_of_load`: so is
  every flat image that is loaded and has pages;
* `Image.ShowsFile.flat_eq`, `Image.ShowsFile.isAccessibleAt`: its bytes, and that all of them have
  access; `Image.ShowsFile.beginsWith`, `Image.ShowsFile.behind`: so it begins with the file, and is
  zero behind it;
* `Image.byteAt_of_capture`: in front of the section table that file is the input, and
  `Image.capture_of_lenient`: under the lenient rules so it is as a whole.
-/
import PeImage.Memory.View
import PeImage.Proofs.FlatLayout
import PeImage.Proofs.Outcome
import PeImage.Proofs.Patch
import PeImage.Proofs.TableWalk

namespace PeImage

namespace Image

/-- The memory of the image is the file, as far as both go. -/
structure ShowsFile (image : Image) (file : ByteArray) : Prop where
  /-- There are as many pages as the size in memory asks for. -/
  pageCount_eq : image.pageCount = roundUp image.flatBytes pageSize / pageSize
  /-- A page that begins behind the end of the file is a page of zeros. -/
  zeroPage : ∀ p < image.pageCount, file.size ≤ p * pageSize → image.page? p = some .zero
  /-- Every other page shows the file where it is in memory. -/
  dataPage : ∀ p < image.pageCount, p * pageSize < file.size →
    ∃ page, image.page? p = some page ∧ page.Shows file (p * pageSize) image.flatBytes

end Image

/-! ### The table of a flat image -/

namespace FlatLayout

open Image Region

variable {image : Image} {file : ByteArray} {pages : Array Page}

/-- The pages of a flat image are those of its region. -/
lemma getElem?_flatPages (hl : FlatLayout image.optional) (h : image.flatPages file = some pages) :
    pages.size = roundUp image.flatBytes pageSize / pageSize ∧
      ∀ p, p * pageSize < image.flatBytes →
        pages[p]? = some ((region image).page file image.optional.fileAlignment p) := by
  rw [flatPages_eq] at h
  obtain ⟨⟨table, next⟩, hplace, rfl⟩ := Option.map_eq_some_iff.mp h
  obtain ⟨hsize, hin, -⟩ := getElem?_fill (place_eq_some_iff.mp hplace).1
  constructor
  · rw [hsize, Array.size_replicate, toNat_pagesFor, hl.toNat_flatSize, roundUp,
      Nat.mul_div_cancel _ pageSize_pos]
  · intro p hp
    have hcovers : (region image).Covers p :=
      (hl.isFront.covers_iff (fun hno => by cases hno)).mpr hp
    have hpage := hin p hcovers
    rwa [hl.isFront.firstPage_eq, Nat.sub_zero] at hpage

/-- **The table of a flat image** shows the file. -/
theorem showsFile (hl : FlatLayout image.optional) (h : image.flatPages file = some pages) :
    { image with contents := .mapped pages }.ShowsFile file := by
  obtain ⟨hsize, hget⟩ := hl.getElem?_flatPages h
  have hbound {p : ℕ} (hp : p < pages.size) : p * pageSize < image.flatBytes := by
    rwa [hsize, lt_roundUp_div_iff pageSize_pos] at hp
  constructor
  case pageCount_eq => exact hsize
  case zeroPage =>
    intro p hp hge
    have hpage := hget p (hbound hp)
    rwa [(hl.isFront.page_of_lt file _ (hbound hp)).1 hge] at hpage
  case dataPage =>
    intro p hp hlt
    exact ⟨_, hget p (hbound hp), (hl.isFront.page_of_lt file _ (hbound hp)).2 hlt⟩

end FlatLayout

/-! ### Loads -/

namespace Image

variable {image loaded : Image} {file F : ByteArray}

/-- **The memory of a flat image is its file**: every flat image that is loaded and has pages shows
the file as the capture leaves it. -/
theorem showsFile_of_load (h : image.load file = (loaded, .ok ())) (hp : loaded.pageCount ≠ 0)
    (hf : loaded.isFlat = true) :
    ∃ F, (capture image.config file).2 = .ok F ∧ loaded.ShowsFile F := by
  obtain ⟨captured, F, hc, hl⟩ := loaded_of_load h
  refine ⟨F, congrArg Prod.snd hc, ?_⟩
  cases hl with
  | refused => exact absurd rfl hp
  | flat hm hflat hpages _ =>
      exact (flatLayout_of_capture hc (not_grave_of_isMappable hm) hflat).showsFile hpages
  | placed _ hflat =>
      rw [show captured.isFlat = true from hf] at hflat
      cases hflat
  | abandoned => exact absurd rfl hp

/-! ### The flat view -/

namespace ShowsFile

variable (h : image.ShowsFile file)

include h

lemma tableEnd_eq : image.memory.tableEnd = roundUp image.flatBytes pageSize := by
  show pageSize * image.pageCount = _
  rw [h.pageCount_eq, Nat.mul_comm, roundUp_div_mul]

/-- Every page has access. -/
lemma isAccessible {page : Page} (hpage : page ∈ image.pages) : page.isAccessible = true := by
  obtain ⟨p, hp, rfl⟩ := Array.mem_iff_getElem.mp hpage
  have hget : image.page? p = some image.pages[p] := Array.getElem?_eq_getElem hp
  rcases Nat.lt_or_ge (p * pageSize) file.size with hlt | hge
  · obtain ⟨q, hq, bytes, rfl, -⟩ := h.dataPage p hp hlt
    rw [← Option.some.inj (hq.symm.trans hget)]
    rfl
  · rw [← Option.some.inj ((h.zeroPage p hp hge).symm.trans hget)]
    rfl

lemma isAccessibleAt {r : ℕ} (hr : r < roundUp image.flatBytes pageSize) :
    image.memory.isAccessibleAt r = true := by
  rw [← h.tableEnd_eq, ← Memory.div_lt_size_iff] at hr
  unfold Memory.isAccessibleAt
  rw [Array.getElem?_eq_getElem hr]
  exact h.isAccessible (Array.getElem_mem hr)

/-- **The byte at an address is the byte of the file at that offset**, as far as both go. -/
theorem flat_eq (r : ℕ) : image.memory.flat r =
    if r < min file.size image.flatBytes then byteAt file r else 0 := by
  have hdiv : r / pageSize * pageSize + r % pageSize = r := Nat.div_add_mod' r pageSize
  have hmod : r % pageSize < pageSize := Nat.mod_lt r pageSize_pos
  by_cases hp : r / pageSize < image.pageCount
  · rcases Nat.lt_or_ge (r / pageSize * pageSize) file.size with hlt | hge
    · obtain ⟨page, hpage, bytes, rfl, -, hbyte⟩ := h.dataPage _ hp hlt
      rw [Memory.flat_of_page hpage]
      show byteAt bytes (r % pageSize) = _
      rw [hbyte _ hmod, hdiv]
    · rw [Memory.flat_of_page (h.zeroPage _ hp hge), if_neg (by omega)]
      rfl
  · have hend : roundUp image.flatBytes pageSize ≤ r := by
      rw [← h.tableEnd_eq]
      exact Nat.le_of_not_lt fun hlt => hp ((Memory.div_lt_size_iff _ r).mpr hlt)
    have hle := le_roundUp pageSize_pos image.flatBytes
    rw [Memory.flat_eq_zero (by rwa [h.tableEnd_eq]), if_neg (by omega)]

/-- The memory begins with every buffer that is the front of the file, as far as the image goes. -/
lemma beginsWith_of_byteAt {b : ByteArray}
    (hsize : b.size ≤ min image.alignedSize.toNat image.flatBytes)
    (hb : ∀ r < b.size, byteAt file r = byteAt b r) : image.memory.BeginsWith b := by
  have hle := le_roundUp pageSize_pos image.flatBytes
  rw [le_min_iff] at hsize
  constructor
  case size_le =>
    rw [Memory.reach, h.tableEnd_eq]
    exact le_min hsize.1 (hsize.2.trans hle)
  case accessible => exact fun r hr => h.isAccessibleAt (by omega)
  case flat =>
    intro r hr
    rw [h.flat_eq, ← hb r hr]
    split_ifs with hin
    · rfl
    · exact (byteAt_eq_zero (by omega)).symm

/-- So it begins with the file, where that is not larger than the image. -/
lemma beginsWith (hsize : file.size ≤ min image.alignedSize.toNat image.flatBytes) :
    image.memory.BeginsWith file := h.beginsWith_of_byteAt hsize fun _ _ => rfl

/-- Behind the file, but in front of its own end, the image is zero and has access. -/
lemma behind (hm : image.memory.WellFormed) {a n : ℕ} (ha : file.size ≤ a)
    (hend : a + n ≤ min image.alignedSize.toNat image.flatBytes) :
    image.memory.read a n = zeros n ∧ ∀ r ∈ Set.Ico a (a + n),
      image.memory.isAccessibleAt r = true ∧ image.memory.flat r = 0 := by
  have hle := le_roundUp pageSize_pos image.flatBytes
  have hzero (r : ℕ) (hr : a ≤ r) : image.memory.flat r = 0 := by
    rw [h.flat_eq, if_neg (by omega)]
  rw [le_min_iff] at hend
  have hreach : a + n ≤ image.memory.reach := by
    rw [Memory.reach, h.tableEnd_eq]
    exact le_min hend.1 (hend.2.trans hle)
  constructor
  · have hsize : (image.memory.read a n).size = n :=
      (Memory.size_read_eq_iff hm a n).mpr (.inl hreach)
    refine eq_of_byteAt_eq (hsize.trans (size_zeros n).symm) fun i hi => ?_
    rw [Memory.byteAt_read hm hi, hzero _ (Nat.le_add_right a i), byteAt_zeros]
  · exact fun r hr => ⟨h.isAccessibleAt (hr.2.trans_le (hend.2.trans hle)), hzero r hr.1⟩

lemma uniform (s : Set ℕ) : image.memory.Uniform s := by
  intro r _ q _ _ hq
  have haccess := h.isAccessible (Array.mem_of_getElem? hq)
  cases haccess

end ShowsFile

/-! ### The file behind the capture -/

/-- In front of the section table the capture leaves the file as it is. -/
theorem byteAt_of_capture {config : Config} {captured : Image}
    (h : capture config file = (captured, .ok F)) {r : ℕ} (hr : r < captured.tableOffset) :
    byteAt F r = byteAt file r := by
  refine (readsTable_of_capture h).kept r ?_
  rintro ⟨i, s, -, -, -, hfield, -⟩
  omega

/-- **The lenient rules leave the file as it is.** -/
theorem capture_of_lenient {config : Config} {captured : Image}
    (h : config.clearsEmptyPointers = false) (hc : capture config file = (captured, .ok F)) :
    F = file := by
  refine (readsTable_of_capture hc).lenient ?_
  rw [config_of_capture hc]
  simpa [Config.clearsEmptyPointers] using h

end Image

end PeImage
