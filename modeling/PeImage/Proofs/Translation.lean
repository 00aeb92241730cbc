/-
Translation of addresses to file offsets, against the pages of the image.

The pages are built from regions, the translation searches the section table. Both find the section
of an address, since no two sections share one, and both then count from the sector in which its
data begins.

* `Image.ShowsLayout.flat_header`, `Image.ShowsLayout.flat_section`: the bytes of the memory behind
  the pages;
* `GranularLayout.eq_of_inMemory`: an address lies in one section at most, and
  `Image.find?_spans`: so the search finds it;
* `Image.IsFileBacked`: the addresses whose bytes come from the file;
* `Image.read_eq_byteAt_fileOffset?`: a read at such an address begins with the byte at the
  translated offset.
-/
import PeImage.Image.Access
import PeImage.Memory.View
import PeImage.Proofs.Oversize

namespace PeImage

/-! ### Pages as memory -/

namespace Page.Shows

variable {page : Page} {file : ByteArray} {off stop : ℕ}

lemma wellFormed (h : page.Shows file off stop) : page.WellFormed := by
  obtain ⟨bytes, rfl, hsize, -⟩ := h
  exact hsize

lemma byte (h : page.Shows file off stop) {k : ℕ} (hk : k < pageSize) (hstop : off + k < stop) :
    page.byte k = byteAt file (off + k) := by
  obtain ⟨bytes, rfl, -, hbytes⟩ := h
  refine (hbytes k hk).trans ?_
  by_cases hfile : off + k < file.size
  · simp [hfile, hstop]
  · simp [hfile, byteAt_eq_zero (Nat.le_of_not_lt hfile)]

end Page.Shows

namespace Image

variable {image : Image} {file : ByteArray}

/-- An image with pages is read from its memory. -/
lemma read_of_pageCount (hp : image.pageCount ≠ 0) (a : UInt32) (n : ℕ) :
    image.read a n = image.memory.read a.toNat n := by
  unfold pageCount pages at hp
  unfold read memory pages
  cases hc : image.contents with
  | mapped pages => rfl
  | raw file => simp [hc] at hp
  | unmapped => simp [hc] at hp

namespace ShowsLayout

/-- Every page in the closed form is as long as a page. -/
lemma wellFormed (h : image.ShowsLayout file) : image.memory.WellFormed := by
  intro page hpage
  obtain ⟨p, hp, hget⟩ := Array.mem_iff_getElem.mp hpage
  have hpage? : image.page? p = some page :=
    (Array.getElem?_eq_getElem hp).trans (congrArg some hget)
  by_cases hheader : p * pageSize < image.headerBytes
  · obtain ⟨q, hq, hzero, hshow⟩ := h.header p hheader
    obtain rfl := Option.some.inj (hq.symm.trans hpage?)
    rcases Nat.lt_or_ge (p * pageSize) file.size with hlt | hge
    · exact (hshow hlt).wellFormed
    · rw [hzero hge]
      trivial
  · by_cases hin : ∃ s ∈ image.sections, s.protection ≠ .noAccess ∧ s.inMemory (p * pageSize)
    · obtain ⟨s, hs, hacc, hmem⟩ := hin
      obtain ⟨q, hq, hshow, hzero⟩ := h.sectionPage s hs hacc p hmem
      obtain rfl := Option.some.inj (hq.symm.trans hpage?)
      by_cases hb : s.Backs file (p * pageSize - s.virtualAddress.toNat)
      · exact (hshow hb).wellFormed
      · rw [hzero hb]
        trivial
    · have hnone := h.inaccessible p hp (Nat.le_of_not_lt hheader)
        fun s hs hacc hmem => hin ⟨s, hs, hacc, hmem⟩
      obtain rfl := Option.some.inj (hnone.symm.trans hpage?)
      trivial

/-- The memory of the headers is the front of the file. -/
lemma flat_header (h : image.ShowsLayout file) {a : ℕ} (ha : a < image.headerBytes) :
    image.memory.flat a = byteAt file a := by
  have hdiv : a / pageSize * pageSize + a % pageSize = a := Nat.div_add_mod' a pageSize
  have hmod : a % pageSize < pageSize := Nat.mod_lt a pageSize_pos
  obtain ⟨page, hpage, hzero, hshow⟩ := h.header (a / pageSize) (by omega)
  rw [Memory.flat_of_page hpage]
  rcases Nat.lt_or_ge (a / pageSize * pageSize) file.size with hlt | hge
  · rw [(hshow hlt).byte hmod (by omega), hdiv]
  · rw [hzero hge, byteAt_eq_zero (by omega)]
    rfl

/-- The memory of a section is its data from the sector on in which they begin. -/
lemma flat_section (h : image.ShowsLayout file) (hfa : 0 < image.optional.fileAlignment.toNat)
    {s : SectionHeader} (hs : s ∈ image.sections) (hacc : s.protection ≠ .noAccess)
    (hd : pageSize ∣ s.virtualAddress.toNat) (hptr : s.rawPointer ≠ 0) {a : ℕ}
    (hlow : s.virtualAddress.toNat ≤ a)
    (hraw : a - s.virtualAddress.toNat < min s.rawSize.toNat s.effectiveSize.toNat) :
    image.memory.flat a = byteAt file (s.sectorStart + (a - s.virtualAddress.toNat)) := by
  have hdiv : a / pageSize * pageSize + a % pageSize = a := Nat.div_add_mod' a pageSize
  have hmod : a % pageSize < pageSize := Nat.mod_lt a pageSize_pos
  have hpage : s.virtualAddress.toNat ≤ a / pageSize * pageSize := by
    obtain ⟨q, hq⟩ := hd
    rw [hq, Nat.mul_comm] at hlow ⊢
    exact Nat.mul_le_mul_right pageSize ((Nat.le_div_iff_mul_le pageSize_pos).mpr hlow)
  have hbacked : a - s.virtualAddress.toNat < s.backedSize := by
    have := s.effectiveSize_le
    rw [SectionHeader.backedSize]
    omega
  have hround : s.backedSize ≤ roundUp s.backedSize pageSize := le_roundUp pageSize_pos _
  have hin : s.inMemory (a / pageSize * pageSize) := by
    have := s.effectiveSize_le
    refine ⟨hpage, ?_⟩
    omega
  obtain ⟨page, hpage?, hshow, hzero⟩ := h.sectionPage s hs hacc _ hin
  rw [Memory.flat_of_page hpage?]
  have hoff : s.sectorStart + (a / pageSize * pageSize - s.virtualAddress.toNat) + a % pageSize =
      s.sectorStart + (a - s.virtualAddress.toNat) := by omega
  by_cases hb : s.Backs file (a / pageSize * pageSize - s.virtualAddress.toNat)
  · have hend : s.rawPointer.toNat + s.backedSize ≤ s.shownEnd image.optional.fileAlignment :=
      le_roundUp hfa _
    have hsector : s.sectorStart ≤ s.rawPointer.toNat := Nat.div_mul_le_self _ _
    rw [(hshow hb).byte hmod (by omega), hoff]
  · -- what keeps the page from being backed is the end of the file
    have hfile : file.size ≤
        s.sectorStart + (a / pageSize * pageSize - s.virtualAddress.toNat) := by
      by_contra hlt
      exact hb ⟨hptr, by omega, by omega⟩
    rw [hzero hb, byteAt_eq_zero (by omega)]
    rfl

end ShowsLayout

end Image

/-! ### The search -/

namespace GranularLayout

variable {h : OptionalHeader} {sections : List SectionHeader}

/-- An address lies in the memory of one section at most. -/
lemma eq_of_inMemory (hl : GranularLayout h sections)
    (hx : ∀ s ∈ sections, s.extent h.sectionAlignment < UInt32.size) :
    ∀ s ∈ sections, ∀ t ∈ sections, ∀ a, s.inMemory a → t.inMemory a → s = t := by
  have hdisjoint : sections.Pairwise fun s t => ∀ a, s.inMemory a → ¬ t.inMemory a := by
    refine hl.tiles.pairwise.imp_of_mem ?_
    intro s t hs _ hle a ha hb
    have hmem := hl.memorySize_le_counted (hx s hs)
    have hbehind := ha.2
    have hlow := hb.1
    omega
  have hone : sections.Pairwise fun s t => ∀ a, s.inMemory a → t.inMemory a → s = t :=
    hdisjoint.imp fun hd a ha hb => absurd hb (hd a ha)
  have hflip : sections.Pairwise (flip fun s t => ∀ a, s.inMemory a → t.inMemory a → s = t) :=
    hdisjoint.imp fun hd a ha hb => absurd ha (hd a hb)
  intro s hs t ht
  exact hone.forall_of_forall_of_flip (fun _ _ _ _ _ => rfl) hflip hs ht

end GranularLayout

namespace Image

variable {image : Image}

section

variable (hl : GranularLayout image.optional image.sections) {s : SectionHeader}
  (hs : s ∈ image.sections)

include hl hs

/-- Sections are where their headers say, for they are aligned. -/
lemma span_address : (image.span s).address = s.virtualAddress := by
  have hsa : image.optional.sectionAlignment ≠ 0 := by
    intro h0
    have hpos := hl.sectionAlignment_pos
    simp [h0] at hpos
  have hround : roundUp s.virtualAddress.toNat image.optional.sectionAlignment.toNat =
      s.virtualAddress.toNat := roundUp_of_dvd hl.sectionAlignment_pos (hl.dvd_virtualAddress hs)
  simp only [span, hsa, ne_eq, not_false_eq_true, if_true]
  refine UInt32.toNat_inj.mp ?_
  rw [toNat_alignUp_of_lt hl.isPowerOfTwo_sectionAlignment, hround]
  rw [hround]
  exact s.virtualAddress.toNat_lt

lemma containsAddress_iff (a : UInt32) : (image.span s).containsAddress a = true ↔
    s.virtualAddress.toNat ≤ a.toNat ∧
      a.toNat < s.virtualAddress.toNat + s.effectiveSize.toNat := by
  rw [Span.containsAddress, Bool.and_eq_true, decide_eq_true_iff, decide_eq_true_iff,
    span_address hl hs, UInt32.le_iff_toNat_le]
  rfl

end

/-- The search finds the section of an address. -/
lemma find?_spans (hl : GranularLayout image.optional image.sections)
    (hx : ∀ s ∈ image.sections, s.extent image.optional.sectionAlignment < UInt32.size)
    {s : SectionHeader} (hs : s ∈ image.sections) (hb : isBacked s = true) {a : UInt32}
    (hlow : s.virtualAddress.toNat ≤ a.toNat)
    (hhigh : a.toNat < s.virtualAddress.toNat + s.effectiveSize.toNat) :
    image.spans.find? (·.containsAddress a) = some (image.span s) := by
  have hmem : image.span s ∈ image.spans :=
    List.mem_map_of_mem (List.mem_filter.mpr ⟨hs, hb⟩)
  have hcontains := (containsAddress_iff hl hs a).mpr ⟨hlow, hhigh⟩
  cases hfind : image.spans.find? (·.containsAddress a) with
  | none => exact absurd hcontains (List.find?_eq_none.mp hfind _ hmem)
  | some found =>
      obtain ⟨t, ht, rfl⟩ := List.mem_map.mp (List.mem_of_find?_eq_some hfind)
      have htmem := (List.mem_filter.mp ht).1
      have htcontains : (image.span t).containsAddress a = true := by
        simpa using List.find?_some hfind
      obtain ⟨htlow, hthigh⟩ := (containsAddress_iff hl htmem a).mp htcontains
      have hsize := s.effectiveSize_le
      have htsize := t.effectiveSize_le
      rw [hl.eq_of_inMemory hx s hs t htmem a.toNat ⟨hlow, by omega⟩ ⟨htlow, by omega⟩]

/-- In the headers, addresses are offsets. -/
lemma fileOffset?_header (hl : GranularLayout image.optional image.sections) {a : UInt32}
    (ha : a < image.optional.sizeOfHeaders) : image.fileOffset? a = some a := by
  have hnone : image.spans.find? (·.containsAddress a) = none := by
    rw [List.find?_eq_none]
    intro found hfound hcontains
    obtain ⟨t, ht, rfl⟩ := List.mem_map.mp hfound
    have htmem := (List.mem_filter.mp ht).1
    -- sections begin behind the headers
    have hlow := ((containsAddress_iff hl htmem a).mp hcontains).1
    have hbounds := (hl.bounds htmem).1
    have hround := le_roundUp hl.sectionAlignment_pos image.optional.sizeOfHeaders.toNat
    have hlt := UInt32.lt_iff_toNat_lt.mp ha
    omega
  rw [fileOffset?, hnone]
  simp [identity?, ha]

/-- In a section with data, offsets count from the sector in which they begin. -/
lemma fileOffset?_section (hl : GranularLayout image.optional image.sections)
    (hx : ∀ s ∈ image.sections, s.extent image.optional.sectionAlignment < UInt32.size)
    (hf : image.isFlat = false) {s : SectionHeader} (hs : s ∈ image.sections)
    (hptr : s.rawPointer ≠ 0) (hsize : s.rawSize ≠ 0) {a : UInt32}
    (hlow : s.virtualAddress.toNat ≤ a.toNat)
    (hraw : a.toNat - s.virtualAddress.toNat < min s.rawSize.toNat s.effectiveSize.toNat) :
    ∃ o, image.fileOffset? a = some o ∧
      o.toNat = s.sectorStart + (a.toNat - s.virtualAddress.toNat) := by
  have hb : isBacked s = true := by simp [isBacked, hptr, hsize]
  refine ⟨_, by rw [fileOffset?, find?_spans hl hx hs hb hlow (by omega)], ?_⟩
  have hstart : (image.span s).offset.toNat = s.sectorStart := by
    simp only [span, dataStart, hf, Bool.false_eq_true, if_false]
    exact s.toNat_dataStart
  have hdata := (hl.sound s hs).data_lt hsize
  have hsector : s.sectorStart ≤ s.rawPointer.toNat := Nat.div_mul_le_self _ _
  rw [UInt32.toNat_add, hstart, span_address hl hs,
    UInt32.toNat_sub_of_le _ _ (UInt32.le_iff_toNat_le.mpr hlow)]
  exact Nat.mod_eq_of_lt (by simp only [UInt32.size] at hdata; omega)

/-! ### Agreement -/

/-- An address whose byte comes from the file: it lies in the headers, or in a section with data, in
front of the end of both its data and its size. -/
def IsFileBacked (image : Image) (a : UInt32) : Prop :=
  a < image.optional.sizeOfHeaders ∨ ∃ s ∈ image.sections, s.rawPointer ≠ 0 ∧ s.rawSize ≠ 0 ∧
    s.virtualAddress ≤ a ∧
      a.toNat - s.virtualAddress.toNat < min s.rawSize.toNat s.effectiveSize.toNat

instance (image : Image) (a : UInt32) : Decidable (image.IsFileBacked a) := by
  unfold IsFileBacked
  infer_instance

/-- Reads reach to the end of the image. -/
lemma ShowsLayout.reach_eq {F : ByteArray} (h : image.ShowsLayout F)
    (hl : GranularLayout image.optional image.sections) :
    image.memory.reach = roundUp image.optional.sizeOfImage.toNat pageSize := by
  have hlimit : image.memory.limit = roundUp image.optional.sizeOfImage.toNat pageSize :=
    hl.toNat_alignUp_sizeOfImage
  have hend : image.memory.tableEnd = pageSize * image.pageCount := rfl
  rw [Memory.reach, hlimit, hend, h.pageCount_eq, Nat.mul_comm, roundUp_div_mul, Nat.min_self]

/-- A read at an address of the image begins with the byte of the memory there. -/
lemma ShowsLayout.read_of_lt {F : ByteArray} (h : image.ShowsLayout F)
    (hl : GranularLayout image.optional image.sections) {a : UInt32}
    (ha : a.toNat < roundUp image.optional.sizeOfImage.toNat pageSize) {n : ℕ} (hn : 0 < n) :
    0 < (image.read a n).size ∧ byteAt (image.read a n) 0 = image.memory.flat a.toNat := by
  have hp : image.pageCount ≠ 0 := by
    rw [h.pageCount_eq]
    exact (tableSize_pos hl).ne'
  rw [read_of_pageCount hp]
  have hsize : 0 < (image.memory.read a.toNat n).size := by
    rw [Memory.size_read h.wellFormed, h.reach_eq hl]
    omega
  exact ⟨hsize, Memory.byteAt_read h.wellFormed hsize⟩

/-- **Translation agrees with the pages**: in a mapped section-granular image whose sections all
have access, an address whose byte comes from the file has an offset, and a read there begins with
the byte of the file at that offset, or with a zero behind its end. -/
theorem read_eq_byteAt_fileOffset? {file : ByteArray} {loaded : Image} {a : UInt32}
    (h : image.load file = (loaded, .ok ())) (hm : loaded.isMapped = true)
    (hsa : pageSize ≤ loaded.optional.sectionAlignment.toNat)
    (hacc : ∀ s ∈ loaded.sections, s.protection ≠ .noAccess) (ha : loaded.IsFileBacked a) :
    ∃ F o, (capture image.config file).2 = .ok F ∧ loaded.fileOffset? a = some o ∧
      ∀ n, 0 < n → 0 < (loaded.read a n).size ∧
        byteAt (loaded.read a n) 0 = if o.toNat < F.size then byteAt F o.toNat else 0 := by
  obtain ⟨hl, hfits, F, hF, hshow⟩ := granularLayout_of_isMapped h hm hsa
  have hx : ∀ s ∈ loaded.sections, s.extent loaded.optional.sectionAlignment < UInt32.size := by
    intro s hs
    exact hfits s hs (hacc s hs)
  have hbyte (o : UInt32) :
      (if o.toNat < F.size then byteAt F o.toNat else 0) = byteAt F o.toNat := by
    split_ifs with hlt
    · rfl
    · exact (byteAt_eq_zero (Nat.le_of_not_lt hlt)).symm
  rcases ha with ha | ⟨s, hs, hptr, hraw, hlow, hd⟩
  · have hlt := UInt32.lt_iff_toNat_lt.mp ha
    have himage : a.toNat < roundUp loaded.optional.sizeOfImage.toNat pageSize :=
      calc a.toNat < loaded.optional.sizeOfHeaders.toNat := hlt
        _ ≤ loaded.optional.sizeOfImage.toNat := UInt32.le_iff_toNat_le.mp hl.sizeOfHeaders_le
        _ ≤ roundUp loaded.optional.sizeOfImage.toNat pageSize := le_roundUp pageSize_pos _
    refine ⟨F, a, hF, fileOffset?_header hl ha, ?_⟩
    intro n hn
    obtain ⟨hsize, hread⟩ := hshow.read_of_lt hl himage hn
    rw [hbyte, hread, hshow.flat_header (lt_of_lt_of_le hlt (sizeOfHeaders_le_headerBytes hl))]
    exact ⟨hsize, rfl⟩
  · have hlow' := UInt32.le_iff_toNat_le.mp hlow
    have himage : a.toNat < roundUp loaded.optional.sizeOfImage.toNat pageSize := by
      have hend := (hl.bounds hs).2
      have hmem := hl.memorySize_le_counted (hx s hs)
      have hsize := s.effectiveSize_le
      omega
    have hfa := Nat.pos_of_isPowerOfTwo hl.isPowerOfTwo_fileAlignment
    obtain ⟨o, ho, hoff⟩ := fileOffset?_section hl hx (isFlat_eq_false_iff.mpr hsa) hs hptr hraw
      hlow' hd
    refine ⟨F, o, hF, ho, ?_⟩
    intro n hn
    obtain ⟨hsize, hread⟩ := hshow.read_of_lt hl himage hn
    rw [hbyte, hread, hoff, hshow.flat_section hfa hs (hacc s hs)
      (hl.pageSize_dvd_virtualAddress hs) hptr hlow' hd]
    exact ⟨hsize, rfl⟩

/-- In the first sector of the data of the section, addresses count from the start of the file. -/
theorem read_dataFile : ∃ F o,
    (capture (.ofVersion .generic) dataFile).2 = .ok F ∧
      (loadFile dataFile).1.fileOffset? 0x1007 = some o ∧
        ∀ n, 0 < n → 0 < ((loadFile dataFile).1.read 0x1007 n).size ∧
          byteAt ((loadFile dataFile).1.read 0x1007 n) 0 =
            if o.toNat < F.size then byteAt F o.toNat else 0 := by
  have hload : (loadFile dataFile).2 = .ok () ∧ (loadFile dataFile).1.isMapped = true ∧
      pageSize ≤ (loadFile dataFile).1.optional.sectionAlignment.toNat ∧
      (∀ s ∈ (loadFile dataFile).1.sections, s.protection ≠ .noAccess) ∧
      (loadFile dataFile).1.IsFileBacked 0x1007 := by
    decide +kernel
  have hconfig : (empty (.ofVersion .generic)).config = .ofVersion .generic := rfl
  have hread := read_eq_byteAt_fileOffset? (load_empty_eq hload.1) hload.2.1 hload.2.2.1
    hload.2.2.2.1 hload.2.2.2.2
  rwa [hconfig] at hread

end Image

end PeImage
