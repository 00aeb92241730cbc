/-
Headers in which everything that follows from the rest says so.

Recomputing the headers is a projection onto such images: it leads to one of them, and it leaves
each of them as it is. Nothing is asked of the image in front. Sizes and positions count modulo
`2 ^ 32`, and an alignment that is no power of two stays one that is none.

* `Image.isValid_validAlignment`, `Image.validAlignment_eq_self`: what valid alignments are, and
  that they stay;
* `Image.toNat_sectionsEnd`: the end of the sections, modulo `2 ^ 32`;
* `Image.Consistent`: all derived fields say what follows from the rest, and the raw data of the
  first section begins where the headers end;
* `Image.consistent_makeValid`, `Image.makeValid_eq_self`: where recomputing leads, and what it
  leaves;
* `Image.makeValid_makeValid`: so recomputing twice is recomputing once.
-/
import PeImage.Proofs.History
import PeImage.Proofs.Tiling

namespace PeImage

/-! ### Alignments -/

lemma isPowerOfTwo_sectorSize32 : sectorSize32.toNat.isPowerOfTwo := ⟨9, rfl⟩

namespace Image

variable {alignment unit : UInt32}

/-- A valid alignment is a multiple of the unit, and not zero. -/
lemma isValid_validAlignment (hu : unit.toNat.isPowerOfTwo) (alignment : UInt32) :
    validAlignment alignment unit ≠ 0 ∧
      unit.toNat ∣ (validAlignment alignment unit).toNat := by
  have hpos := Nat.pos_of_isPowerOfTwo hu
  rw [validAlignment]
  split_ifs with hz
  · refine ⟨?_, dvd_rfl⟩
    rintro rfl
    exact absurd hpos (lt_irrefl 0)
  · exact ⟨hz, dvd_toNat_alignUp hu alignment⟩

/-- Such an alignment stays as it is. -/
lemma validAlignment_eq_self (hu : unit.toNat.isPowerOfTwo) (hz : alignment ≠ 0)
    (hd : unit.toNat ∣ alignment.toNat) : validAlignment alignment unit = alignment := by
  rw [validAlignment, (alignUp_eq_self_iff hu).mpr hd, if_neg hz]

/-! ### The end of the sections -/

/-- The end of sections behind headers that end at `start`, each rounded up for itself. -/
lemma toNat_sectionsEnd (sections : List SectionHeader) (start alignment : UInt32) :
    (sectionsEnd sections start alignment).toNat = (start.toNat +
      Tiles.total (fun s => (alignUp s.virtualSize alignment).toNat) sections) % UInt32.size := by
  induction sections generalizing start with
  | nil =>
      show start.toNat = (start.toNat + 0) % UInt32.size
      exact (Nat.mod_eq_of_lt start.toNat_lt).symm
  | cons s rest ih =>
      show (sectionsEnd rest (start + alignUp s.virtualSize alignment) alignment).toNat = _
      rw [ih, UInt32.toNat_add, Tiles.total_cons, ← Nat.add_assoc]
      exact Nat.mod_add_mod _ _ _

/-! ### Consistent headers -/

end Image

/-- The processor that recomputed headers name. -/
def Layout.machine : Layout → UInt16
  | .narrow => Machine.i386
  | .wide => Machine.amd64

/-- A section whose raw data is `shift` bytes further on. -/
def SectionHeader.moveData (shift : UInt32) (s : SectionHeader) : SectionHeader :=
  { s with rawPointer := s.rawPointer + shift }

namespace Image

/-- Where the declared section table ends. -/
def declaredEnd (image : Image) : ℕ :=
  image.tableOffset + image.file.sectionCount.toNat * SectionHeader.size

/-- The headers and all sections in memory, each rounded up for itself. -/
def memorySum (image : Image) : ℕ :=
  (alignUp image.optional.sizeOfHeaders image.optional.sectionAlignment).toNat +
    Tiles.total (fun s => (alignUp s.virtualSize image.optional.sectionAlignment).toNat)
      image.sections

/-- Everything in the headers that follows from the rest says what follows from it. -/
structure Consistent (image : Image) : Prop where
  ntSignature : image.ntSignature = ntSignatureValue
  machine : image.file.machine = image.layout.machine
  sectionCount : image.file.sectionCount = .ofNat image.sections.length
  optionalSize : image.file.optionalSize.toNat = image.layout.size
  characteristics : image.file.characteristics ≠ 0
  magic : image.optional.magic = image.layout.magic
  directoryCount : image.optional.directoryCount.toNat = DirectoryKind.count
  sectionAlignment_ne_zero : image.optional.sectionAlignment ≠ 0
  dvd_sectionAlignment : pageSize ∣ image.optional.sectionAlignment.toNat
  fileAlignment_ne_zero : image.optional.fileAlignment ≠ 0
  dvd_fileAlignment : sectorSize32.toNat ∣ image.optional.fileAlignment.toNat
  sizeOfHeaders : image.optional.sizeOfHeaders =
    alignUp (.ofNat image.declaredEnd) image.optional.fileAlignment
  sizeOfImage : image.optional.sizeOfImage =
    alignUp (.ofNat image.memorySum) image.optional.sectionAlignment
  data : ∀ first, image.sections.head? = some first →
    first.rawPointer = image.optional.sizeOfHeaders

/-! ### Recomputing -/

variable (image : Image)

/-- The size of image that an image with such headers and sections should have. -/
lemma sectionsEnd_eq : sectionsEnd image.sections
    (alignUp image.optional.sizeOfHeaders image.optional.sectionAlignment)
      image.optional.sectionAlignment = .ofNat image.memorySum := by
  refine UInt32.toNat_inj.mp ?_
  rw [toNat_sectionsEnd, UInt32.toNat_ofNat']
  rfl

/-- Where raw data is does not matter to the memory. -/
lemma sectionsEnd_moveData (sections : List SectionHeader) (shift start alignment : UInt32) :
    sectionsEnd (sections.map (·.moveData shift)) start alignment =
      sectionsEnd sections start alignment := List.foldl_map

/-- How far recomputing moves the raw data of all sections. -/
def dataShift : UInt32 :=
  match image.sections.head? with
  | some first => image.makeValid.optional.sizeOfHeaders - first.rawPointer
  | none => 0

lemma sections_makeValid :
    image.makeValid.sections = image.sections.map (·.moveData image.dataShift) := by
  rw [dataShift]
  unfold makeValid
  cases image.sections <;> rfl

/-- The raw data of the first section begins where the recomputed headers end. -/
lemma rawPointer_makeValid {first : SectionHeader}
    (h : image.makeValid.sections.head? = some first) :
    first.rawPointer = image.makeValid.optional.sizeOfHeaders := by
  rw [sections_makeValid, List.head?_map] at h
  obtain ⟨s, hs, rfl⟩ := Option.map_eq_some_iff.mp h
  show s.rawPointer + image.dataShift = _
  simp only [dataShift, hs]
  rw [UInt32.add_comm]
  exact UInt32.sub_add_cancel _ _

lemma machine_validFileHeader (n : ℕ) :
    (image.validFileHeader n).machine = image.layout.machine := by
  cases h : image.layout <;> simp [validFileHeader, Layout.machine, h]

lemma layout_makeValid : image.makeValid.layout = image.layout :=
  (EditedFrom.makeValid image).layout

/-- **Recomputing leads to consistent headers**, whatever they were. -/
theorem consistent_makeValid : image.makeValid.Consistent where
  ntSignature := rfl
  machine := by
    rw [layout_makeValid]
    exact machine_validFileHeader image image.sections.length
  sectionCount := by
    rw [sections_makeValid, List.length_map]
    rfl
  optionalSize := by
    rw [layout_makeValid]
    show (UInt16.ofNat image.layout.size).toNat = _
    cases image.layout <;> rfl
  characteristics := by
    show (if image.file.characteristics = 0 then _ else image.file.characteristics) ≠ 0
    split_ifs with hz
    · decide
    · exact hz
  magic := by
    rw [layout_makeValid]
    rfl
  directoryCount := rfl
  sectionAlignment_ne_zero := (isValid_validAlignment isPowerOfTwo_pageSize32 _).1
  dvd_sectionAlignment := (isValid_validAlignment isPowerOfTwo_pageSize32 _).2
  fileAlignment_ne_zero := (isValid_validAlignment isPowerOfTwo_sectorSize32 _).1
  dvd_fileAlignment := (isValid_validAlignment isPowerOfTwo_sectorSize32 _).2
  sizeOfHeaders := rfl
  sizeOfImage := by
    rw [← sectionsEnd_eq, sections_makeValid, sectionsEnd_moveData]
    rfl
  data _ := image.rawPointer_makeValid

variable {image}

lemma validFileHeader_eq_self (h : image.Consistent) :
    image.validFileHeader image.sections.length = image.file := by
  have hsize : UInt16.ofNat image.layout.size = image.file.optionalSize := by
    rw [← h.optionalSize, UInt16.ofNat_toNat]
  have hflags : (image.validFileHeader image.sections.length).characteristics =
      image.file.characteristics := if_neg h.characteristics
  calc image.validFileHeader image.sections.length = { image.file with
        machine := (image.validFileHeader image.sections.length).machine
        sectionCount := .ofNat image.sections.length
        optionalSize := .ofNat image.layout.size
        characteristics := (image.validFileHeader image.sections.length).characteristics } := rfl
    _ = image.file := by
      rw [machine_validFileHeader, ← h.machine, ← h.sectionCount, hsize, hflags]

/-- No raw data moves where that of the first section begins where the headers end. -/
lemma map_moveData_eq_self (h : ∀ first, image.sections.head? = some first →
    first.rawPointer = image.makeValid.optional.sizeOfHeaders) :
    image.sections.map (·.moveData image.dataShift) = image.sections := by
  cases hs : image.sections with
  | nil => rfl
  | cons first rest =>
      have hhead : image.sections.head? = some first := by rw [hs]; rfl
      have hshift : image.dataShift = 0 := by
        simp only [dataShift, hhead, h first hhead, UInt32.sub_self]
      rw [hshift]
      refine List.map_id'' (fun s => ?_) _
      rw [SectionHeader.moveData, UInt32.add_zero]

/-- **Consistent headers stay as they are.** -/
theorem makeValid_eq_self (h : image.Consistent) : image.makeValid = image := by
  have hfile := validFileHeader_eq_self h
  have hsa := validAlignment_eq_self isPowerOfTwo_pageSize32 h.sectionAlignment_ne_zero
    h.dvd_sectionAlignment
  have hfa := validAlignment_eq_self isPowerOfTwo_sectorSize32 h.fileAlignment_ne_zero
    h.dvd_fileAlignment
  have hcount : UInt32.ofNat DirectoryKind.count = image.optional.directoryCount :=
    UInt32.toNat_inj.mp h.directoryCount.symm
  have htable : alignUp (image.tableEnd image.file) image.optional.fileAlignment =
      image.optional.sizeOfHeaders := h.sizeOfHeaders.symm
  have hheaders : image.makeValid.optional.sizeOfHeaders = image.optional.sizeOfHeaders := by
    show alignUp (image.tableEnd (image.validFileHeader image.sections.length))
      (validAlignment image.optional.fileAlignment sectorSize32) = _
    rw [hfile, hfa, htable]
  have hsections := map_moveData_eq_self (hheaders ▸ h.data)
  have hend : image.makeValid.optional.sizeOfImage = image.optional.sizeOfImage := by
    show alignUp (sectionsEnd image.sections (alignUp image.makeValid.optional.sizeOfHeaders
      (validAlignment image.optional.sectionAlignment pageSize32)) _) _ = _
    rw [hsa, hheaders, sectionsEnd_eq, h.sizeOfImage]
  calc image.makeValid = { image with
        ntSignature := ntSignatureValue
        file := image.validFileHeader image.sections.length
        optional := { image.optional with
          magic := image.layout.magic
          directoryCount := .ofNat DirectoryKind.count
          sectionAlignment := validAlignment image.optional.sectionAlignment pageSize32
          fileAlignment := validAlignment image.optional.fileAlignment sectorSize32
          sizeOfHeaders := image.makeValid.optional.sizeOfHeaders
          sizeOfImage := image.makeValid.optional.sizeOfImage }
        sections := image.makeValid.sections } := rfl
    _ = image := by
      rw [hsa, hfa, hfile, hcount, hheaders, hend, sections_makeValid, hsections, ← h.ntSignature,
        ← h.magic]

/-- **Recomputing is a projection onto consistent headers**: exactly those stay as they are, and
recomputing twice is recomputing once. -/
theorem makeValid_makeValid (image : Image) :
    image.makeValid.makeValid = image.makeValid ∧
      (image.makeValid = image ↔ image.Consistent) := by
  refine ⟨makeValid_eq_self image.consistent_makeValid, ?_, makeValid_eq_self⟩
  intro h
  exact h ▸ image.consistent_makeValid

end Image

end PeImage
