/-
Translation of addresses and offsets in a flat image.

The memory of a flat image is its file, and its sections lie in memory where they lie in the file,
so every address should be its own offset. The search looks for a section from the next multiple of
the section alignment on, but takes its offset as it is: behind a section that begins between two
multiples, addresses and offsets are apart.

* `Image.sectionsObey_of_capture`: a capture that records nothing found all sections in order, and
  `Image.virtualAddress_of_flatRules`: so a flat section has its data where it is in memory;
* `Image.sectionAt?`, `Image.sectionOf?`: the section in which the search finds an address, and
  that in which it finds an offset;
* `Image.translation_of_load`: an address, or an offset, is translated to itself exactly if that
  section begins at a multiple of the section alignment;
* `Image.translation_shiftedFile`: a file in which one does not.
-/
import PeImage.Image.Span
import PeImage.Proofs.FlatImage

namespace PeImage

/-! ### Nothing recorded -/

lemma Latch.record_ne_empty (l : Latch) (d : Diagnostic) : l.record d ≠ {} := by
  intro h
  cases l with
  | mk first => cases first <;> cases h

/-- The register stays empty exactly if it was and no rule is violated. -/
lemma Latch.check_eq_empty_iff {l : Latch} {rules : List (Bool × Diagnostic)} :
    l.check rules = {} ↔ l = {} ∧ Obeyed rules := by
  constructor
  · intro h
    cases l with
    | mk first =>
      cases first with
      | none =>
          refine ⟨rfl, fun r hr => ?_⟩
          have hfind : rules.find? (·.1) = none := by
            simpa [check, recordAny] using h
          simpa using List.find?_eq_none.mp hfind r hr
      | some d => cases h
  · rintro ⟨rfl, ho⟩
    exact check_of_obeyed ho _

namespace Image

variable {image captured loaded : Image} {file F : ByteArray}

lemma latch_eq_empty_iff : image.latch = {} ↔ image.problem? = none := by
  rw [problem?]
  cases image.latch with
  | mk first => simp

/-- Sections that leave the register empty obey their rules. -/
lemma verifyFrom_eq_empty {fileSize : ℕ} {l : Latch} {f : Frontier} {index : ℕ}
    {sections : List SectionHeader} (h : (image.verifyFrom fileSize l f index sections).1 = {}) :
    l = {} ∧ image.SectionsObey fileSize f index sections := by
  induction sections generalizing l f index with
  | nil => exact ⟨h, trivial⟩
  | cons s rest ih =>
      obtain ⟨hcheck, hrest⟩ := ih h
      obtain ⟨hl, hs⟩ := Latch.check_eq_empty_iff.mp hcheck
      exact ⟨hl, hs, hrest⟩

/-- **Sections in order**: those of a capture that records nothing obey their rules. -/
theorem sectionsObey_of_capture {config : Config} (hc : capture config file = (captured, .ok F))
    (hp : captured.latch = {}) :
    captured.SectionsObey F.size captured.firstFrontier 0 captured.sections := by
  obtain ⟨-, nt, -, ht⟩ := capture_ok hc
  dsimp only [captureSectionTable] at ht
  split_ifs at ht
  · -- a table behind the end of the file is recorded
    obtain ⟨rfl, -⟩ := Prod.mk.inj ht
    exact absurd hp (Latch.record_ne_empty _ _)
  · obtain ⟨rfl, rfl⟩ := Prod.mk.inj ht
    rw [verifySections_eq] at hp ⊢
    obtain ⟨hv, -⟩ := Latch.check_eq_empty_iff.mp hp
    exact (sectionsObey_latch _ _ _ _ _ _).mpr (verifyFrom_eq_empty hv).2

/-- Every section of a flat image obeys the same rules, wherever it stands in the table. -/
lemma SectionsObey.flatRules {fileSize : ℕ} {f : Frontier} {index : ℕ}
    {sections : List SectionHeader} (hf : image.isFlat = true)
    (h : image.SectionsObey fileSize f index sections) :
    ∀ s ∈ sections, Obeyed (flatRules s) := by
  induction sections generalizing f index with
  | nil => simp
  | cons s rest ih =>
      obtain ⟨hs, hrest⟩ := h
      rw [sectionRules, if_pos hf] at hs
      exact List.forall_mem_cons.mpr ⟨hs, ih hrest⟩

/-- A flat section with data lies in memory where it lies in the file. -/
lemma virtualAddress_of_flatRules {s : SectionHeader} (h : Obeyed (flatRules s))
    (hb : isBacked s = true) : s.virtualAddress = s.rawPointer := by
  have hraw : s.rawSize ≠ 0 := by
    rw [isBacked, Bool.and_eq_true] at hb
    exact bne_iff_ne.mp hb.2
  have hrule := h _ (List.mem_cons_of_mem _ (List.mem_singleton_self _))
  rw [Bool.or_eq_false_iff, bne_eq_false_iff_eq, SectionHeader.dataPointer, if_pos hraw] at hrule
  exact hrule.1

/-- The rules that a loaded flat image has been through, when no problem is recorded: the headers
have a layout, and every section with data lies in memory where it lies in the file. -/
lemma flatSections_of_load (h : image.load file = (loaded, .ok ())) (hp : loaded.problem? = none)
    (hf : loaded.isFlat = true) : loaded.optional.sectionAlignment.toNat.isPowerOfTwo ∧
      ∀ s ∈ loaded.sections, isBacked s = true → s.virtualAddress = s.rawPointer := by
  obtain ⟨captured, F, hc, hl⟩ := loaded_of_load h
  have hcflat : captured.isFlat = true := by
    rw [hl.frame] at hf
    exact hf
  have hempty : captured.latch = {} := by
    rw [← latch_eq_empty_iff] at hp
    cases hl with
    | refused => exact hp
    | flat => exact hp
    | placed _ hgranular => rw [hcflat] at hgranular; cases hgranular
    | abandoned _ hgranular => rw [hcflat] at hgranular; cases hgranular
  have hg : ¬ captured.latch.Grave := by
    rw [hempty]
    rintro ⟨d, hd, -⟩
    cases hd
  have hrules := (sectionsObey_of_capture hc hempty).flatRules hcflat
  rw [hl.frame]
  exact ⟨(flatLayout_of_capture hc hg hcflat).isPowerOfTwo_sectionAlignment,
    fun s hs => virtualAddress_of_flatRules (hrules s hs)⟩

/-! ### The search -/

/-- The section in which the search finds an address. -/
def sectionAt? (image : Image) (a : UInt32) : Option SectionHeader :=
  (image.sections.filter isBacked).find? fun s => (image.span s).containsAddress a

/-- The section in which the search finds an offset. -/
def sectionOf? (image : Image) (off : UInt32) : Option SectionHeader :=
  (image.sections.filter isBacked).find? fun s => (image.span s).containsOffset off

lemma find?_containsAddress (image : Image) (a : UInt32) :
    image.spans.find? (·.containsAddress a) = (image.sectionAt? a).map image.span :=
  List.find?_map

lemma find?_containsOffset (image : Image) (off : UInt32) :
    image.spans.find? (·.containsOffset off) = (image.sectionOf? off).map image.span :=
  List.find?_map

/-- What the search finds is a section with data. -/
lemma mem_of_sectionAt? {a : UInt32} {s : SectionHeader} (h : image.sectionAt? a = some s) :
    s ∈ image.sections ∧ isBacked s = true :=
  List.mem_filter.mp (List.mem_of_find?_eq_some h)

lemma mem_of_sectionOf? {off : UInt32} {s : SectionHeader} (h : image.sectionOf? off = some s) :
    s ∈ image.sections ∧ isBacked s = true :=
  List.mem_filter.mp (List.mem_of_find?_eq_some h)

/-- Outside of all sections nothing but the identity is left. -/
lemma eq_of_identity? {x y : UInt32} (h : image.identity? x = some y) : y = x := by
  unfold identity? at h
  split_ifs at h
  exact (Option.some.inj h).symm

/-! ### Translation -/

/-- Counting from one place on instead of another changes nothing exactly if they are one. -/
lemma add_sub_eq_self_iff {a b x : UInt32} : a + (x - b) = x ↔ b = a := by
  rw [← add_sub_assoc, add_comm, sub_eq_iff_eq_add, add_right_inj, eq_comm]

section

variable (hf : image.isFlat = true) (hpow : image.optional.sectionAlignment.toNat.isPowerOfTwo)
  (hlies : ∀ s ∈ image.sections, isBacked s = true → s.virtualAddress = s.rawPointer)

include hf hpow hlies

/-- The address from which the search looks for a section is its offset exactly if the section
begins at a multiple of the section alignment. -/
lemma span_address_eq_offset_iff {s : SectionHeader} (hs : s ∈ image.sections)
    (hb : isBacked s = true) : (image.span s).address = (image.span s).offset ↔
      image.optional.sectionAlignment.toNat ∣ s.virtualAddress.toNat := by
  have hne : image.optional.sectionAlignment ≠ 0 := by
    intro h0
    have hpos := Nat.pos_of_isPowerOfTwo hpow
    rw [h0, UInt32.toNat_zero] at hpos
    exact absurd hpos (Nat.lt_irrefl 0)
  rw [← alignUp_eq_self_iff hpow]
  simp [span, dataStart, hf, hne, hlies s hs hb]

/-- An address is its own offset exactly if its section begins at such a multiple. -/
lemma fileOffset?_eq_self_iff {a off : UInt32} (h : image.fileOffset? a = some off) :
    off = a ↔ ∀ s, image.sectionAt? a = some s →
      image.optional.sectionAlignment.toNat ∣ s.virtualAddress.toNat := by
  rw [fileOffset?, find?_containsAddress] at h
  cases hfind : image.sectionAt? a with
  | none =>
      rw [hfind] at h
      exact iff_of_true (eq_of_identity? h) (by simp)
  | some s =>
      rw [hfind] at h
      obtain ⟨hs, hb⟩ := mem_of_sectionAt? hfind
      rw [← Option.some.inj h, add_sub_eq_self_iff,
        span_address_eq_offset_iff hf hpow hlies hs hb]
      simp

/-- So is an offset its own address. -/
lemma address?_eq_self_iff {off a : UInt32} (h : image.address? off = some a) :
    a = off ↔ ∀ s, image.sectionOf? off = some s →
      image.optional.sectionAlignment.toNat ∣ s.virtualAddress.toNat := by
  rw [address?, find?_containsOffset] at h
  cases hfind : image.sectionOf? off with
  | none =>
      rw [hfind] at h
      exact iff_of_true (eq_of_identity? h) (by simp)
  | some s =>
      rw [hfind] at h
      obtain ⟨hs, hb⟩ := mem_of_sectionOf? hfind
      rw [← Option.some.inj h, add_sub_eq_self_iff, eq_comm,
        span_address_eq_offset_iff hf hpow hlies hs hb]
      simp

end

/-- **Translation in a flat image**: where no problem is recorded, an address or an offset is
translated to itself exactly if the section in which the search finds it, if any, begins at a
multiple of the section alignment. So translation is the identity where all sections with data
do. -/
theorem translation_of_load (h : image.load file = (loaded, .ok ()))
    (hp : loaded.problem? = none)
    (hf : loaded.optional.sectionAlignment.toNat < pageSize) :
    (∀ a off, loaded.fileOffset? a = some off → (off = a ↔ ∀ s, loaded.sectionAt? a = some s →
        loaded.optional.sectionAlignment.toNat ∣ s.virtualAddress.toNat)) ∧
      (∀ off a, loaded.address? off = some a → (a = off ↔ ∀ s, loaded.sectionOf? off = some s →
        loaded.optional.sectionAlignment.toNat ∣ s.virtualAddress.toNat)) ∧
      ((∀ s ∈ loaded.sections, isBacked s = true →
          loaded.optional.sectionAlignment.toNat ∣ s.virtualAddress.toNat) →
        (∀ a off, loaded.fileOffset? a = some off → off = a) ∧
          ∀ off a, loaded.address? off = some a → a = off) := by
  have hflat : loaded.isFlat = true := isFlat_iff.mpr hf
  obtain ⟨hpow, hlies⟩ := flatSections_of_load h hp hflat
  refine ⟨fun _ _ => fileOffset?_eq_self_iff hflat hpow hlies,
    fun _ _ => address?_eq_self_iff hflat hpow hlies, fun haligned => ⟨?_, ?_⟩⟩
  · intro a off ho
    refine (fileOffset?_eq_self_iff hflat hpow hlies ho).mpr fun s hs => ?_
    exact haligned s (mem_of_sectionAt? hs).1 (mem_of_sectionAt? hs).2
  · intro off a ha
    refine (address?_eq_self_iff hflat hpow hlies ha).mpr fun s hs => ?_
    exact haligned s (mem_of_sectionOf? hs).1 (mem_of_sectionOf? hs).2

/-- A flat image with one section of 32 bytes, which lies at `a` in memory as in the file. -/
def shiftedFile (a : UInt32) : ByteArray :=
  smallFile 0x200 0x1000
    [{ virtualSize := 0x20, virtualAddress := a, rawSize := 0x20, rawPointer := a,
       characteristics := 0x40000000 }]
    (List.replicate 0x330 0)

/-- Between two multiples of the section alignment, the section is looked for where it ends. -/
theorem translation_shiftedFile :
    (loadFile (shiftedFile 0x3F0)).2 = .ok () ∧
      (loadFile (shiftedFile 0x3F0)).1.problem? = none ∧
      (loadFile (shiftedFile 0x3F0)).1.optional.sectionAlignment.toNat < pageSize ∧
      (loadFile (shiftedFile 0x3F0)).1.fileOffset? 0x400 = some 0x3F0 ∧
      (loadFile (shiftedFile 0x3F0)).1.address? 0x3F0 = some 0x400 := by
  decide +kernel

/-- At such a multiple, it is found in its place. -/
theorem translation_alignedFile :
    (∀ a off, (loadFile (shiftedFile 0x200)).1.fileOffset? a = some off → off = a) ∧
      (∀ off a, (loadFile (shiftedFile 0x200)).1.address? off = some a → a = off) ∧
      (loadFile (shiftedFile 0x200)).1.fileOffset? 0x210 = some 0x210 := by
  have hload : (loadFile (shiftedFile 0x200)).2 = .ok () ∧
      (loadFile (shiftedFile 0x200)).1.problem? = none ∧
      (loadFile (shiftedFile 0x200)).1.optional.sectionAlignment.toNat < pageSize ∧
      (∀ s ∈ (loadFile (shiftedFile 0x200)).1.sections, isBacked s = true →
        (loadFile (shiftedFile 0x200)).1.optional.sectionAlignment.toNat ∣
          s.virtualAddress.toNat) ∧
      (loadFile (shiftedFile 0x200)).1.fileOffset? 0x210 = some 0x210 := by
    decide +kernel
  obtain ⟨-, -, hidentity⟩ :=
    translation_of_load (load_empty_eq hload.1) hload.2.1 hload.2.2.1
  obtain ⟨hoffset, haddress⟩ := hidentity hload.2.2.2.1
  exact ⟨hoffset, haddress, hload.2.2.2.2⟩

end Image

end PeImage
