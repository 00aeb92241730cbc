/-
From an offset in the file to an address, and back.

Both directions take the first section that fits, but they look at different ranges. Sections may
share raw data, so the search for an offset may have a choice; no two sections share memory, so the
way back has none, and leads to the section from which it came.

* `Image.optional_of_capture_error`: a capture that fails reads no optional header;
* `Image.granularLayout_of_loadTo`: what counts as loadable after a load of any extent is laid out
  by the rules;
* `Image.exists_of_sectionOf?`: the address of an offset in a section is in the same section;
* `Image.fileOffset?_of_address?`: back from an address to the offset from which it came.
-/
import PeImage.Proofs.Acceptance
import PeImage.Proofs.FlatTranslation
import PeImage.Proofs.StoredBase
import PeImage.Proofs.Translation

namespace PeImage

namespace Image

variable {image loaded : Image} {file : ByteArray} {extent : Extent}

/-! ### What counts as loadable -/

/-- A capture that fails has not come to the optional header. -/
lemma optional_of_capture_error {config : Config} {captured : Image} {fault : Fault}
    (h : capture config file = (captured, .error fault)) : captured.optional = {} := by
  have hnt (nt : Image) (he : nt.optional = {}) :
      (nt.captureNtHeaders file).2 = .ok () ∨ (nt.captureNtHeaders file).1.optional = {} := by
    dsimp only [captureNtHeaders]
    split_ifs
    · exact .inl rfl
    · exact .inr he
    · exact .inr he
    · exact .inl rfl
  dsimp only [capture] at h
  split_ifs at h
  · rw [← (Prod.mk.inj h).1]
    rfl
  · rw [← (Prod.mk.inj h).1]
    rfl
  · split at h
    · rw [← (Prod.mk.inj h).1]
      rfl
    · have hcaptured := hnt { empty config with dos := DosHeader.ofBytes file } rfl
      split at h
      · next he =>
        rw [he] at hcaptured
        rw [← (Prod.mk.inj h).1]
        exact hcaptured.resolve_left (by simp)
      · cases (Prod.mk.inj h).2

/-- A load of any extent that leaves an optional header with page-sized sections has captured the
image, and changed nothing of its headers. What it leaves counts as loadable only if nothing grave
was captured. -/
lemma captured_of_loadTo (hload : (image.loadTo extent file).1 = loaded)
    (hsa : pageSize ≤ loaded.optional.sectionAlignment.toNat) :
    ∃ captured F, capture image.config file = (captured, .ok F) ∧
      loaded.optional = captured.optional ∧ loaded.sections = captured.sections ∧
      (loaded.isLoadable = true → ¬ captured.latch.Grave) := by
  have hoptional := optional_loadTo image extent file
  rw [hload] at hoptional
  cases hc : capture image.config file with
  | mk captured result =>
    cases result with
    | error fault =>
        rw [hoptional, hc, optional_of_capture_error hc] at hsa
        exact absurd hsa (by decide)
    | ok F =>
        refine ⟨captured, F, rfl, ?_⟩
        cases extent with
        | headers =>
            rw [loadTo, hc] at hload
            rw [← hload]
            exact ⟨rfl, rfl, Latch.not_grave_of_isLoadable⟩
        | contents =>
            obtain ⟨captured', F', hc', hl⟩ :=
              loaded_of_load (load_eq_of_ok (load_of_capture hc))
            obtain ⟨rfl, -⟩ := Prod.mk.inj (hc.symm.trans hc')
            rw [load, hload] at hl
            refine ⟨by rw [hl.frame], by rw [hl.frame], fun h => ?_⟩
            exact not_grave_of_isMappable (hl.isMappable_of_isLoadable h)

/-- **What counts as loadable is laid out by the rules**, after a load of any extent. -/
theorem granularLayout_of_loadTo (hload : (image.loadTo extent file).1 = loaded)
    (h : loaded.isLoadable = true) (hsa : pageSize ≤ loaded.optional.sectionAlignment.toNat) :
    GranularLayout loaded.optional loaded.sections := by
  obtain ⟨captured, F, hc, hoptional, hsections, hgrave⟩ := captured_of_loadTo hload hsa
  rw [hoptional] at hsa
  have hf : captured.isFlat = false := isFlat_eq_false_iff.mpr hsa
  rw [hoptional, hsections]
  exact (obeys_of_capture hc (hgrave h) hf).granularLayout hf

/-! ### There and back -/

/-- The address of an offset in a section lies in the memory of that section, as far from its start
as the offset is from the start of its data. -/
lemma exists_of_sectionOf? (hl : GranularLayout image.optional image.sections)
    (hx : ∀ s ∈ image.sections, s.extent image.optional.sectionAlignment < UInt32.size)
    {off a : UInt32} {s : SectionHeader} (hs : image.sectionOf? off = some s)
    (ha : image.address? off = some a) :
    a = (image.span s).address + (off - (image.span s).offset) ∧
      s.virtualAddress.toNat ≤ a.toNat ∧
      a.toNat < s.virtualAddress.toNat + s.effectiveSize.toNat := by
  have hmem := (mem_of_sectionOf? hs).1
  have hcontains : (image.span s).containsOffset off = true := by
    simpa using List.find?_some hs
  rw [Span.containsOffset, Bool.and_eq_true, decide_eq_true_iff, decide_eq_true_iff] at hcontains
  obtain ⟨hlow, hhigh⟩ := hcontains
  rw [address?, find?_containsOffset, hs] at ha
  have hsome : a = (image.span s).address + (off - (image.span s).offset) :=
    (Option.some.inj ha).symm
  have haddress := span_address hl hmem
  have hsub := UInt32.toNat_sub_of_le _ _ hlow
  have hsize : (image.span s).size = s.effectiveSize := rfl
  have hless : (off - (image.span s).offset).toNat < s.effectiveSize.toNat := by
    rw [toNat_min, hsize] at hhigh
    have := UInt32.le_iff_toNat_le.mp hlow
    omega
  -- the section ends within the image, so the sum does not wrap
  have hend : s.virtualAddress.toNat + s.effectiveSize.toNat < UInt32.size := by
    refine hl.lt_size_of_le (le_trans ?_ (hl.bounds hmem).2)
    have hcounted := hl.memorySize_le_counted (hx s hmem)
    have heff := s.effectiveSize_le
    omega
  refine ⟨hsome, ?_⟩
  rw [hsome, haddress, UInt32.toNat_add, Nat.mod_eq_of_lt]
  · omega
  · simp only [UInt32.size] at hend
    omega

/-- **Back to the offset**: in a section-granular image that counts as loadable, after a load of any
extent, an address that belongs to an offset is translated back to that offset, whether the raw data
there is shared by sections or the offset lies in the headers. -/
theorem fileOffset?_of_address? {off a : UInt32} (hload : (image.loadTo extent file).1 = loaded)
    (h : loaded.isLoadable = true) (hsa : pageSize ≤ loaded.optional.sectionAlignment.toNat)
    (hx : ∀ s ∈ loaded.sections, s.extent loaded.optional.sectionAlignment < UInt32.size)
    (ha : loaded.address? off = some a) : loaded.fileOffset? a = some off := by
  have hl := granularLayout_of_loadTo hload h hsa
  cases hs : loaded.sectionOf? off with
  | some s =>
      obtain ⟨hmem, hb⟩ := mem_of_sectionOf? hs
      obtain ⟨hsome, hlow, hhigh⟩ := exists_of_sectionOf? hl hx hs ha
      rw [fileOffset?, find?_spans hl hx hmem hb hlow hhigh, hsome]
      simp
  | none =>
      rw [address?, find?_containsOffset, hs] at ha
      obtain rfl : a = off := eq_of_identity? ha
      cases hsections : loaded.sections with
      | nil => simp [fileOffset?, spans, identity?, hsections]
      | cons s rest =>
          have hheader : a < loaded.optional.sizeOfHeaders := by
            simpa [identity?, hsections] using ha
          exact fileOffset?_header hl hheader

/-- Two sections that share their raw data, which begins in the sector behind the headers. -/
def sharedFile : ByteArray :=
  smallFile 0x1000 0x3000
    [{ virtualSize := 0x20, virtualAddress := 0x1000, rawSize := 0x40, rawPointer := 0x210,
       characteristics := 0x40000000 },
     { virtualSize := 0x1000, virtualAddress := 0x2000, rawSize := 0x40, rawPointer := 0x210,
       characteristics := 0x40000000 }]
    (List.replicate 0x150 0)

/-- The first section provides the address of an offset that both hold, the second one that of an
offset behind the memory of the first; in the headers, offsets are addresses. -/
theorem fileOffset?_sharedFile :
    (loadFile sharedFile).1.fileOffset? 0x1010 = some 0x210 ∧
      (loadFile sharedFile).1.fileOffset? 0x2030 = some 0x230 ∧
      (loadFile sharedFile).1.fileOffset? 0x40 = some 0x40 := by
  have hload : (loadFile sharedFile).1.isLoadable = true ∧
      pageSize ≤ (loadFile sharedFile).1.optional.sectionAlignment.toNat ∧
      (∀ s ∈ (loadFile sharedFile).1.sections,
        s.extent (loadFile sharedFile).1.optional.sectionAlignment < UInt32.size) ∧
      (loadFile sharedFile).1.address? 0x210 = some 0x1010 ∧
      (loadFile sharedFile).1.address? 0x230 = some 0x2030 ∧
      (loadFile sharedFile).1.address? 0x40 = some 0x40 := by
    decide +kernel
  obtain ⟨hloadable, hsa, hx, h0, h1, h2⟩ := hload
  have hback {off a : UInt32} (ha : (loadFile sharedFile).1.address? off = some a) :
      (loadFile sharedFile).1.fileOffset? a = some off :=
    @fileOffset?_of_address? (empty (.ofVersion .generic)) _ sharedFile .contents off a rfl
      hloadable hsa hx ha
  exact ⟨hback h0, hback h1, hback h2⟩

end Image

end PeImage
