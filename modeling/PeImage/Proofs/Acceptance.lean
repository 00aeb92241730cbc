/-
Which inputs a load accepts, in terms of their bytes.

An input is refused for its signatures and for nothing else. Everything that is wrong behind them is
recorded, and the load still ends with an image that can be read: its pages, or the file.

* `HasSignatures`: the two signatures, each where it belongs;
* `Image.verify_ofBytes_iff`, `Image.captureNtHeaders_outcome`: what the two checks of the capture
  ask of the bytes;
* `Image.capture_outcome`: the capture fails exactly where a signature is missing;
* `Image.exists_buildPages`: an image that is to be mapped always gets its pages, so the mapper has
  no reason to refuse an input;
* `Image.load_outcome`: which inputs load, and what can be read of them.
-/
import PeImage.Proofs.FlatLayout
import PeImage.Proofs.Outcome

namespace PeImage

/-! ### The signatures -/

/-- The offset of the NT headers, as an input spells it. -/
def ntStart (file : ByteArray) : ℕ := natAt file 60 4

/-- The bytes of an input up to the signature of its NT headers. The header in front of them is
there with its signature `MZ`, and the NT headers begin in the input, or right at its end, at a
multiple of four. Their own signature is there too, and is not the last thing in the input; newer
versions do not ask for it where complete 32-bit headers do not fit. -/
structure HasSignatures (config : Config) (file : ByteArray) : Prop where
  size_lt : 64 < file.size
  dos : byteAt file 0 = 0x4D ∧ byteAt file 1 = 0x5A
  aligned : ntStart file % 4 = 0
  start_le : ntStart file ≤ file.size
  nt : (config.requiresWholeHeaders = true ∧ file.size < ntStart file + 248) ∨
    (ntStart file + 4 < file.size ∧ byteAt file (ntStart file) = 0x50 ∧
      byteAt file (ntStart file + 1) = 0x45 ∧ byteAt file (ntStart file + 2) = 0 ∧
        byteAt file (ntStart file + 3) = 0)

namespace Image

variable {config : Config} {file F : ByteArray} {image captured : Image}

lemma magic_eq_iff : (DosHeader.ofBytes file).magic = DosHeader.signature ↔
    byteAt file 0 = 0x4D ∧ byteAt file 1 = 0x5A := by
  have h0 := (byteAt file 0).toNat_lt
  have h1 := (byteAt file 1).toNat_lt
  rw [show (DosHeader.ofBytes file).magic = u16At file 0 from rfl, ← UInt16.toNat_inj,
    toNat_u16At]
  simp only [← UInt8.toNat_inj, natAt, Nat.reduceAdd]
  show _ = 0x5A4D ↔ _ = 0x4D ∧ _ = 0x5A
  omega

lemma ntSignature_eq_iff {off : ℕ} : u32At file off = ntSignatureValue ↔
    byteAt file off = 0x50 ∧ byteAt file (off + 1) = 0x45 ∧ byteAt file (off + 2) = 0 ∧
      byteAt file (off + 3) = 0 := by
  have h0 := (byteAt file off).toNat_lt
  have h1 := (byteAt file (off + 1)).toNat_lt
  have h2 := (byteAt file (off + 2)).toNat_lt
  have h3 := (byteAt file (off + 3)).toNat_lt
  rw [← UInt32.toNat_inj, toNat_u32At]
  simp only [← UInt8.toNat_inj, natAt, Nat.add_assoc, Nat.reduceAdd]
  show _ = 0x4550 ↔ _ = 0x50 ∧ _ = 0x45 ∧ _ = 0 ∧ _ = 0
  omega

/-- The header at the start passes exactly if the first four conditions hold, but for the size. -/
lemma verify_ofBytes_iff (file : ByteArray) :
    (∃ cause, (DosHeader.ofBytes file).verify file.size = .error cause) ↔
      ¬ ((byteAt file 0 = 0x4D ∧ byteAt file 1 = 0x5A) ∧ ntStart file % 4 = 0 ∧
        ntStart file ≤ file.size) := by
  have hstart : (DosHeader.ofBytes file).ntOffset.toNat = ntStart file := toNat_u32At file 60
  rw [DosHeader.verify, hstart, ← magic_eq_iff]
  split_ifs with h1 h2 h3
  · simp [h1]
  · simp [h2]
  · simp [Nat.not_le.mpr h3]
  · simp [not_not.mp h1, not_not.mp h2, Nat.le_of_not_lt h3]

/-- The capture of the NT headers fails exactly where their signature is asked for and missing. -/
lemma captureNtHeaders_outcome (image : Image) (file : ByteArray)
    (hs : image.dos.ntOffset.toNat = ntStart file) :
    if (image.config.requiresWholeHeaders = true ∧ file.size < ntStart file + 248) ∨
        (ntStart file + 4 < file.size ∧ u32At file (ntStart file) = ntSignatureValue) then
      (image.captureNtHeaders file).2 = .ok ()
    else (image.captureNtHeaders file).2 = .error .invalidFile := by
  have hsize : ntStart file + optionalStart + Layout.narrow.size = ntStart file + 248 := rfl
  have hsig : ntSignatureSize = 4 := rfl
  simp only [captureNtHeaders, hs, hsize, hsig, Bool.and_eq_true, decide_eq_true_iff, gt_iff_lt,
    ge_iff_le]
  by_cases hwhole : image.config.requiresWholeHeaders = true ∧ file.size < ntStart file + 248
  · simp [hwhole]
  · by_cases hlt : ntStart file + 4 < file.size
    · have hge : ¬ file.size ≤ ntStart file + 4 := Nat.not_le.mpr hlt
      by_cases hval : u32At file (ntStart file) = ntSignatureValue
      · simp [hwhole, hlt, hge, hval]
      · simp [hwhole, hlt, hge, hval]
    · simp [hwhole, hlt, Nat.le_of_not_lt hlt]

/-- **The outcome of a capture**: it fails exactly where a signature is missing. -/
theorem capture_outcome (config : Config) (hs : file.size < 2 ^ 32) :
    (HasSignatures config file → ∃ captured F, capture config file = (captured, .ok F)) ∧
      (¬ HasSignatures config file → (capture config file).2 = .error .invalidFile) := by
  have hsmall : ¬ file.size > maxFileSize := by
    rw [maxFileSize]
    omega
  have hstart : (DosHeader.ofBytes file).ntOffset.toNat = ntStart file := toNat_u32At file 60
  simp only [capture, if_neg hsmall]
  by_cases hlen : file.size ≤ DosHeader.size
  · rw [if_pos hlen]
    exact ⟨fun h => absurd h.size_lt (Nat.not_lt.mpr hlen), fun _ => rfl⟩
  rw [if_neg hlen]
  have hdos := verify_ofBytes_iff file
  cases hv : (DosHeader.ofBytes file).verify file.size with
  | error cause =>
      have hno := hdos.mp ⟨cause, hv⟩
      exact ⟨fun h => absurd ⟨h.dos, h.aligned, h.start_le⟩ hno, fun _ => rfl⟩
  | ok =>
      have hyes := not_not.mp fun hn => by
        obtain ⟨cause, hc⟩ := hdos.mpr hn
        rw [hv] at hc
        cases hc
      have hiff : HasSignatures config file ↔
          (config.requiresWholeHeaders = true ∧ file.size < ntStart file + 248) ∨
            (ntStart file + 4 < file.size ∧ u32At file (ntStart file) = ntSignatureValue) := by
        rw [ntSignature_eq_iff]
        refine ⟨fun h => h.nt, fun h => ?_⟩
        exact ⟨Nat.lt_of_not_le hlen, hyes.1, hyes.2.1, hyes.2.2, h⟩
      have hnt := captureNtHeaders_outcome
        { empty config with dos := DosHeader.ofBytes file } file hstart
      simp only [hiff]
      split_ifs at hnt with hok
      · refine ⟨fun _ => ?_, fun hn => absurd hok hn⟩
        split
        · next he =>
          rw [he] at hnt
          cases hnt
        · exact ⟨_, _, rfl⟩
      · refine ⟨fun hy => absurd hy hok, fun _ => ?_⟩
        split
        · next he =>
          rw [he] at hnt
          simpa using hnt
        · next he =>
          rw [he] at hnt
          cases hnt

/-! ### The pages -/

/-- **An image that is to be mapped gets its pages**: both the flat image and the headers of a
section-granular one have a place in the table, whatever the rest of the input looks like. -/
theorem exists_buildPages (hc : capture config file = (captured, .ok F))
    (hm : captured.isMappable = true) :
    ∃ built pages, captured.buildPages F = (built, .ok pages) := by
  have hg := not_grave_of_isMappable hm
  rw [buildPages]
  by_cases hf : captured.isFlat = true
  · obtain ⟨pages, hp⟩ := (flatLayout_of_capture hc hg hf).exists_flatPages F
    rw [if_pos hf, hp]
    exact ⟨_, _, rfl⟩
  · rw [Bool.not_eq_true] at hf
    have hl := (obeys_of_capture hc hg hf).granularLayout hf
    obtain ⟨pages, headerEnd, hh, -⟩ := place_headers hl F
    rw [hf]
    simp only [granularPages, alignedSize_div hl, hh, Bool.false_eq_true, if_false]
    split_ifs
    · exact ⟨_, _, rfl⟩
    · exact ⟨_, _, rfl⟩
    · split <;> exact ⟨_, _, rfl⟩

/-- What is captured is also loaded. -/
lemma load_of_capture (hc : capture image.config file = (captured, .ok F)) :
    (image.load file).2 = .ok () := by
  rw [load, loadTo, hc]
  dsimp only [mapContents]
  by_cases hm : captured.isMappable = true
  · obtain ⟨built, pages, hb⟩ := exists_buildPages hc hm
    rw [if_pos hm, hb]
  · rw [if_neg hm]

/-- **Which inputs load**: exactly those with their signatures. What cannot be refused for them ends
with pages, at least one, or with the bytes of the file as the capture leaves them; and where pages
are to be built, that does not fail. -/
theorem load_outcome (image : Image) (file : ByteArray) (hs : file.size < 2 ^ 32) :
    ((image.load file).2 = .error .invalidFile ↔ ¬ HasSignatures image.config file) ∧
      (HasSignatures image.config file →
        (image.load file).2 = .ok () ∧ ∃ captured F,
          capture image.config file = (captured, .ok F) ∧
            (captured.isMappable = true →
              ∃ built pages, captured.buildPages F = (built, .ok pages)) ∧
            ((∃ pages, (image.load file).1.contents = .mapped pages ∧ pages.isEmpty = false) ∨
              (image.load file).1.contents = .raw F)) := by
  obtain ⟨hyes, hno⟩ := capture_outcome image.config hs
  have hload (h : HasSignatures image.config file) : (image.load file).2 = .ok () := by
    obtain ⟨captured, F, hc⟩ := hyes h
    exact load_of_capture hc
  constructor
  · constructor
    · intro herr h
      rw [hload h] at herr
      cases herr
    · intro h
      have hfail := hno h
      rw [load, loadTo]
      split
      · next hc =>
        rw [hc] at hfail
        simpa using hfail
      · next hc =>
        rw [hc] at hfail
        cases hfail
  · intro h
    have hok := hload h
    refine ⟨hok, ?_⟩
    have heq : image.load file = ((image.load file).1, .ok ()) := Prod.ext rfl hok
    obtain ⟨captured, F, hc, hl⟩ := loaded_of_load heq
    exact ⟨captured, F, hc, exists_buildPages hc, hl.contents⟩

/-- Headers without sections are mapped, and 65 zeros are no image. -/
theorem load_outcome_smallFile :
    ((loadFile (smallFile 0x1000 0x1000 [] [])).2 = .ok () ∧
      (loadFile (smallFile 0x1000 0x1000 [] [])).1.pageCount = 1) ∧
    (loadFile (zeros 65)).2 = .error .invalidFile := by
  have hsig : HasSignatures (.ofVersion .generic) (smallFile 0x1000 0x1000 [] []) := by
    constructor <;> decide +kernel
  refine ⟨⟨?_, by decide +kernel⟩, ?_⟩
  · exact ((load_outcome (empty (.ofVersion .generic)) _ (by decide +kernel)).2 hsig).1
  · refine (load_outcome (empty (.ofVersion .generic)) _ (by decide +kernel)).1.mpr ?_
    intro h
    exact absurd h.dos.1 (by decide +kernel)

end Image

end PeImage
