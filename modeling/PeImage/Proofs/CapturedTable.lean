/-
What a load takes from the section table, and what it leaves of the file.

Raw data pointers are cleared in the file while the table is still being read, but every captured
header is the one that the input has at its place, wherever the table lies and however the file
ends. What is mapped, or served where nothing is mapped, differs from the input in the cleared
pointers only.

* `Image.headers_capture`: the headers that say where the table is, and how long;
* `Image.readsTable_of_loadHeaders`: which headers are captured, and the file that the load of the
  contents goes on with;
* `Image.staleFile`: a file with a pointer that is cleared, though not in the captured header.
-/
import PeImage.Proofs.Acceptance
import PeImage.Proofs.TableWalk

namespace PeImage

namespace Image

variable {image captured : Image} {file F : ByteArray}

/-- The DOS header and the file header of a captured image are those of the input, unless the end of
the file is recorded to cut the headers. Then the file header is blank. -/
lemma headers_capture {config : Config} (h : capture config file = (captured, .ok F)) :
    captured.dos = DosHeader.ofBytes file ∧
      (captured.file = FileHeader.ofBytes file (captured.dos.ntOffset.toNat + ntSignatureSize) ∨
        captured.file = {} ∧ captured.problem? = some .headersOutOfFile) := by
  obtain ⟨-, nt, hnt, ht⟩ := capture_ok h
  obtain rfl : (nt.captureSectionTable file).1 = captured := congrArg Prod.fst ht
  -- a cut that is recorded with the headers stays recorded
  have hcut (hl : nt.latch.Holds (· == .headersOutOfFile)) :
      (nt.captureSectionTable file).1.problem? = some .headersOutOfFile := by
    obtain ⟨d, hd, hkind⟩ := holds_captureSectionTable hl file
    rw [problem?, hd, beq_iff_eq.mp hkind]
  rw [captureSectionTable_frame]
  rcases captureNtHeaders_ok hnt with rfl | rfl
  · exact ⟨rfl, .inr ⟨rfl, hcut ⟨_, rfl, rfl⟩⟩⟩
  · refine ⟨rfl, ?_⟩
    set start := (DosHeader.ofBytes file).ntOffset.toNat
    by_cases hin : start + ntSignatureSize + FileHeader.size < file.size
    · exact .inl (if_pos (decide_eq_true hin))
    · refine .inr ⟨if_neg (by simpa using hin), hcut ?_⟩
      -- the first rule for the file header is violated, and the register is still empty
      have hfirst : (({ empty config with
          dos := DosHeader.ofBytes file
          ntSignature := u32At file start }).captureFileHeader file start).latch.first =
            some .headersOutOfFile := by
        simp [captureFileHeader, Latch.check, Latch.recordAny, empty, hin]
      exact Latch.Holds.check (Latch.Holds.check ⟨_, hfirst, rfl⟩ _) _

/-- **The section table of a file**: what a load of the headers captures of it, and what becomes of
the file, of which a load of the contents makes the image. -/
theorem readsTable_of_loadHeaders (h : image.loadHeaders file = (captured, .ok ())) :
    captured.config = image.config ∧
      (captured.dos = DosHeader.ofBytes file ∧
        (captured.file = FileHeader.ofBytes file (captured.dos.ntOffset.toNat + ntSignatureSize) ∨
          captured.file = {} ∧ captured.problem? = some .headersOutOfFile)) ∧
      ∃ F, captured.ReadsTable file F ∧
        capture image.config file = (captured, .ok F) ∧
          (image.load file).2 = .ok () ∧ Loaded captured F (image.load file).1 := by
  obtain ⟨F, hc⟩ : ∃ F, capture image.config file = (captured, .ok F) := by
    dsimp only [loadHeaders, loadTo] at h
    split at h
    · cases (Prod.mk.inj h).2
    · next F hc =>
      obtain ⟨rfl, -⟩ := Prod.mk.inj h
      exact ⟨F, hc⟩
  have hok := load_of_capture hc
  obtain ⟨captured', F', hc', hloaded⟩ := loaded_of_load (load_eq_of_ok hok)
  obtain ⟨rfl, hF⟩ := Prod.mk.inj (hc.symm.trans hc')
  obtain rfl := Except.ok.inj hF
  exact ⟨config_of_capture hc, headers_capture hc, F, readsTable_of_capture hc, hc, hok, hloaded⟩

/-! ### A file with a stale pointer -/

/-- A section without raw data that has a raw data pointer all the same, and one with raw data. -/
def staleFile : ByteArray :=
  smallFile 0x1000 0x3000
    [{ virtualSize := 0x1000, virtualAddress := 0x1000, rawPointer := 0x11223344 },
      { virtualSize := 0x1000, virtualAddress := 0x2000, rawSize := 8, rawPointer := 264 }]
    [1, 2, 3, 4, 5, 6, 7, 8]

/-- The pointer is cleared in the file behind the capture, and the captured header still has it. -/
theorem readsTable_staleFile :
    let loaded := (empty (.ofVersion .xp)).loadHeaders staleFile
    loaded.2 = .ok () ∧
      loaded.1.sections.map (fun s => (s.rawSize, s.rawPointer)) = [(0, 0x11223344), (8, 264)] ∧
      ∃ F, loaded.1.ReadsTable staleFile F ∧
        ((List.range 4).map fun k => byteAt staleFile (204 + k)) = [0x44, 0x33, 0x22, 0x11] ∧
        ∀ k < 4, byteAt F (204 + k) = 0 := by
  have hshown :
      let loaded := (empty (.ofVersion .xp)).loadHeaders staleFile
      loaded.2 = .ok () ∧
        loaded.1.sections.map (fun s => (s.rawSize, s.rawPointer)) = [(0, 0x11223344), (8, 264)] ∧
        loaded.1.tableOffset = 184 ∧ loaded.1.config.version = .xp ∧
        ((List.range 4).map fun k => byteAt staleFile (204 + k)) = [0x44, 0x33, 0x22, 0x11] := by
    decide +kernel
  generalize staleFile = file at hshown ⊢
  obtain ⟨hok, hsections, htable, hversion, hbytes⟩ := hshown
  obtain ⟨-, -, F, hreads, -⟩ := readsTable_of_loadHeaders (Prod.ext rfl hok)
  obtain ⟨s, rest, hcons, hs, -⟩ := List.map_eq_cons_iff.mp hsections
  obtain ⟨hsize, hpointer⟩ := Prod.mk.inj hs
  refine ⟨hok, hsections, F, hreads, hbytes, fun k hk => ?_⟩
  refine hreads.cleared (by rw [hversion]; decide) _ ⟨0, s, by rw [hcons]; rfl, hsize, ?_, ?_⟩
  · rw [hpointer]
    decide
  · rw [htable, Set.mem_Ico, SectionHeader.size, SectionHeader.rawPointerOffset]
    omega

end Image

end PeImage
