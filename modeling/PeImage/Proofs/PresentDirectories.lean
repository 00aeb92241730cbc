/-
How many directories lie in the file.

The headers declare a number of directories, of which sixteen count at most, and the file may end
anywhere in front of them, between them or within one. Where it goes on behind the place of the
first one, those count of which it has at least one byte. Where it does not, none is there, but the
declared number stands as it is.

* `Image.firstDirectory`, `Image.directoriesWithin`: where the directories are, and those of which a
  file has a byte; `Image.card_directoriesWithin`: their number;
* `directoriesInFile_eq`: what a capture counts, and `Image.directories_capture`: that it counts the
  directories which it reads;
* `Image.presentDirectories_loadTo`: when that is the number of directories in the file;
* `Image.presentDirectories_bareFile`: a file in which it is not.
-/
import PeImage.Proofs.FailedLoad
import PeImage.Proofs.History

namespace PeImage

/-! ### Counting directories -/

/-- A file that goes on behind the place of the first directory has all that begin in it. -/
lemma directoriesInFile_eq (n first fileSize : ℕ) :
    Image.directoriesInFile n first fileSize =
      if first < fileSize then min n ((fileSize - first) ⌈/⌉ Directory.entrySize) else n := by
  rw [Image.directoriesInFile, Nat.ceilDiv_eq_add_pred_div, Directory.entrySize]
  split_ifs <;> omega

lemma directoriesInFile_le (n first fileSize : ℕ) :
    Image.directoriesInFile n first fileSize ≤ n := by
  rw [directoriesInFile_eq]
  split_ifs
  · exact min_le_left _ _
  · exact le_rfl

namespace Image

variable {image : Image} {file : ByteArray}

/-- The offset of the first directory in the file. -/
def firstDirectory (image : Image) : ℕ := image.dos.ntOffset.toNat + image.fieldOffset .directories

/-- The positions of the declared directories of which a file of `fileSize` bytes has at least one
byte. -/
def directoriesWithin (image : Image) (fileSize : ℕ) : Finset ℕ :=
  {i ∈ Finset.range image.optional.directoryCount.toNat | ∃ k < Directory.entrySize,
    image.firstDirectory + i * Directory.entrySize + k < fileSize}

/-- **Directories in the file**: those that begin in it, as far as they are declared. -/
lemma card_directoriesWithin (image : Image) (fileSize : ℕ) :
    (image.directoriesWithin fileSize).card = min image.optional.directoryCount.toNat
      ((fileSize - image.firstDirectory) ⌈/⌉ Directory.entrySize) := by
  have hfront : image.directoriesWithin fileSize =
      Finset.range (min image.optional.directoryCount.toNat
        ((fileSize - image.firstDirectory) ⌈/⌉ Directory.entrySize)) := by
    ext i
    rw [directoriesWithin, Finset.mem_filter, Finset.mem_range, Finset.mem_range, lt_min_iff,
      Nat.ceilDiv_eq_add_pred_div, Directory.entrySize]
    apply and_congr_right
    intro _
    constructor
    · rintro ⟨k, -, hk⟩
      omega
    · intro hi
      exact ⟨0, by decide, by omega⟩
  rw [hfront, Finset.card_range]

/-! ### What is captured -/

/-- No more directories are declared than there is room for. -/
lemma toNat_directoryCount_ofBytes (l : Layout) (file : ByteArray) (off : ℕ) :
    (OptionalHeader.ofBytes l file off).directoryCount.toNat =
      OptionalHeader.declaredDirectories l file off := by
  have hle : OptionalHeader.declaredDirectories l file off ≤ DirectoryKind.count := min_le_right _ _
  exact UInt32.toNat_ofNat_of_lt' (lt_of_le_of_lt hle (by decide))

/-- A file that ends in front of the number of directories declares none. -/
lemma declaredDirectories_eq_zero {l : Layout} {off : ℕ}
    (h : file.size ≤ off + l.directoryCountOffset) :
    OptionalHeader.declaredDirectories l file off = 0 := by
  have hzero : natAt file (off + l.directoryCountOffset) 4 = natAt ByteArray.empty 0 4 :=
    natAt_congr fun k _ => by
      rw [byteAt_eq_zero (by omega), byteAt_eq_zero (Nat.zero_le _)]
  rw [OptionalHeader.declaredDirectories, hzero]
  rfl

/-- A capture that does not fail reads no optional header, or one with all that is published of
it. -/
lemma optionalHeader_of_capture {config : Config} {captured : Image} {F : ByteArray}
    (h : capture config file = (captured, .ok F)) :
    let off := captured.dos.ntOffset.toNat + optionalStart
    let l := layoutAt file off
    (captured.optional = {} ∧ captured.presentDirectories = 0) ∨
      captured.optional = .ofBytes l file off ∧
        captured.presentDirectories = UInt32.ofNat
          (directoriesInFile captured.optional.directoryCount.toNat (off + l.directoriesOffset)
            file.size) ∧
        captured.checksumOffset = UInt32.ofNat (off + l.checksumOffset) ∧
        captured.securityOffset = UInt32.ofNat (off + l.directoryOffset .security) := by
  obtain ⟨-, nt, hnt, ht⟩ := capture_ok h
  obtain rfl : (nt.captureSectionTable file).1 = captured := congrArg Prod.fst ht
  rw [captureSectionTable_frame]
  rcases captureNtHeaders_ok hnt with rfl | rfl
  · exact .inl ⟨rfl, rfl⟩
  · exact .inr ⟨rfl, rfl, rfl, rfl⟩

/-- A capture reads no optional header, or counts the directories of the one that it reads. -/
lemma directories_capture {config : Config} {captured : Image}
    (h : (capture config file).1 = captured) :
    let off := captured.dos.ntOffset.toNat + optionalStart
    (captured.optional = {} ∧ captured.presentDirectories = 0) ∨
      captured.optional = .ofBytes (layoutAt file off) file off ∧
        captured.presentDirectories.toNat =
          directoriesInFile captured.optional.directoryCount.toNat
            (off + (layoutAt file off).directoriesOffset) file.size := by
  cases hc : capture config file with
  | mk captured' result =>
      obtain rfl : captured' = captured := by rw [← h, hc]
      cases result with
      | error fault =>
          rw [eq_remains_of_capture hc]
          exact .inl ⟨rfl, rfl⟩
      | ok F =>
          refine (optionalHeader_of_capture hc).imp_right fun ⟨hoptional, hpresent, _⟩ => ?_
          refine ⟨hoptional, ?_⟩
          rw [hpresent]
          exact UInt32.toNat_ofNat_of_lt'
            (lt_of_le_of_lt (directoriesInFile_le _ _ _) (UInt32.toNat_lt _))

/-- The same, with the directories where the captured headers place them. -/
lemma presentDirectories_capture {config : Config} {captured : Image}
    (h : (capture config file).1 = captured) :
    captured.presentDirectories.toNat = directoriesInFile captured.optional.directoryCount.toNat
      captured.firstDirectory file.size := by
  obtain ⟨hnone, hzero⟩ | ⟨hoptional, hpresent⟩ := directories_capture h
  · have hcount : captured.optional.directoryCount.toNat = 0 := by rw [hnone]; rfl
    rw [hcount, hzero, directoriesInFile_eq, Nat.zero_min, ite_self]
    rfl
  set off := captured.dos.ntOffset.toNat + optionalStart
  have hfirst : captured.firstDirectory = off + captured.layout.directoriesOffset :=
    (Nat.add_assoc _ _ _).symm
  by_cases hin : off + 2 < file.size
  · rw [hpresent, hfirst, layout_eq_layoutAt hoptional hin]
  · -- a magic number at the end of the file may name another layout than the one that is read
    have hend : file.size ≤ off + (layoutAt file off).directoryCountOffset := by
      have hle : 2 ≤ (layoutAt file off).directoryCountOffset := by
        cases layoutAt file off <;> decide
      omega
    have hcount : captured.optional.directoryCount.toNat = 0 := by
      rw [hoptional, toNat_directoryCount_ofBytes, declaredDirectories_eq_zero hend]
    rw [hpresent, hcount, directoriesInFile_eq, directoriesInFile_eq]
    simp

/-- **Directories that the file has**: what a load says of them is right exactly if the file goes on
behind the place of the first one, or none is declared. Otherwise none is there, and the load says
that all are. -/
theorem presentDirectories_loadTo (image : Image) (extent : Extent) (file : ByteArray) :
    let loaded := (image.loadTo extent file).1
    let declared := loaded.optional.directoryCount.toNat
    let begun := (file.size - loaded.firstDirectory) ⌈/⌉ 8
    (loaded.directoriesWithin file.size).card = min declared begun ∧
      loaded.presentDirectories.toNat =
        (if loaded.firstDirectory < file.size then min declared begun else declared) ∧
      (loaded.presentDirectories.toNat = min declared begun ↔
        loaded.firstDirectory < file.size ∨ declared = 0) := by
  intro loaded declared begun
  have hpresent : loaded.presentDirectories.toNat =
      if loaded.firstDirectory < file.size then min declared begun else declared := by
    have hcaptured := presentDirectories_capture (rfl : (capture image.config file).1 = _)
    rw [directoriesInFile_eq] at hcaptured
    simp only [declared, begun, loaded]
    rw [loadTo_frame]
    exact hcaptured
  refine ⟨card_directoriesWithin loaded file.size, hpresent, ?_⟩
  rw [hpresent]
  split_ifs with hin
  · simp [hin]
  · have hbegun : begun = 0 := by
      simp only [begun, Nat.sub_eq_zero_of_le (Nat.le_of_not_lt hin)]
      exact zero_ceilDiv 8
    simp [hin, hbegun]

/-! ### A file that ends with the number of directories -/

/-- Headers that declare sixteen directories and end in front of the first one. -/
def bareFile : ByteArray :=
  (smallFile 0x1000 0x1000 [] []).extract 0 180 ++ [16, 0, 0, 0].toByteArray

/-- Of the file no directory is there, and yet the load says that sixteen are. -/
theorem presentDirectories_bareFile :
    let loaded := ((empty (.ofVersion .generic)).loadHeaders bareFile).1
    ((empty (.ofVersion .generic)).loadHeaders bareFile).2 = .ok () ∧
      loaded.optional.magic = Layout.narrow.magic ∧ loaded.firstDirectory = bareFile.size ∧
      loaded.presentDirectories.toNat = 16 ∧
      loaded.presentDirectories.toNat ≠ min loaded.optional.directoryCount.toNat
        ((bareFile.size - loaded.firstDirectory) ⌈/⌉ 8) := by
  decide +kernel

end Image

end PeImage
