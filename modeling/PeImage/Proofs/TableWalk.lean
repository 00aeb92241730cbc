/-
The walk over the section table.

The loop that captures the headers clears raw data pointers in the file that it goes on to read. It
does so in the header that it has just read, and never looks back, so every header is read as the
input has it, and the bytes that are cleared can be told from the input alone.

* `Image.Clears`: the bytes that a header makes the walk clear;
* `Image.byteAt_captureSection`, `Image.ofBytes_behind_captureSection`: one step, and what it leaves
  of the headers behind it;
* `Image.byteAt_captureSectionsFrom`, `Image.getElem?_captureSectionsFrom`: the whole walk, the file
  behind it and the headers that it captures;
* `Image.ReadsTable`: what a capture makes of the section table and of the file, and
  `Image.readsTable_of_capture`: every capture does so.
-/
import PeImage.Proofs.History
import PeImage.Proofs.Verdict

namespace PeImage

namespace Image

variable {image : Image} {file : ByteArray}

/-- The byte at `r` lies in the raw data pointer of the header at `off`, which is to be cleared. -/
def Clears (image : Image) (file : ByteArray) (off r : ℕ) : Prop :=
  image.clearsPointer (SectionHeader.ofBytes file off) = true ∧
    r ∈ Set.Ico (off + SectionHeader.rawPointerOffset) (off + SectionHeader.rawPointerOffset + 4)

instance (image : Image) (file : ByteArray) (off r : ℕ) : Decidable (image.Clears file off r) :=
  inferInstanceAs (Decidable (_ ∧ _))

/-- Only bytes of the header itself are cleared. -/
lemma Clears.mem_Ico {off r : ℕ} (h : image.Clears file off r) :
    r ∈ Set.Ico off (off + SectionHeader.size) := by
  have hr := h.2
  rw [Set.mem_Ico, SectionHeader.rawPointerOffset] at hr
  rw [Set.mem_Ico, SectionHeader.size]
  omega

end Image

/-- A header depends on its own bytes only. -/
lemma SectionHeader.ofBytes_congr {a b : ByteArray} {off : ℕ}
    (h : ∀ r ∈ Set.Ico off (off + size), byteAt a r = byteAt b r) :
    ofBytes a off = ofBytes b off := by
  have hbyte (k : ℕ) (hk : k < size) : byteAt a (off + k) = byteAt b (off + k) :=
    h _ ⟨Nat.le_add_right _ _, by omega⟩
  have hfield (k w : ℕ) (hk : k + w ≤ size) : natAt a (off + k) w = natAt b (off + k) w :=
    natAt_congr fun j hj => by
      rw [Nat.add_assoc]
      exact hbyte _ (by omega)
  have h16 (k : ℕ) (hk : k + 2 ≤ size) : u16At a (off + k) = u16At b (off + k) :=
    congrArg UInt16.ofNat (hfield k 2 hk)
  have h32 (k : ℕ) (hk : k + 4 ≤ size) : u32At a (off + k) = u32At b (off + k) :=
    congrArg UInt32.ofNat (hfield k 4 hk)
  have hname : (Vector.ofFn fun i : Fin shortNameSize => byteAt a (off + i)) =
      Vector.ofFn fun i => byteAt b (off + i) := by
    congr 1
    funext i
    exact hbyte i (i.isLt.trans (by decide))
  rw [ofBytes, ofBytes, hname, h32 8 (by decide), h32 12 (by decide), h32 16 (by decide),
    h32 20 (by decide), h32 24 (by decide), h32 28 (by decide), h16 32 (by decide),
    h16 34 (by decide), h32 36 (by decide)]

namespace Image

variable {image : Image} {file : ByteArray} {off n : ℕ} {acc : Array SectionHeader}

/-! ### One header -/

/-- A capture keeps the size of the file. -/
lemma size_captureSection (image : Image) (hoff : off + SectionHeader.size ≤ file.size) :
    (image.captureSection file off).1.size = file.size := by
  have hpointer : off + SectionHeader.rawPointerOffset + (zeros 4).size ≤ file.size := by
    rw [size_zeros]
    exact (Nat.add_le_add_left (show 24 ≤ SectionHeader.size by decide) off).trans hoff
  dsimp only [captureSection]
  split_ifs
  · exact size_overwrite hpointer
  · rfl

/-- **One step**: the bytes that the header makes it clear are zero, and all others are kept. -/
lemma byteAt_captureSection (image : Image) (hoff : off + SectionHeader.size ≤ file.size) (r : ℕ) :
    byteAt (image.captureSection file off).1 r =
      if image.Clears file off r then 0 else byteAt file r := by
  have hpointer : off + SectionHeader.rawPointerOffset + (zeros 4).size ≤ file.size := by
    rw [size_zeros]
    exact (Nat.add_le_add_left (show 24 ≤ SectionHeader.size by decide) off).trans hoff
  dsimp only [captureSection]
  by_cases hclears : image.clearsPointer (SectionHeader.ofBytes file off) = true
  · rw [if_pos hclears, byteAt_overwrite hpointer, byteAt_zeros, size_zeros]
    simp only [Clears, hclears, true_and, Set.mem_Ico]
  · rw [if_neg hclears, if_neg fun h => hclears h.1]

/-- The header is as it is stored; only its name is resolved. -/
lemma ofBytes_captureSection (image : Image) (file : ByteArray) (off : ℕ) :
    { (image.captureSection file off).2 with name := "" } = SectionHeader.ofBytes file off := rfl

/-- The headers behind it are left as they are. -/
lemma ofBytes_behind_captureSection {next : ℕ} (image : Image)
    (hoff : off + SectionHeader.size ≤ file.size) (hnext : off + SectionHeader.size ≤ next) :
    SectionHeader.ofBytes (image.captureSection file off).1 next =
      SectionHeader.ofBytes file next := by
  refine SectionHeader.ofBytes_congr fun r hr => ?_
  rw [image.byteAt_captureSection hoff, if_neg]
  intro hclears
  exact absurd hclears.mem_Ico.2 (Nat.not_lt.mpr (hnext.trans hr.1))

/-! ### The walk -/

lemma next_header (off i : ℕ) : off + SectionHeader.size + i * SectionHeader.size =
    off + (i + 1) * SectionHeader.size := by
  rw [Nat.succ_mul]
  omega

/-- Every header in front of the end of the walk is captured. -/
lemma size_captureSectionsFrom (file : ByteArray) (off : ℕ) (acc : Array SectionHeader) (n : ℕ) :
    (image.captureSectionsFrom file off acc n).2.size = acc.size + n := by
  induction n generalizing file off acc with
  | zero => rfl
  | succ n ih =>
      rw [captureSectionsFrom, ih, Array.size_push]
      omega

/-- The captured headers begin with those that were captured before. -/
lemma getElem?_captureSectionsFrom_of_lt (file : ByteArray) (off : ℕ) {acc : Array SectionHeader}
    (n : ℕ) {i : ℕ} (hi : i < acc.size) :
    (image.captureSectionsFrom file off acc n).2[i]? = acc[i]? := by
  induction n generalizing file off acc with
  | zero => rfl
  | succ n ih =>
      rw [captureSectionsFrom]
      refine (ih _ _ (by rw [Array.size_push]; omega)).trans ?_
      rw [Array.getElem?_push_lt hi, Array.getElem?_eq_getElem hi]

/-- The walk keeps the size of the file. -/
lemma size_fst_captureSectionsFrom (hoff : off + n * SectionHeader.size ≤ file.size) :
    (image.captureSectionsFrom file off acc n).1.size = file.size := by
  induction n generalizing file off acc with
  | zero => rfl
  | succ n ih =>
      rw [Nat.succ_mul] at hoff
      have hsize : (image.captureSection file off).1.size = file.size :=
        image.size_captureSection (by omega)
      rw [captureSectionsFrom]
      dsimp only
      rw [ih (by omega), hsize]

/-- **The file behind the walk**: the bytes that the headers, as the input has them, make it clear
are zero, and all others are kept. -/
lemma byteAt_captureSectionsFrom (hoff : off + n * SectionHeader.size ≤ file.size) (r : ℕ) :
    byteAt (image.captureSectionsFrom file off acc n).1 r =
      if ∃ i < n, image.Clears file (off + i * SectionHeader.size) r then 0 else byteAt file r := by
  induction n generalizing file off acc with
  | zero => simp [captureSectionsFrom]
  | succ n ih =>
      rw [Nat.succ_mul] at hoff
      have hin : off + SectionHeader.size ≤ file.size := by omega
      have hsize := image.size_captureSection hin
      -- what the first header makes the walk clear lies in front of the others
      have hbehind (i : ℕ) : image.Clears (image.captureSection file off).1
          (off + SectionHeader.size + i * SectionHeader.size) r ↔
            image.Clears file (off + (i + 1) * SectionHeader.size) r := by
        rw [Clears, ofBytes_behind_captureSection image hin (Nat.le_add_right _ _), next_header]
        rfl
      have hsplit : (∃ i < n + 1, image.Clears file (off + i * SectionHeader.size) r) ↔
          (∃ i < n, image.Clears file (off + (i + 1) * SectionHeader.size) r) ∨
            image.Clears file off r := by
        rw [Nat.exists_lt_succ_left, Nat.zero_mul, Nat.add_zero, or_comm]
      rw [captureSectionsFrom]
      dsimp only
      rw [ih (by omega), image.byteAt_captureSection hin]
      simp only [hbehind, hsplit, ite_or]

/-- **The captured headers** are those that the input has in the table. -/
lemma getElem?_captureSectionsFrom (acc : Array SectionHeader)
    (hoff : off + n * SectionHeader.size ≤ file.size) {i : ℕ} (hi : i < n) :
    ∃ s, (image.captureSectionsFrom file off acc n).2[acc.size + i]? = some s ∧
      { s with name := "" } = SectionHeader.ofBytes file (off + i * SectionHeader.size) := by
  induction n generalizing file off acc i with
  | zero => exact absurd hi (Nat.not_lt_zero i)
  | succ n ih =>
      rw [Nat.succ_mul] at hoff
      have hin : off + SectionHeader.size ≤ file.size := by omega
      have hsize := image.size_captureSection hin
      rw [captureSectionsFrom]
      dsimp only
      cases i with
      | zero =>
          rw [getElem?_captureSectionsFrom_of_lt _ _ n (by simp)]
          refine ⟨_, Array.getElem?_push_size, ?_⟩
          rw [Nat.zero_mul, Nat.add_zero, ofBytes_captureSection]
      | succ i =>
          have hbehind : off + SectionHeader.size + n * SectionHeader.size ≤
              (image.captureSection file off).1.size := by omega
          obtain ⟨s, hs, hstored⟩ :=
            ih (acc.push (image.captureSection file off).2) hbehind (Nat.lt_of_succ_lt_succ hi)
          rw [Array.size_push, Nat.add_assoc, Nat.add_comm 1] at hs
          rw [ofBytes_behind_captureSection image hin (Nat.le_add_right _ _), next_header]
            at hstored
          exact ⟨s, hs, hstored⟩

/-! ### The table -/

/-- The headers that are captured lie in the file. -/
lemma tableEnd_le (h : image.tableOffset ≤ file.size) :
    image.tableOffset + image.tableLength file.size * SectionHeader.size ≤ file.size := by
  have hlength : image.tableLength file.size * SectionHeader.size ≤ file.size - image.tableOffset :=
    (Nat.mul_le_mul_right _ (min_le_right _ _)).trans (Nat.div_mul_le_self _ _)
  omega

lemma length_captureSections (image : Image) (file : ByteArray) :
    (image.captureSections file).2.length = image.tableLength file.size := by
  rw [captureSections, Array.length_toList, size_captureSectionsFrom]
  exact Nat.zero_add _

lemma getElem?_captureSections (h : image.tableOffset ≤ file.size) {i : ℕ} {s : SectionHeader}
    (hs : (image.captureSections file).2[i]? = some s) :
    { s with name := "" } =
      SectionHeader.ofBytes file (image.tableOffset + i * SectionHeader.size) := by
  have hi : i < image.tableLength file.size := by
    rw [← length_captureSections]
    exact (List.getElem?_eq_some_iff.mp hs).1
  obtain ⟨s', hs', hstored⟩ := getElem?_captureSectionsFrom #[] (tableEnd_le h) hi
  rw [captureSections, Array.getElem?_toList] at hs
  rw [Array.size_empty, Nat.zero_add, hs] at hs'
  obtain rfl := Option.some.inj hs'
  exact hstored

lemma sections_captureSectionTable (h : image.tableOffset ≤ file.size) :
    (image.captureSectionTable file).1.sections = (image.captureSections file).2 := by
  rw [captureSectionTable, if_neg (Nat.not_lt.mpr h)]
  rfl

/-- The byte at `r` lies in the raw data pointer that the header of a section without raw data has
in the file. -/
def InStalePointer (image : Image) (r : ℕ) : Prop :=
  ∃ i s, image.sections[i]? = some s ∧ s.rawSize = 0 ∧ s.rawPointer ≠ 0 ∧
    let field := image.tableOffset + i * SectionHeader.size + SectionHeader.rawPointerOffset
    r ∈ Set.Ico field (field + 4)

/-- The captured image has the section table of the file, and the file is `F` behind the capture. -/
structure ReadsTable (captured : Image) (file F : ByteArray) : Prop where
  /-- As many headers are captured as are declared, if the file holds them completely. -/
  length_eq : captured.sections.length =
    if file.size < captured.tableOffset then 0
    else min captured.file.sectionCount.toNat
      ((file.size - captured.tableOffset) / SectionHeader.size)
  /-- Each of them is the one of the input, except for the name to be shown. -/
  stored : ∀ i s, captured.sections[i]? = some s → { s with name := "" } =
    SectionHeader.ofBytes file (captured.tableOffset + i * SectionHeader.size)
  /-- The file keeps its size. -/
  size_eq : F.size = file.size
  /-- Released versions clear the pointers of sections without raw data. -/
  cleared : captured.config.version ≠ .generic →
    ∀ r, captured.InStalePointer r → byteAt F r = 0
  /-- All other bytes are kept. -/
  kept : ∀ r, ¬ captured.InStalePointer r → byteAt F r = byteAt file r
  /-- The lenient rules keep all bytes. -/
  lenient : captured.config.version = .generic → F = file

/-- The walk clears what the stale pointers take, where the rules ask for it. -/
lemma exists_clears_iff (h : image.tableOffset ≤ file.size) (r : ℕ) :
    (∃ i < image.tableLength file.size,
        image.Clears file (image.tableOffset + i * SectionHeader.size) r) ↔
      image.config.version ≠ .generic ∧
        { image with sections := (image.captureSections file).2 }.InStalePointer r := by
  have hclears (i : ℕ) (s : SectionHeader) (hs : { s with name := "" } =
      SectionHeader.ofBytes file (image.tableOffset + i * SectionHeader.size)) :
      image.clearsPointer
          (SectionHeader.ofBytes file (image.tableOffset + i * SectionHeader.size)) = true ↔
        image.config.version ≠ .generic ∧ s.rawSize = 0 ∧ s.rawPointer ≠ 0 := by
    rw [← hs, clearsPointer, Config.clearsEmptyPointers]
    simp only [Bool.and_eq_true, bne_iff_ne, beq_iff_eq]
    tauto
  constructor
  · rintro ⟨i, hi, hclear, hr⟩
    rw [← length_captureSections] at hi
    have hs := List.getElem?_eq_getElem hi
    obtain ⟨hversion, hsize, hpointer⟩ :=
      (hclears i _ (getElem?_captureSections h hs)).mp hclear
    exact ⟨hversion, i, _, hs, hsize, hpointer, hr⟩
  · rintro ⟨hversion, i, s, hs, hsize, hpointer, hr⟩
    have hi := (List.getElem?_eq_some_iff.mp hs).1
    rw [length_captureSections] at hi
    exact ⟨i, hi, (hclears i s (getElem?_captureSections h hs)).mpr ⟨hversion, hsize, hpointer⟩, hr⟩

/-- There is nothing to read of a table behind the end of the file. -/
lemma readsTable_of_lt {captured : Image} (h : captured.sections = [])
    (hout : file.size < captured.tableOffset) : captured.ReadsTable file file := by
  have hnone (i : ℕ) (s : SectionHeader) : captured.sections[i]? ≠ some s := by
    rw [h]
    exact (nofun : (none : Option SectionHeader) ≠ some s)
  constructor
  case length_eq => rw [h, if_pos hout, List.length_nil]
  case stored => exact fun i s hs => absurd hs (hnone i s)
  case size_eq => rfl
  case cleared => exact fun _ r ⟨i, s, hs, _⟩ => absurd hs (hnone i s)
  case kept => exact fun _ _ => rfl
  case lenient => exact fun _ => rfl

/-- A capture of the section table, for an image without sections, reads it. -/
lemma readsTable_captureSectionTable (h : image.sections = []) (file : ByteArray) :
    (image.captureSectionTable file).1.ReadsTable file (image.captureSectionTable file).2 := by
  by_cases hin : image.tableOffset ≤ file.size
  · have hF : (image.captureSectionTable file).2 = (image.captureSections file).1 := by
      rw [captureSectionTable, if_neg (Nat.not_lt.mpr hin)]
    rw [captureSectionTable_frame, sections_captureSectionTable hin, hF]
    have hbyte (r : ℕ) : byteAt (image.captureSections file).1 r =
        if ∃ i < image.tableLength file.size,
          image.Clears file (image.tableOffset + i * SectionHeader.size) r then 0
        else byteAt file r := byteAt_captureSectionsFrom (tableEnd_le hin) r
    have hsize : (image.captureSections file).1.size = file.size :=
      size_fst_captureSectionsFrom (tableEnd_le hin)
    constructor
    case length_eq =>
      exact (length_captureSections image file).trans (if_neg (Nat.not_lt.mpr hin)).symm
    case stored => exact fun i s hs => getElem?_captureSections hin hs
    case size_eq => exact hsize
    case cleared =>
      intro hversion r hr
      rw [hbyte, if_pos ((exists_clears_iff hin r).mpr ⟨hversion, hr⟩)]
    case kept =>
      intro r hr
      rw [hbyte, if_neg fun hc => hr ((exists_clears_iff hin r).mp hc).2]
    case lenient =>
      intro hversion
      refine eq_of_byteAt_eq hsize fun r _ => ?_
      rw [hbyte, if_neg fun hc => ((exists_clears_iff hin r).mp hc).1 hversion]
  · have hout : image.captureSectionTable file = (image.record .sectionTableOutOfFile, file) :=
      if_pos (Nat.lt_of_not_le hin)
    rw [hout]
    exact readsTable_of_lt h (Nat.lt_of_not_le hin)

/-- **What a capture reads and clears**: the section table of the input, whatever it clears in front
of the header that it reads. -/
theorem readsTable_of_capture {config : Config} {captured : Image} {F : ByteArray}
    (h : capture config file = (captured, .ok F)) : captured.ReadsTable file F := by
  obtain ⟨-, nt, hnt, ht⟩ := capture_ok h
  have hframe := captureNtHeaders_frame { empty config with dos := DosHeader.ofBytes file } file
  rw [hnt] at hframe
  have hreads := readsTable_captureSectionTable hframe.2.2.1 file
  rwa [ht] at hreads

end Image

end PeImage
