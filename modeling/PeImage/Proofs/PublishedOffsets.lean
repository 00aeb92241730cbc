/-
The offsets at which tools find fields of the optional header.

The decoder goes over the optional header from field to field, and tools go to a field by an offset
from a table. Where a file has complete headers, the two meet: at each offset that an image
publishes, its file has what was decoded for the field.

* `OptionalHeader.front`, `Layout.frontWidths`: the fields in front of the number of directories, in
  the order in which they are stored; `OptionalHeader.front_ofBytes`: they are decoded one behind
  the other;
* `OptionalHeader.directory?_ofBytes`: the directories behind them;
* `Image.PublishesFields`: the offsets that an image publishes are those of its fields;
* `Image.publishesFields_of_loadHeaders`: so they are after a load, if the file has complete headers
  and goes on behind them.
-/
import PeImage.Proofs.BaseField
import PeImage.Proofs.PresentDirectories
import PeImage.Proofs.Records

namespace PeImage

/-! ### The fields in their order -/

/-- The widths of the fields in front of the number of directories. -/
def Layout.frontWidths (l : Layout) : List ℕ :=
  [2, 1, 1, 4, 4, 4, 4, 4] ++
    (match l with
      | .narrow => [4]
      | .wide => []) ++
    [l.addressSize, 4, 4, 2, 2, 2, 2, 2, 2, 4, 4, 4, 4, 2, 2] ++
    List.replicate 4 l.addressSize ++ [4]

/-- The number of directories follows them. -/
lemma Layout.sum_frontWidths (l : Layout) : l.frontWidths.sum = l.directoryCountOffset := by
  cases l <;> rfl

namespace OptionalHeader

/-- The fields of a header of layout `l` in front of the number of directories, in the order in
which they are stored. -/
def front (l : Layout) (h : OptionalHeader) : List Field :=
  let head : List Field :=
    [.u16 h.magic, .u8 h.linkerMajor, .u8 h.linkerMinor, .u32 h.sizeOfCode,
     .u32 h.sizeOfInitializedData, .u32 h.sizeOfUninitializedData, .u32 h.entryPoint,
     .u32 h.baseOfCode]
  let dataBase : List Field :=
    match l with
    | .narrow => [.u32 h.baseOfData]
    | .wide => []
  let middle : List Field :=
    [⟨l.addressSize, h.imageBase.toNat⟩, .u32 h.sectionAlignment, .u32 h.fileAlignment,
     .u16 h.systemMajor, .u16 h.systemMinor, .u16 h.imageMajor, .u16 h.imageMinor,
     .u16 h.subsystemMajor, .u16 h.subsystemMinor, .u32 h.win32Version, .u32 h.sizeOfImage,
     .u32 h.sizeOfHeaders, .u32 h.checksum, .u16 h.subsystem, .u16 h.dllCharacteristics]
  let memory : List Field :=
    [h.stackReserve, h.stackCommit, h.heapReserve, h.heapCommit].map fun size =>
      ⟨l.addressSize, size.toNat⟩
  head ++ dataBase ++ middle ++ memory ++ [.u32 h.loaderFlags]

/-- **Decoding in order**: each field begins where the one in front of it ends. -/
theorem front_ofBytes (l : Layout) (b : ByteArray) (off : ℕ) :
    (ofBytes l b off).front l = fieldsAt b off l.frontWidths := by
  cases l
  all_goals
    simp [front, ofBytes, Layout.frontWidths, fieldsAt, Layout.toNat_addressAt, Layout.addressSize,
      Layout.imageBaseOffset, Layout.checksumOffset, Layout.stackOffset, Layout.loaderFlagsOffset,
      Field.u8_byteAt, Field.u16_u16At, Field.u32_u32At, Nat.add_assoc]

/-- The directories that are declared are decoded, and the others are zero. -/
lemma directory?_ofBytes (l : Layout) (b : ByteArray) (off i : ℕ) :
    ((ofBytes l b off).directory? i).getD {} =
      if i < declaredDirectories l b off then
        ⟨u32At b (off + l.directoriesOffset + i * Directory.entrySize),
          u32At b (off + l.directoriesOffset + i * Directory.entrySize + 4)⟩
      else {} := by
  have hle : declaredDirectories l b off ≤ DirectoryKind.count := min_le_right _ _
  rw [directory?, show (ofBytes l b off).directories = directoriesAt l b off from rfl,
    directoriesAt, Vector.getElem?_ofFn]
  split_ifs with hi hd hd
  · rfl
  · rfl
  · omega
  · rfl

end OptionalHeader

/-! ### Published offsets -/

namespace Image

variable {image loaded : Image} {file : ByteArray}

/-- At the offsets that an image publishes, a file has the fields that were decoded. -/
structure PublishesFields (image : Image) (file : ByteArray) : Prop where
  /-- The fields in front of the number of directories are decoded one behind the other. -/
  front_eq : image.optional.front image.layout =
    fieldsAt file (image.dos.ntOffset.toNat + optionalStart) image.layout.frontWidths
  /-- The number of directories is behind them. -/
  fieldOffset_directoryCount :
    image.fieldOffset .directoryCount = optionalStart + image.layout.frontWidths.sum
  /-- It is decoded as sixteen if it is larger. -/
  directoryCount_eq : image.optional.directoryCount.toNat =
    min (natAt file (image.dos.ntOffset.toNat + image.fieldOffset .directoryCount) 4) 16
  /-- As many directories are decoded, each with its address and its size. -/
  directory_eq (i : ℕ) : i < image.optional.directoryCount.toNat →
    natAt file (image.dos.ntOffset.toNat + image.fieldOffset .directories + 8 * i) 4 =
        (image.directory i).rva.toNat ∧
      natAt file (image.dos.ntOffset.toNat + image.fieldOffset .directories + 8 * i + 4) 4 =
        (image.directory i).size.toNat
  /-- The others are zero. -/
  directory_of_le (i : ℕ) : image.optional.directoryCount.toNat ≤ i →
    (image.directory i).rva = 0 ∧ (image.directory i).size = 0
  /-- Exports, resources and the configuration of the load have the entries 0, 2 and 10. -/
  fieldOffset_directory :
    image.fieldOffset (.directory .exportTable) = image.fieldOffset .directories + 8 * 0 ∧
      image.fieldOffset (.directory .resource) = image.fieldOffset .directories + 8 * 2 ∧
      image.fieldOffset (.directory .loadConfig) = image.fieldOffset .directories + 8 * 10
  /-- The checksum is decoded from its offset. -/
  checksum_eq : natAt file image.checksumOffset.toNat 4 = image.optional.checksum.toNat
  /-- The certificates have entry 4. -/
  securityOffset_eq : image.securityOffset.toNat =
    image.dos.ntOffset.toNat + image.fieldOffset .directories + 8 * 4
  /-- The base is decoded from where a move stores another one, with the same width. -/
  imageBase_eq : natAt file image.baseAddress.toNat image.layout.addressSize =
    image.optional.imageBase.toNat

/-- What is decoded of complete headers, in the layout that they name. No offset in them wraps
around. -/
lemma optionalHeader_of_loadHeaders (h : image.loadHeaders file = (loaded, .ok ()))
    (hm : loaded.optional.magic ≠ 0)
    (hin : loaded.dos.ntOffset.toNat + optionalStart + loaded.layout.size < file.size) :
    let off := loaded.dos.ntOffset.toNat + optionalStart
    off + 32 < 2 ^ 32 ∧ loaded.optional = .ofBytes loaded.layout file off ∧
      loaded.checksumOffset.toNat = off + loaded.layout.checksumOffset ∧
      loaded.securityOffset.toNat = off + loaded.layout.directoryOffset .security := by
  obtain ⟨F, hc⟩ := capture_of_loadHeaders h
  obtain ⟨hnone, -⟩ | ⟨hoptional, -, hchecksum, hsecurity⟩ := optionalHeader_of_capture hc
  · exact absurd (congrArg OptionalHeader.magic hnone) hm
  set off := loaded.dos.ntOffset.toNat + optionalStart
  have hlarge : 224 ≤ loaded.layout.size := by cases loaded.layout <;> decide
  have hlimit : off + 224 < 2 ^ 32 :=
    calc off + 224 ≤ off + loaded.layout.size := Nat.add_le_add_left hlarge off
      _ < file.size := hin
      _ < 2 ^ 32 := Nat.lt_succ_of_le (size_le_of_capture hc)
  have htoNat (k : ℕ) (hk : k ≤ 224) : (UInt32.ofNat (off + k)).toNat = off + k :=
    UInt32.toNat_ofNat_of_lt' (lt_of_le_of_lt (Nat.add_le_add_left hk off) hlimit)
  have hlayout := layout_eq_layoutAt hoptional (by omega)
  rw [← hlayout] at hoptional hchecksum hsecurity
  refine ⟨by omega, hoptional, ?_, ?_⟩
  · rw [hchecksum, htoNat _ (by cases loaded.layout <;> decide)]
  · rw [hsecurity, htoNat _ (by cases loaded.layout <;> decide)]

/-- **Published offsets are those of the fields**: if a load of the headers captures the magic
number of one of the layouts, and the file has the whole optional header and goes on behind it, then
at each offset that the image publishes the file has what was decoded for the field. -/
theorem publishesFields_of_loadHeaders (h : image.loadHeaders file = (loaded, .ok ()))
    (hm : loaded.optional.magic = Layout.narrow.magic ∨
      loaded.optional.magic = Layout.wide.magic)
    (hin : loaded.dos.ntOffset.toNat + optionalStart + loaded.layout.size < file.size) :
    loaded.PublishesFields file := by
  have hne : loaded.optional.magic ≠ 0 := by
    rcases hm with hm | hm <;> rw [hm] <;> decide
  obtain ⟨hlimit, hoptional, hchecksum, hsecurity⟩ := optionalHeader_of_loadHeaders h hne hin
  set off := loaded.dos.ntOffset.toNat + optionalStart with hoff
  have hplace (k : ℕ) : loaded.dos.ntOffset.toNat + (optionalStart + k) = off + k := by
    rw [hoff, Nat.add_assoc]
  have hcount : loaded.optional.directoryCount.toNat =
      OptionalHeader.declaredDirectories loaded.layout file off := by
    rw [hoptional]
    exact toNat_directoryCount_ofBytes loaded.layout file off
  have hdirectory (i : ℕ) := OptionalHeader.directory?_ofBytes loaded.layout file off i
  rw [← hoptional] at hdirectory
  constructor
  case front_eq =>
    rw [hoptional]
    exact OptionalHeader.front_ofBytes loaded.layout file off
  case fieldOffset_directoryCount => rw [fieldOffset, Layout.sum_frontWidths]
  case directoryCount_eq =>
    rw [hcount, fieldOffset, hplace]
    rfl
  case directory_eq =>
    intro i hi
    rw [hcount] at hi
    rw [directory, hdirectory, if_pos hi, fieldOffset, hplace, toNat_u32At, toNat_u32At,
      Directory.entrySize, Nat.mul_comm]
    exact ⟨rfl, rfl⟩
  case directory_of_le =>
    intro i hi
    rw [hcount] at hi
    rw [directory, hdirectory, if_neg (Nat.not_lt.mpr hi)]
    exact ⟨rfl, rfl⟩
  case fieldOffset_directory => exact ⟨rfl, rfl, rfl⟩
  case checksum_eq =>
    rw [hchecksum, hoptional]
    exact (toNat_u32At file _).symm
  case securityOffset_eq =>
    rw [hsecurity, fieldOffset, hplace]
    exact (Nat.add_assoc _ _ _).symm
  case imageBase_eq =>
    rw [toNat_baseAddress hlimit, hoptional]
    exact (Layout.toNat_addressAt _ file _).symm

/-- A file that declares all directories, of which it has the one of base relocations. -/
theorem publishesFields_kindsFile :
    let loaded := ((empty (.ofVersion .generic)).loadHeaders kindsFile).1
    loaded.PublishesFields kindsFile ∧ loaded.optional.directoryCount = 16 ∧
      (loaded.directory 5).rva = 312 := by
  have hshown :
      let loaded := (empty (.ofVersion .generic)).loadHeaders kindsFile
      loaded.2 = .ok () ∧ loaded.1.optional.magic = Layout.narrow.magic ∧
        loaded.1.dos.ntOffset.toNat + optionalStart + loaded.1.layout.size < kindsFile.size ∧
        loaded.1.optional.directoryCount = 16 ∧ (loaded.1.directory 5).rva = 312 := by
    decide +kernel
  generalize kindsFile = file at hshown ⊢
  obtain ⟨hok, hm, hin, hcount, hrva⟩ := hshown
  exact ⟨publishesFields_of_loadHeaders (Prod.ext rfl hok) (.inl hm) hin, hcount, hrva⟩

end Image

end PeImage
