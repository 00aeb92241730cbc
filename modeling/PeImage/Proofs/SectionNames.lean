/-
The names that sections are shown under.

A stored name that starts with a slash and a number refers to a string in the file, and is shown as
that string if there is a printable one. Every other stored name is shown without its zeros. The
string is looked up in the file as it is in the middle of the capture: the pointers that this header
and those in front of it make the capture clear are zero, and those of the headers behind them are
still there.

* `decimalValue`, `stringOffset`: the number that digits spell, and the offset that a name refers
  to; `toNat_leadingNumber`, `Image.longNameOffset?_eq_some_iff`: so they are read;
* `Image.LongName`: the string that a name refers to, and `Image.Named`: what a section is shown
  under; `Image.named_of_eq`: the rule of the capture gives that;
* `Image.ClearedUpTo`: the file in the middle of the capture, and `Image.name_captureSections`: each
  name is resolved in it;
* `Image.named_of_loadTo`: so every section of every load has its name;
* `Image.named_sharedNameFile`: a name that is cleared before it is looked up.
-/
import PeImage.Proofs.SectionCount
import PeImage.Proofs.StoredText

namespace PeImage

/-! ### Numbers in names -/

/-- The number that decimal digits spell, of which the first counts most. -/
def decimalValue (digits : List UInt8) : ℕ :=
  Nat.ofDigits 10 (digits.reverse.map fun b => b.toNat - 0x30)

lemma decimalValue_append (digits : List UInt8) (b : UInt8) :
    decimalValue (digits ++ [b]) = decimalValue digits * 10 + (b.toNat - 0x30) := by
  rw [decimalValue, decimalValue, List.reverse_append, List.reverse_singleton,
    List.singleton_append, List.map_cons, Nat.ofDigits_cons]
  omega

namespace Image

lemma toNat_sub_of_isDigit {b : UInt8} (h : isDigit b = true) :
    (b - 0x30).toUInt32.toNat = b.toNat - 0x30 := by
  rw [isDigit, Bool.and_eq_true, decide_eq_true_iff] at h
  rw [UInt8.toNat_toUInt32, UInt8.toNat_sub_of_le _ _ h.1]
  rfl

/-- The digits are read from left to right, and the number wraps. -/
lemma toNat_foldl_digits {digits : List UInt8} (h : ∀ b ∈ digits, isDigit b = true) :
    (digits.foldl (fun n b => n * 10 + (b - 0x30).toUInt32) (0 : UInt32)).toNat =
      decimalValue digits % 2 ^ 32 := by
  induction digits using List.reverseRecOn with
  | nil => rfl
  | append_singleton front b ih =>
      rw [List.forall_mem_append, List.forall_mem_singleton] at h
      rw [List.foldl_append, List.foldl_cons, List.foldl_nil, UInt32.toNat_add, UInt32.toNat_mul,
        ih h.1, toNat_sub_of_isDigit h.2, decimalValue_append]
      simp only [UInt32.reduceToNat]
      omega

/-- The number behind a slash. -/
lemma toNat_leadingNumber (name : List UInt8) :
    (leadingNumber name).toNat = decimalValue (name.takeWhile isDigit) % 2 ^ 32 :=
  toNat_foldl_digits fun _ hb => List.mem_takeWhile_imp hb

/-! ### The rule for names -/

/-- The offset in the file to which a stored name refers: it counts from the end of the symbol
table, modulo `2 ^ 32`. -/
def stringOffset (h : FileHeader) (name : List UInt8) : ℕ :=
  (h.symbolTable.toNat + 18 * h.symbolCount.toNat +
    decimalValue ((name.drop 1).takeWhile isDigit)) % 2 ^ 32

variable {image : Image} {file : ByteArray} {s : SectionHeader}

/-- Which names refer to the string table, and where to. -/
lemma longNameOffset?_eq_some_iff {name : List UInt8} {off : UInt32} :
    image.longNameOffset? name = some off ↔
      image.file.symbolTable ≠ 0 ∧ name.head? = some 0x2F ∧
        off.toNat = stringOffset image.file name := by
  have hoff (digits : List UInt8) :
      (image.file.symbolTable + image.file.symbolCount * symbolSize +
        leadingNumber digits).toNat = stringOffset image.file (0x2F :: digits) := by
    rw [UInt32.toNat_add, UInt32.toNat_add, UInt32.toNat_mul, toNat_leadingNumber, stringOffset,
      show symbolSize.toNat = 18 from rfl, List.drop_one, List.tail_cons]
    omega
  unfold longNameOffset?
  split
  · next digits =>
    split_ifs with htable
    · simp [htable]
    · rw [Option.some.injEq, ← UInt32.toNat_inj, hoff, eq_comm]
      simp [htable]
  · next hno =>
    constructor
    · rintro ⟨⟩
    · rintro ⟨-, hslash, -⟩
      obtain ⟨digits, rfl⟩ := List.head?_eq_some_iff.mp hslash
      exact absurd rfl (hno digits)

/-- The file has a string for the stored name of a section: the name starts with a slash, there is a
symbol table, and where the name refers to stand 1 to 1023 printable bytes and a zero. -/
structure LongName (h : FileHeader) (file : ByteArray) (s : SectionHeader) (text : List UInt8) :
    Prop where
  symbolTable : h.symbolTable ≠ 0
  slash : s.rawName.toList.head? = some 0x2F
  pos : 1 ≤ text.length
  le : text.length ≤ 1023
  printable : ∀ b ∈ text, 0x20 ≤ b ∧ b ≤ 0x7E
  stored : (window file (stringOffset h s.rawName.toList) (text.length + 1)).data.toList =
    text ++ [0]

/-- The section is shown under the string for its name, byte by byte, or under what its stored
bytes spell without the zeros among them, if there is no such string. -/
structure Named (h : FileHeader) (file : ByteArray) (s : SectionHeader) : Prop where
  long : ∀ text, LongName h file s text → s.name.toUTF8.data.toList = text
  short : (¬ ∃ text, LongName h file s text) →
    s.name = s.shortName ∧
      s.shortName = decodeUtf8List (s.rawName.toList.filter fun b => b != 0)

/-- The string for a name is what the rules for names take from the string table. -/
lemma longName_iff {text : List UInt8} :
    LongName image.file file s text ↔ text ≠ [] ∧ ∃ off,
      image.longNameOffset? s.rawName.toList = some off ∧
        Terminated longNameRules file off.toNat text := by
  have hprint (b : UInt8) : isPrintable b = true ↔ 0x20 ≤ b ∧ b ≤ 0x7E := by
    rw [isPrintable, Bool.and_eq_true, decide_eq_true_iff, decide_eq_true_iff]
  constructor
  · intro h
    set off := stringOffset image.file s.rawName.toList with hoff
    have hlt : off < 2 ^ 32 := Nat.mod_lt _ (by decide)
    have htoNat : (UInt32.ofNat off).toNat = off := UInt32.toNat_ofNat_of_lt' hlt
    refine ⟨List.ne_nil_of_length_pos h.pos, .ofNat off,
      longNameOffset?_eq_some_iff.mpr ⟨h.symbolTable, h.slash, htoNat⟩, ?_⟩
    -- the zero behind the string lies in the file
    have hend : off + text.length < file.size := by
      have hlength := congrArg List.length h.stored
      rw [← hoff, length_toList_window, List.length_append, List.length_singleton] at hlength
      omega
    have hstored := h.stored
    rw [← hoff, toList_window_succ hend] at hstored
    obtain ⟨htext, hzero⟩ := List.append_inj' hstored rfl
    rw [htoNat]
    constructor
    case stored => exact htext
    case ne_zero =>
      rintro b hb rfl
      exact absurd (h.printable 0 hb).1 (by decide)
    case printable => exact fun _ b hb => (hprint b).mpr (h.printable b hb)
    case ends => exact .inl ⟨Nat.lt_succ_of_le h.le, hend, List.singleton_inj.mp hzero⟩
  · rintro ⟨hne, off, hoff, h⟩
    obtain ⟨htable, hslash, hoff⟩ := longNameOffset?_eq_some_iff.mp hoff
    obtain ⟨hlimit, hend, hzero⟩ := h.ends.resolve_right fun hno => absurd hno.1 (by decide)
    constructor
    case symbolTable => exact htable
    case slash => exact hslash
    case pos => exact List.length_pos_iff.mpr hne
    case le => exact Nat.le_of_lt_succ hlimit
    case printable => exact fun b hb => (hprint b).mp (h.printable rfl b hb)
    case stored => rw [← hoff, toList_window_succ hend, h.stored, hzero]

/-- A string that is read from the string table is shown, unless it is empty. -/
lemma resolveName_of_terminated {off : UInt32} {text : List UInt8}
    (hoff : image.longNameOffset? s.rawName.toList = some off)
    (h : Terminated longNameRules file off.toNat text) :
    image.resolveName file s =
      if (decodeUtf8List text).isEmpty then s.shortName else decodeUtf8List text := by
  have hread : terminated? longNameRules file off.toNat = some text.toByteArray := by
    rw [terminated?_eq_some_iff, List.toList_data_toByteArray]
    exact h
  rw [resolveName, hoff]
  simp only [readTerminated, hread, Option.map_some, Option.getD_some, decodeUtf8,
    List.toList_data_toByteArray]

/-- **The string for a name** is shown byte by byte. -/
lemma toUTF8_resolveName {text : List UInt8} (h : LongName image.file file s text) :
    (image.resolveName file s).toUTF8.data.toList = text := by
  obtain ⟨hne, off, hoff, hterm⟩ := longName_iff.mp h
  have hdecoded : (decodeUtf8List text).toUTF8.data.toList = text :=
    toUTF8_decodeUtf8List fun b hb => UInt8.lt_of_le_of_lt (h.printable b hb).2 (by decide)
  rw [resolveName_of_terminated hoff hterm, if_neg]
  · exact hdecoded
  · rw [String.isEmpty_iff]
    intro hempty
    rw [hempty] at hdecoded
    exact hne hdecoded.symm

/-- **Every other name** is shown as it is stored: there is nothing to refer to, or the rules take
no string from there, or an empty one. -/
lemma resolveName_eq_shortName (h : ¬ ∃ text, LongName image.file file s text) :
    image.resolveName file s = s.shortName := by
  cases hoff : image.longNameOffset? s.rawName.toList with
  | none =>
      rw [resolveName, hoff]
      rfl
  | some off =>
    cases hread : terminated? longNameRules file off.toNat with
    | none =>
        rw [resolveName, hoff]
        simp only [readTerminated, hread]
        rfl
    | some bytes =>
        have hterm := terminated?_eq_some_iff.mp hread
        have hnil : bytes.data.toList = [] := by
          by_contra hne
          exact h ⟨_, longName_iff.mpr ⟨hne, off, hoff, hterm⟩⟩
        rw [hnil] at hterm
        rw [resolveName_of_terminated hoff hterm]
        rfl

/-- A name that the rule of the capture gives. -/
lemma named_of_eq (h : s.name = image.resolveName file s) : Named image.file file s where
  long _ ht := h ▸ toUTF8_resolveName ht
  short hno := ⟨h.trans (resolveName_eq_shortName hno), rfl⟩

/-! ### The walk -/

/-- The file with the pointers cleared that the first `n` headers of the table, as the input has
them, make a capture clear. -/
structure ClearedUpTo (image : Image) (file : ByteArray) (n : ℕ) (F : ByteArray) : Prop where
  size_eq : F.size = file.size
  byteAt_eq : ∀ r, byteAt F r =
    if ∃ j < n, image.Clears file (image.tableOffset + j * SectionHeader.size) r then 0
    else byteAt file r

variable {off n i : ℕ} {acc : Array SectionHeader}

/-- The name that a header has already does not matter for the one that it gets. -/
lemma resolveName_withName (file : ByteArray) (s : SectionHeader) (name : String) :
    image.resolveName file { s with name := name } = image.resolveName file s := by
  simp only [resolveName, SectionHeader.shortName]

/-- A name is resolved in the file as it is behind its header. -/
lemma name_captureSection (image : Image) (file : ByteArray) (off : ℕ) :
    (image.captureSection file off).2.name = image.resolveName (image.captureSection file off).1
      (image.captureSection file off).2 := by
  dsimp only [captureSection]
  exact (resolveName_withName _ _ _).symm

/-- So it is with every header of the walk. -/
lemma name_captureSectionsFrom (file : ByteArray) (off : ℕ) (acc : Array SectionHeader)
    (hi : i < n) : ∃ s, (image.captureSectionsFrom file off acc n).2[acc.size + i]? = some s ∧
      s.name = image.resolveName (image.captureSectionsFrom file off acc (i + 1)).1 s := by
  induction n generalizing file off acc i with
  | zero => exact absurd hi (Nat.not_lt_zero i)
  | succ n ih =>
      rw [captureSectionsFrom]
      dsimp only
      cases i with
      | zero =>
          rw [getElem?_captureSectionsFrom_of_lt _ _ n (by simp)]
          refine ⟨_, Array.getElem?_push_size, ?_⟩
          rw [captureSectionsFrom]
          dsimp only
          rw [captureSectionsFrom]
          exact image.name_captureSection file off
      | succ i =>
          obtain ⟨s, hs, hname⟩ := ih (image.captureSection file off).1
            (off + SectionHeader.size) (acc.push (image.captureSection file off).2)
            (Nat.lt_of_succ_lt_succ hi)
          rw [Array.size_push, Nat.add_assoc, Nat.add_comm 1] at hs
          refine ⟨s, hs, ?_⟩
          rw [captureSectionsFrom]
          exact hname

/-- **The name of a captured section**, and the file in which it is looked up. -/
lemma name_captureSections (h : image.tableOffset ≤ file.size)
    (hs : (image.captureSections file).2[i]? = some s) :
    ∃ F, image.ClearedUpTo file (i + 1) F ∧ s.name = image.resolveName F s := by
  have hi : i < image.tableLength file.size := by
    rw [← length_captureSections]
    exact (List.getElem?_eq_some_iff.mp hs).1
  have hend : image.tableOffset + (i + 1) * SectionHeader.size ≤ file.size :=
    (Nat.add_le_add_left (Nat.mul_le_mul_right _ hi) _).trans (tableEnd_le h)
  obtain ⟨s', hs', hname⟩ := image.name_captureSectionsFrom file image.tableOffset #[] hi
  rw [captureSections, Array.getElem?_toList] at hs
  rw [Array.size_empty, Nat.zero_add, hs] at hs'
  obtain rfl := Option.some.inj hs'
  exact ⟨_, ⟨size_fst_captureSectionsFrom hend, byteAt_captureSectionsFrom hend⟩, hname⟩

/-! ### Loads -/

/-- A capture that leaves sections has found the section table in the file. -/
lemma exists_captureSectionTable {config : Config} (h : (capture config file).1.sections ≠ []) :
    ∃ nt : Image, nt.tableOffset ≤ file.size ∧
      (capture config file).1 = (nt.captureSectionTable file).1 := by
  obtain hnone | ⟨-, nt, hnt, hsections⟩ := sections_capture config file
  · exact absurd hnone h
  · refine ⟨nt, ?_, hnt⟩
    by_contra hout
    rw [hnt, captureSectionTable, if_pos (Nat.lt_of_not_le hout)] at h
    exact h hsections

/-- **The names of the sections of a file**: every section that a load captures is the one that the
input has at its place in the table, and has its name from the file in which the pointers of this
header and of those in front of it are cleared, where the rules ask for it. -/
theorem named_of_loadTo {extent : Extent} (h : (image.loadTo extent file).1.sections[i]? = some s) :
    let loaded := (image.loadTo extent file).1
    { s with name := "" } =
        SectionHeader.ofBytes file (loaded.tableOffset + i * SectionHeader.size) ∧
      ∃ F, loaded.ClearedUpTo file (i + 1) F ∧ Named loaded.file F s := by
  intro loaded
  rw [loadTo_frame] at h
  have hne : (capture image.config file).1.sections ≠ [] :=
    List.ne_nil_of_mem (List.mem_of_getElem? h)
  obtain ⟨nt, hin, hnt⟩ := exists_captureSectionTable hne
  -- of what the table is read by, the load keeps everything
  have hloaded : loaded = { nt with
      latch := loaded.latch, sections := loaded.sections, contents := loaded.contents } := by
    simp only [loaded]
    rw [loadTo_frame, hnt, captureSectionTable_frame]
  have hs : (nt.captureSections file).2[i]? = some s := by
    rwa [hnt, sections_captureSectionTable hin] at h
  obtain ⟨F, hcleared, hname⟩ := name_captureSections hin hs
  rw [hloaded]
  exact ⟨getElem?_captureSections hin hs, F, ⟨hcleared.size_eq, hcleared.byteAt_eq⟩,
    named_of_eq hname⟩

/-! ### A name that is cleared away -/

/-- Two sections that refer to the same string, and no optional header. The end of the symbol table,
modulo `2 ^ 32`, is such that the string stands in the header of the second section, where its first
four bytes are the raw data pointer. -/
def sharedNameFile : ByteArray :=
  let dos : DosHeader := { magic := DosHeader.signature, ntOffset := 64 }
  let file : FileHeader :=
    { machine := 0x14C, sectionCount := 2, symbolTable := 0xFFFFFFEA, symbolCount := 5 }
  let rawName : Vector UInt8 shortNameSize := #v[0x2F, 0x38, 0x30, 0, 0, 0, 0, 0]
  let sections : List SectionHeader :=
    [{ rawName }, { rawName, rawPointer := 0x7865742E, relocationPointer := 0x3174 }]
  let fields := dos.fields ++ .u32 ntSignatureValue :: file.fields ++ sections.flatMap (·.fields)
  fields.foldl (fun b f => b ++ encode f.width f.value) .empty

/-- The first section is shown under the string. The second one has cleared it before its own name
is looked up. -/
theorem named_sharedNameFile :
    let loaded := ((empty (.ofVersion .xp)).loadHeaders sharedNameFile).1
    ∃ s₀ s₁, loaded.sections = [s₀, s₁] ∧ s₀.rawName = s₁.rawName ∧
      (s₀.name = ".text1" ∧ ∃ F, loaded.ClearedUpTo sharedNameFile 1 F ∧ Named loaded.file F s₀) ∧
      s₁.name = "/80" ∧ ∃ F, loaded.ClearedUpTo sharedNameFile 2 F ∧ Named loaded.file F s₁ := by
  have hshown : ((empty (.ofVersion .xp)).loadHeaders sharedNameFile).1.sections.map
      (fun s => (s.rawName.toList, s.name)) =
        [([0x2F, 0x38, 0x30, 0, 0, 0, 0, 0], ".text1"),
          ([0x2F, 0x38, 0x30, 0, 0, 0, 0, 0], "/80")] := by
    decide +kernel
  generalize sharedNameFile = file at hshown ⊢
  obtain ⟨s₀, rest, hsections, hs₀, hrest⟩ := List.map_eq_cons_iff.mp hshown
  obtain ⟨s₁, rest, rfl, hs₁, hnil⟩ := List.map_eq_cons_iff.mp hrest
  obtain rfl := List.map_eq_nil_iff.mp hnil
  obtain ⟨hraw₀, hname₀⟩ := Prod.mk.inj hs₀
  obtain ⟨hraw₁, hname₁⟩ := Prod.mk.inj hs₁
  have hstored : s₀.rawName = s₁.rawName := Vector.toList_inj.mp (hraw₀.trans hraw₁.symm)
  have hnamed (i : ℕ) (s : SectionHeader)
      (h : ((empty (.ofVersion .xp)).loadTo .headers file).1.sections[i]? = some s) :=
    (named_of_loadTo h).2
  refine ⟨s₀, s₁, hsections, hstored, ⟨hname₀, ?_⟩, hname₁, ?_⟩
  · exact hnamed 0 s₀ (congrArg (·[0]?) hsections)
  · exact hnamed 1 s₁ (congrArg (·[1]?) hsections)

end Image

end PeImage
