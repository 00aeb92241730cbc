/-
Headers written and read back.

The DOS header, the file header and a section header are stored as records of fixed fields, and to
write and to read them are inverse, at every offset and for every buffer.

* `Storage`: a kind of header as it is stored at an offset; `Storage.Inverse`: what writing and
  reading have to do with each other;
* `Storage.Lawful`: what of a kind of header is to be checked, field by field;
  `Storage.Lawful.inverse`: it is enough;
* `DosHeader.lawful`, `FileHeader.lawful`, `SectionHeader.lawful`: it holds of the three kinds;
* `inverse_storage`: so writing and reading are inverse for all of them.
-/
import PeImage.Header.Dos
import PeImage.Header.File
import PeImage.Header.Section
import PeImage.Proofs.Records

namespace PeImage

/-! ### Headers in storage -/

/-- A kind of header as it is stored in buffers at an offset. -/
structure Storage (α : Type) where
  /-- The offset. -/
  off : ℕ
  /-- Bytes in a header. -/
  size : ℕ
  /-- The fields in the order in which they are stored. -/
  fields : α → List Field
  /-- The part of a header that is stored. -/
  stored : α → α
  /-- Reads a header. -/
  read : ByteArray → Except Fault α
  /-- Writes a header. -/
  write : α → ByteArray → ByteArray × Except Fault Unit

namespace Storage

variable {α : Type} {s : Storage α} {widths : List ℕ} {decode : ByteArray → α}

/-- Writing and reading are inverse, and touch nothing but the header. -/
structure Inverse (s : Storage α) : Prop where
  /-- A header is written if it has room. -/
  write_snd (h : α) (b : ByteArray) :
    (s.write h b).2 = if s.off + s.size ≤ b.size then .ok () else .error .outOfBounds
  /-- It has none where its end is no offset of the machine. -/
  write_snd_of_le (h : α) (b : ByteArray) : b.size < 2 ^ 64 → 2 ^ 64 ≤ s.off + s.size →
    (s.write h b).2 = .error .outOfBounds
  /-- A buffer keeps its size. -/
  size_write (h : α) (b : ByteArray) : (s.write h b).1.size = b.size
  /-- A header that was written is read. -/
  read_write (h : α) (b : ByteArray) : s.off + s.size ≤ b.size →
    s.read (s.write h b).1 = .ok (s.stored h)
  /-- Every byte outside of it is left. -/
  byteAt_write (h : α) (b : ByteArray) (i : ℕ) : i ∉ Set.Ico s.off (s.off + s.size) →
    byteAt (s.write h b).1 i = byteAt b i
  /-- If it is not written, the fields at its front that have room are in their places, and every
  other byte is left. -/
  byteAt_write_of_lt (h : α) (b : ByteArray) (i : ℕ) : b.size < s.off + s.size →
    byteAt (s.write h b).1 i =
      if i ∈ Set.Ico s.off (s.off + totalWidth (fitting (b.size - s.off) (s.fields h))) then
        byteAt (recordBytes (fitting (b.size - s.off) (s.fields h))) (i - s.off)
      else byteAt b i
  /-- A header is read where it has room. -/
  read_eq_ok_iff (b : ByteArray) : (∃ h, s.read b = .ok h) ↔ s.off + s.size ≤ b.size
  /-- To write a header that was read changes nothing. -/
  write_read (h : α) (b : ByteArray) : s.read b = .ok h → s.write h b = (b, .ok ())

/-- A kind of header that is stored as a record with fields of the given widths, and is decoded
field by field. -/
structure Lawful (s : Storage α) (widths : List ℕ) (decode : ByteArray → α) : Prop where
  size_eq : s.size = widths.sum
  widths_ne_nil : widths ≠ []
  widths_pos : ∀ w ∈ widths, 0 < w
  map_width (h : α) : (s.fields h).map Field.width = widths
  value_lt (h : α) : ∀ f ∈ s.fields h, f.value < valueCount f.width
  fields_decode (b : ByteArray) : s.fields (decode b) = fieldsAt b s.off widths
  stored_decode (b : ByteArray) : s.stored (decode b) = decode b
  stored_eq (h h' : α) : s.fields h = s.fields h' → s.stored h = s.stored h'
  read_eq (b : ByteArray) :
    s.read b = if s.off + s.size ≤ b.size then .ok (decode b) else .error .outOfBounds
  write_eq (h : α) (b : ByteArray) : s.write h b = writeFields b s.off (s.fields h)

namespace Lawful

lemma totalWidth_fields (hs : s.Lawful widths decode) (h : α) :
    totalWidth (s.fields h) = s.size := by
  rw [totalWidth_eq_sum, hs.map_width, hs.size_eq]

lemma width_pos (hs : s.Lawful widths decode) (h : α) : ∀ f ∈ s.fields h, 0 < f.width := by
  intro f hf
  refine hs.widths_pos f.width ?_
  rw [← hs.map_width h]
  exact List.mem_map_of_mem hf

lemma fields_ne_nil (hs : s.Lawful widths decode) (h : α) : s.fields h ≠ [] := by
  intro hnil
  refine hs.widths_ne_nil ?_
  rw [← hs.map_width h, hnil, List.map_nil]

lemma write_snd (hs : s.Lawful widths decode) (h : α) (b : ByteArray) :
    (s.write h b).2 = if s.off + s.size ≤ b.size then .ok () else .error .outOfBounds := by
  rw [hs.write_eq, writeFields_snd (hs.width_pos h) (hs.fields_ne_nil h), hs.totalWidth_fields]

lemma byteAt_write (hs : s.Lawful widths decode) (h : α) (b : ByteArray) (i : ℕ) :
    byteAt (s.write h b).1 i =
      if i ∈ Set.Ico s.off (s.off + totalWidth (fitting (b.size - s.off) (s.fields h))) then
        byteAt (recordBytes (fitting (b.size - s.off) (s.fields h))) (i - s.off)
      else byteAt b i := by
  rw [hs.write_eq, byteAt_writeFields (hs.width_pos h)]

/-- What is written is decoded. -/
lemma decode_write (hs : s.Lawful widths decode) (h : α) (b : ByteArray)
    (hin : s.off + s.size ≤ b.size) : decode (s.write h b).1 = s.stored h := by
  have hall : fitting (b.size - s.off) (s.fields h) = s.fields h :=
    fitting_eq_self (by rw [hs.totalWidth_fields]; omega)
  have hfields : s.fields (decode (s.write h b).1) = s.fields h := by
    rw [hs.fields_decode, ← hs.map_width h]
    refine fieldsAt_eq_of_byteAt (hs.value_lt h) fun i hi => ?_
    rw [hs.byteAt_write, hall, if_pos (Set.mem_Ico.mpr ⟨by omega, by omega⟩),
      Nat.add_sub_cancel_left]
  rw [← hs.stored_decode, hs.stored_eq _ _ hfields]

/-- **Records are written and read back**: if a kind of header is stored as a record of fixed
fields and decoded from as many, writing and reading are inverse. -/
theorem inverse (hs : s.Lawful widths decode) : s.Inverse := by
  constructor
  case write_snd => exact hs.write_snd
  case write_snd_of_le =>
    intro h b hb hover
    rw [hs.write_snd, if_neg (by omega)]
  case size_write =>
    intro h b
    rw [hs.write_eq, size_writeFields]
  case read_write =>
    intro h b hin
    have hsize : (s.write h b).1.size = b.size := by rw [hs.write_eq, size_writeFields]
    rw [hs.read_eq, hsize, if_pos hin, hs.decode_write h b hin]
  case byteAt_write =>
    intro h b i hi
    have hle := totalWidth_fitting_le (b.size - s.off) (s.fields h)
    rw [hs.totalWidth_fields] at hle
    rw [hs.byteAt_write, if_neg]
    exact fun hmem => hi (Set.Ico_subset_Ico_right (Nat.add_le_add_left hle _) hmem)
  case byteAt_write_of_lt => exact fun h b i _ => hs.byteAt_write h b i
  case read_eq_ok_iff =>
    intro b
    rw [hs.read_eq]
    split_ifs with hin
    · exact iff_of_true ⟨decode b, rfl⟩ hin
    · exact iff_of_false (by simp) hin
  case write_read =>
    intro h b hread
    rw [hs.read_eq] at hread
    split_ifs at hread with hin
    cases hread
    rw [hs.write_eq, hs.fields_decode]
    exact writeFields_fieldsAt (by rwa [← hs.size_eq])

end Lawful

end Storage

/-! ### The three kinds of headers -/

/-- The fields in front tell the entries of an array, of which there are always as many. -/
lemma map_toList_append_inj {β : Type} {n : ℕ} {f : β → Field} (hf : Function.Injective f)
    {v w : Vector β n} {l r : List Field} :
    v.toList.map f ++ l = w.toList.map f ++ r ↔ v = w ∧ l = r := by
  constructor
  · intro h
    obtain ⟨hmap, hrest⟩ := List.append_inj h (by simp)
    exact ⟨Vector.toList_inj.mp (hf.list_map hmap), hrest⟩
  · rintro ⟨rfl, rfl⟩
    rfl

/-- An array of bytes is read as so many fields. -/
lemma map_u8_ofFn (b : ByteArray) (off n : ℕ) :
    (Vector.ofFn fun i : Fin n => byteAt b (off + i)).toList.map .u8 =
      fieldsAt b off (List.replicate n 1) := by
  rw [← ofFn_natAt, Vector.toList_ofFn, List.map_ofFn]
  simp [Function.comp_def, Field.u8_byteAt]

/-- An array of words is read as so many fields. -/
lemma map_u16_ofFn (b : ByteArray) (off n : ℕ) :
    (Vector.ofFn fun i : Fin n => u16At b (off + 2 * i)).toList.map .u16 =
      fieldsAt b off (List.replicate n 2) := by
  rw [← ofFn_natAt, Vector.toList_ofFn, List.map_ofFn]
  simp [Function.comp_def, Field.u16_u16At]

/-- DOS headers, which are stored at the start of a buffer. -/
def DosHeader.storage : Storage DosHeader where
  off := 0
  size := size
  fields := fields
  stored := id
  read := read
  write := write

/-- File headers at an offset. -/
def FileHeader.storage (off : ℕ) : Storage FileHeader where
  off := off
  size := size
  fields := fields
  stored := id
  read b := read b off
  write h b := write h b off

/-- Section headers at an offset, of which the resolved name is not stored. -/
def SectionHeader.storage (off : ℕ) : Storage SectionHeader where
  off := off
  size := size
  fields := fields
  stored h := { h with name := "" }
  read b := read b off
  write h b := write h b off

/-- The widths of the fields of a DOS header: words, two arrays of them among these, and the offset
of the NT headers. -/
def DosHeader.widths : List ℕ :=
  List.replicate 14 2 ++ List.replicate 4 2 ++ [2, 2] ++ List.replicate 10 2 ++ [4]

/-- The widths of the fields of a file header. -/
def FileHeader.widths : List ℕ := [2, 2, 4, 4, 4, 2, 2]

/-- The widths of the fields of a section header: the bytes of the name, and what is behind it. -/
def SectionHeader.widths : List ℕ :=
  List.replicate shortNameSize 1 ++ [4, 4, 4, 4, 4, 4, 2, 2, 4]

lemma DosHeader.lawful : storage.Lawful widths ofBytes := by
  constructor
  case size_eq => rfl
  case widths_ne_nil => decide
  case widths_pos => decide
  case map_width =>
    intro h
    simp [storage, fields, words, widths, Function.comp_def, Field.u16, Field.u32]
  case value_lt =>
    intro h
    simp [storage, fields, words, or_imp, forall_and, Field.lt_u16, Field.lt_u32]
  case fields_decode =>
    intro b
    simp [storage, fields, words, ofBytes, widths, fieldsAt, map_u16_ofFn, Field.u16_u16At,
      Field.u32_u32At]
  case stored_decode => exact fun _ => rfl
  case stored_eq =>
    intro h h' he
    cases h
    cases h'
    simpa [storage, fields, words, map_toList_append_inj Field.u16_injective,
      Field.u16_injective.eq_iff, Field.u32_injective.eq_iff] using he
  case read_eq =>
    intro b
    simp [storage, read]
  case write_eq => exact fun _ _ => rfl

lemma FileHeader.lawful (off : ℕ) : (storage off).Lawful widths fun b => ofBytes b off := by
  constructor
  case size_eq => rfl
  case widths_ne_nil => decide
  case widths_pos => decide
  case map_width => exact fun _ => rfl
  case value_lt =>
    intro h
    simp [storage, fields, Field.lt_u16, Field.lt_u32]
  case fields_decode =>
    intro b
    simp [storage, fields, ofBytes, widths, fieldsAt, Field.u16_u16At, Field.u32_u32At]
  case stored_decode => exact fun _ => rfl
  case stored_eq =>
    intro h h' he
    cases h
    cases h'
    simpa [storage, fields, Field.u16_injective.eq_iff, Field.u32_injective.eq_iff] using he
  case read_eq => exact fun _ => rfl
  case write_eq => exact fun _ _ => rfl

lemma SectionHeader.lawful (off : ℕ) : (storage off).Lawful widths fun b => ofBytes b off := by
  constructor
  case size_eq => rfl
  case widths_ne_nil => decide
  case widths_pos => decide
  case map_width =>
    intro h
    simp [storage, fields, widths, Function.comp_def, Field.u8, Field.u16, Field.u32]
  case value_lt =>
    intro h
    simp [storage, fields, or_imp, forall_and, Field.lt_u8, Field.lt_u16, Field.lt_u32]
  case fields_decode =>
    intro b
    simp [storage, fields, ofBytes, widths, shortNameSize, fieldsAt, map_u8_ofFn,
      Field.u16_u16At, Field.u32_u32At]
  case stored_decode => exact fun _ => rfl
  case stored_eq =>
    intro h h' he
    cases h
    cases h'
    simpa [storage, fields, map_toList_append_inj Field.u8_injective, Field.u16_injective.eq_iff,
      Field.u32_injective.eq_iff] using he
  case read_eq => exact fun _ => rfl
  case write_eq => exact fun _ _ => rfl

/-- **Headers are written and read back**: for the DOS header at the start of a buffer, and for the
file header and a section header at any offset, writing and reading are inverse. -/
theorem inverse_storage :
    (DosHeader.storage.size = 64 ∧ DosHeader.storage.Inverse) ∧
      ∀ off, ((FileHeader.storage off).size = 20 ∧ (FileHeader.storage off).Inverse) ∧
        (SectionHeader.storage off).size = 40 ∧ (SectionHeader.storage off).Inverse :=
  ⟨⟨rfl, DosHeader.lawful.inverse⟩, fun off =>
    ⟨⟨rfl, (FileHeader.lawful off).inverse⟩, rfl, (SectionHeader.lawful off).inverse⟩⟩

end PeImage
