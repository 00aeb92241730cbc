/-
What splitting and growing make of the sizes of a section.

A section has a size in memory and one in the file, and the two are independent: raw data may be
padded beyond the memory that it is for, and memory may go on behind the raw data. Both edits here
overwrite the size in memory with one that is counted from the raw data.

* `SectionHeader.CutInto`: two sections of which the first begins where a third one does, and the
  second where the first ends;
* `Image.perform_splitSection`: a split cuts a section in two or changes nothing, and exactly when
  the sizes of the parts add up;
* `Image.wraps_tailFile`: a split behind the raw data of a section;
* `Image.enlargeLastSection_eq`, `Image.covers_enlargeLastSection`: growing rounds up the raw data
  of the last section and ends the image with it;
* `Image.shrinks_tailFile`: a section with more memory than that, which the image is cut to.
-/
import PeImage.Proofs.AddedSection
import PeImage.Proofs.History
import PeImage.Proofs.RemovedSection

namespace PeImage

namespace SectionHeader

/-- The first section begins where `s` does, in memory and in the file, and the second one begins
where the first one ends, as far as words tell. -/
structure CutInto (s first second : SectionHeader) : Prop where
  memory_start : first.virtualAddress = s.virtualAddress
  file_start : first.rawPointer = s.rawPointer
  memory_next : second.virtualAddress.toNat = first.virtualEnd % UInt32.size
  file_next : second.rawPointer.toNat = first.fileEnd % UInt32.size

end SectionHeader

namespace Image

open SectionHeader

variable {image split : Image} {i : ℕ} {front back : String} {off : UInt32} {s : SectionHeader}

/-! ### Splitting -/

/-- The parts of a section lie one behind the other. -/
lemma cutInto_parts (s : SectionHeader) (front back : String) (off : UInt32) :
    s.CutInto (frontPart s front off) (backPart s back off) :=
  ⟨rfl, rfl, UInt32.toNat_add _ _, UInt32.toNat_add _ _⟩

/-- What an offset takes of a size and what it leaves of it add up exactly if it lies within. -/
lemma toNat_add_toNat_sub_iff {n off : UInt32} :
    off.toNat + (n - off).toNat = n.toNat ↔ off ≤ n := by
  have hoff := off.toNat_lt
  have hn := n.toNat_lt
  rw [UInt32.le_iff_toNat_le, UInt32.toNat_sub]
  omega

/-- Where the section is larger in memory than the offset, the same parts add up to its size there
exactly if it is as large in the file. -/
lemma toNat_add_toNat_sub_eq_iff {n v off : UInt32} (hoff : off < v) :
    off.toNat + (n - off).toNat = v.toNat ↔ v = n := by
  -- the parts add up to `n`, or to `n` and a word more, and `v` is no more than a word
  have hv := v.toNat_lt
  have hn := n.toNat_lt
  rw [UInt32.lt_iff_toNat_lt] at hoff
  rw [UInt32.toNat_sub, ← UInt32.toNat_inj]
  omega

/-- Where two sections are that take the place of one. -/
lemma getElem?_parts {sections : List SectionHeader} (hi : i < sections.length)
    (first second : SectionHeader) :
    let parts := sections.take i ++ first :: second :: sections.drop (i + 1)
    parts[i]? = some first ∧ parts[i + 1]? = some second := by
  have hlength : (sections.take i).length = i := List.length_take_of_le hi.le
  constructor
  · rw [List.getElem?_append_right hlength.le, hlength, Nat.sub_self]
    rfl
  · rw [List.getElem?_append_right (by omega), hlength, Nat.add_sub_cancel_left]
    rfl

/-- **What a split makes of a section.** A split that fails changes nothing. Every other one puts
two sections in place of one, which lie one behind the other from where that one began, and changes
nothing else. Their raw sizes add up to that of the section exactly if the offset lies within the
raw data, and their virtual sizes exactly if the section is as large in memory as in the file. -/
theorem perform_splitSection (image : Image) (i : ℕ) (front back : String) (off : UInt32) :
    let split := image.perform (.splitSection i front back off)
    (∃ fault, image.splitSection i front back off = .error fault ∧ split = image) ∨
      ∃ s first second, image.splitSection i front back off = .ok split ∧
        image.section? i = some s ∧
        split = { image with
          sections := image.sections.take i ++ first :: second :: image.sections.drop (i + 1) } ∧
        split.section? i = some first ∧ split.section? (i + 1) = some second ∧
        s.CutInto first second ∧
        (first.rawSize.toNat + second.rawSize.toNat = s.rawSize.toNat ↔ off ≤ s.rawSize) ∧
        (first.virtualSize.toNat + second.virtualSize.toNat = s.virtualSize.toNat ↔
          s.virtualSize = s.rawSize) := by
  intro split
  cases hsplit : image.splitSection i front back off with
  | error fault =>
      refine .inl ⟨fault, rfl, ?_⟩
      show image.orElse (image.splitSection i front back off) = image
      rw [hsplit, orElse]
  | ok parts =>
      have hparts : split = parts := by
        show image.orElse (image.splitSection i front back off) = parts
        rw [hsplit, orElse]
      obtain ⟨-, -, s, hs, -, hoff, heq⟩ := splitSection_eq_ok_iff.mp hsplit
      obtain ⟨hfirst, hsecond⟩ := getElem?_parts (List.getElem?_eq_some_iff.mp hs).1
        (frontPart s front off) (backPart s back off)
      rw [hparts, ← heq]
      exact .inr ⟨s, frontPart s front off, backPart s back off, rfl, hs, rfl, hfirst, hsecond,
        cutInto_parts s front back off, toNat_add_toNat_sub_iff, toNat_add_toNat_sub_eq_iff hoff⟩

/-- A file with one section, whose memory goes on far behind its raw data. -/
def tailFile : ByteArray :=
  smallFile 0x1000 0x3000
    [{ virtualSize := 0x2000, virtualAddress := 0x1000, rawSize := 8, rawPointer := 224,
       characteristics := 0x40000000 }]
    [1, 2, 3, 4, 5, 6, 7, 8]

/-- The section is split behind its raw data: one part has more of it than there is, and the other
one nearly as much as a word can count. -/
theorem wraps_tailFile :
    let image := (loadFile tailFile).1
    image.isMapped = true ∧
      (image.section? 0).map (fun s => (s.virtualSize.toNat, s.rawSize.toNat)) = some (0x2000, 8) ∧
      (image.splitSection 0 "a" "b" 0x1000).map (·.sections.map fun s =>
        (s.virtualSize.toNat, s.rawSize.toNat)) =
          .ok [(0x1000, 0x1000), (0xFFFFF008, 0xFFFFF008)] := by
  decide +kernel

/-! ### Growing -/

variable {last : SectionHeader} {increment : UInt32}

/-- The last section after it has grown to the given size. -/
def grown (last : SectionHeader) (size : UInt32) : SectionHeader :=
  { last with virtualSize := size, rawSize := size }

lemma enlargeLastSection_eq (hlast : image.sections.getLast? = some last) (increment : UInt32) :
    let size := alignUp (last.rawSize + increment) image.optional.fileAlignment
    image.enlargeLastSection increment =
      { image with
        sections := image.sections.dropLast ++ [grown last size]
        optional.sizeOfImage := last.virtualAddress + size } := by
  rw [enlargeLastSection, hlast]
  rfl

/-- The size to which the last section grows, as long as the end of the section is a word. -/
lemma toNat_grownSize (hfa : image.optional.fileAlignment.toNat.isPowerOfTwo)
    (hfit : roundUp (last.rawSize.toNat + increment.toNat) image.optional.fileAlignment.toNat <
      UInt32.size) :
    (alignUp (last.rawSize + increment) image.optional.fileAlignment).toNat =
      roundUp (last.rawSize.toNat + increment.toNat) image.optional.fileAlignment.toNat := by
  have hsum : (last.rawSize + increment).toNat = last.rawSize.toNat + increment.toNat := by
    rw [UInt32.toNat_add]
    exact Nat.mod_eq_of_lt (lt_size_of_roundUp hfa hfit)
  rw [toNat_alignUp_of_lt hfa (by rwa [hsum]), hsum]

/-- **What growing makes of the last section.** Its raw size is the old one with the increment,
rounded up to the alignment of the file, and its virtual size is no smaller than before unless it
was larger than that. The image ends with the section, and nothing else changes. -/
theorem covers_enlargeLastSection (hlast : image.sections.getLast? = some last)
    (hfa : image.optional.fileAlignment.toNat.isPowerOfTwo)
    (hfit : last.virtualAddress.toNat + roundUp (last.rawSize.toNat + increment.toNat)
      image.optional.fileAlignment.toNat < UInt32.size) :
    let enlarged := image.enlargeLastSection increment
    ∃ s, enlarged = { image with
          sections := image.sections.dropLast ++ [s]
          optional.sizeOfImage := enlarged.optional.sizeOfImage } ∧
      s = { last with virtualSize := s.virtualSize, rawSize := s.rawSize } ∧
      last.rawSize.toNat + increment.toNat ≤ s.rawSize.toNat ∧
      image.optional.fileAlignment.toNat ∣ s.rawSize.toNat ∧
      (last.virtualSize ≤ s.rawSize → last.virtualSize ≤ s.virtualSize) ∧
      enlarged.optional.sizeOfImage.toNat = s.virtualEnd := by
  intro enlarged
  let size := alignUp (last.rawSize + increment) image.optional.fileAlignment
  have hsize : size.toNat = _ := toNat_grownSize hfa ((Nat.le_add_left _ _).trans_lt hfit)
  have heq : enlarged = _ := enlargeLastSection_eq hlast increment
  refine ⟨grown last size, by rw [heq], rfl, ?_, ?_, id, ?_⟩
  · show _ ≤ size.toNat
    rw [hsize]
    exact le_roundUp (Nat.pos_of_isPowerOfTwo hfa) _
  · show _ ∣ size.toNat
    rw [hsize]
    exact dvd_roundUp _ _
  · rw [heq]
    show (last.virtualAddress + size).toNat = last.virtualAddress.toNat + size.toNat
    rw [UInt32.toNat_add, hsize]
    exact Nat.mod_eq_of_lt hfit

/-- A file whose last section grows in memory, too. -/
theorem covers_dataFile :
    let image := (loadFile dataFile).1
    let enlarged := image.enlargeLastSection 0x1000
    image.isMapped = true ∧ ∃ last s, image.sections = [last] ∧ enlarged.sections = [s] ∧
      last.rawSize.toNat + 0x1000 ≤ s.rawSize.toNat ∧ 0x200 ∣ s.rawSize.toNat ∧
      last.virtualSize ≤ s.virtualSize ∧
      enlarged.optional.sizeOfImage.toNat = s.virtualEnd := by
  have hload : (loadFile dataFile).1.isMapped = true ∧
      (loadFile dataFile).1.sections.length = 1 ∧
      (loadFile dataFile).1.optional.fileAlignment = 0x200 ∧
      ((loadFile dataFile).1.section? 0).map (fun s =>
        (s.virtualAddress, s.virtualSize, s.rawSize)) = some (0x1000, 0x1000, 8) := by
    decide +kernel
  generalize (loadFile dataFile).1 = image at hload ⊢
  obtain ⟨hmapped, hlength, hfa, hfields⟩ := hload
  obtain ⟨last, hsections⟩ := List.length_eq_one_iff.mp hlength
  rw [section?, hsections] at hfields
  obtain ⟨haddress, hvirtual, hraw⟩ : last.virtualAddress = 0x1000 ∧
      last.virtualSize = 0x1000 ∧ last.rawSize = 8 := by simpa using hfields
  have hlast : image.sections.getLast? = some last := by rw [hsections]; rfl
  have hfit : last.virtualAddress.toNat + roundUp (last.rawSize.toNat + (0x1000 : UInt32).toNat)
      image.optional.fileAlignment.toNat < UInt32.size := by
    rw [haddress, hraw, hfa]
    decide
  obtain ⟨s, hs, -, hgrown, hdvd, hkeeps, hcovers⟩ :=
    covers_enlargeLastSection hlast (by rw [hfa]; exact ⟨9, rfl⟩) hfit
  rw [hfa] at hdvd
  refine ⟨hmapped, last, s, hsections, ?_, hgrown, hdvd, hkeeps ?_, hcovers⟩
  · rw [hs, hsections]
    rfl
  · rw [UInt32.le_iff_toNat_le, hvirtual]
    refine le_trans ?_ hgrown
    rw [hraw]
    decide

/-- The section of the file with the long memory grows to less than that, and the image ends
there. -/
theorem shrinks_tailFile :
    let image := (loadFile tailFile).1
    let enlarged := image.enlargeLastSection 0x10
    image.isMapped = true ∧ image.optional.fileAlignment.toNat.isPowerOfTwo ∧
      image.optional.sizeOfImage.toNat = 0x3000 ∧
      image.sections.map (fun s => (s.virtualSize.toNat, s.rawSize.toNat)) = [(0x2000, 8)] ∧
      enlarged.optional.sizeOfImage.toNat = 0x1200 ∧
      enlarged.sections.map (fun s => (s.virtualSize.toNat, s.rawSize.toNat)) =
        [(0x200, 0x200)] := by
  decide +kernel

end Image

end PeImage
