/-
Edits of the headers in machine words.

Most edits only wrap around. These index the directories or the sections, or count past a position.

* `setDirectoryChecked_eq`: a directory that there is;
* `addSectionChecked_eq`, `splitSectionChecked_eq`, `removeSectionChecked_eq`: sections. The
  position behind a section counts in 64 bits, which a table that a file header can declare does not
  exhaust;
* `makeValidChecked_eq`: recomputing the headers.
-/
import PeImage.Image.Edit
import PeImage.Proofs.Checked.Access

namespace PeImage

open Checked

namespace Image

/-! ### Directories -/

/-- The number of directories in use after the one at position `i` was set. -/
def countUpToChecked (count : UInt32) (i : ℕ) : Checked UInt32 :=
  if UInt32.ofNat i ≥ count then add32 (UInt32.ofNat i) 1 else return count

/-- Sets address and size of the directory at position `i`, where given. -/
def setDirectoryChecked (image : Image) (i : ℕ) (rva size : Option UInt32) :
    Checked (Except Fault Image) := do
  let h := image.optional
  if _h : i < DirectoryKind.count then
    let count ← countUpToChecked h.directoryCount i
    let old ← get h.directories.toList i
    return .ok { image with
      optional.directoryCount := count
      optional.directories := h.directories.set i ⟨rva.getD old.rva, size.getD old.size⟩ }
  else return .error .entryNotFound

lemma countUpToChecked_eq (count : UInt32) {i : ℕ} (hi : i < DirectoryKind.count) :
    countUpToChecked count i = .ok (max count (UInt32.ofNat (i + 1))) := by
  have hkinds : DirectoryKind.count = 16 := rfl
  have hone : (1 : UInt32).toNat = 1 := rfl
  have hword : (UInt32.ofNat i).toNat = i := UInt32.toNat_ofNat_of_lt' (show i < 2 ^ 32 by omega)
  have hnext : (UInt32.ofNat (i + 1)).toNat = i + 1 :=
    UInt32.toNat_ofNat_of_lt' (show i + 1 < 2 ^ 32 by omega)
  have hsum : (UInt32.ofNat i + 1).toNat = i + 1 := by
    rw [UInt32.toNat_add, hword, hone]
    exact Nat.mod_eq_of_lt (by omega)
  have hmax : (max count (UInt32.ofNat (i + 1))).toNat = max count.toNat (i + 1) := by
    rw [toNat_max, hnext]
  rw [countUpToChecked, add32_eq (by omega)]
  split_ifs with hle
  · rw [ge_iff_le, UInt32.le_iff_toNat_le, hword] at hle
    refine congrArg Except.ok (UInt32.toNat_inj.mp ?_)
    rw [hmax, hsum]
    omega
  · rw [ge_iff_le, UInt32.le_iff_toNat_le, hword] at hle
    refine congrArg Except.ok (UInt32.toNat_inj.mp ?_)
    rw [hmax]
    omega

lemma setDirectoryChecked_eq (image : Image) (i : ℕ) (rva size : Option UInt32) :
    image.setDirectoryChecked i rva size = .ok (image.setDirectory i rva size) := by
  rw [setDirectoryChecked, setDirectory]
  by_cases hi : i < DirectoryKind.count
  · have hold : image.optional.directories.toList[i]? = some image.optional.directories[i] := by
      rw [Vector.getElem?_toList, Vector.getElem?_eq_getElem hi]
    dsimp only
    rw [dif_pos hi, dif_pos hi, countUpToChecked_eq _ hi, ok_bind, get_eq hold, ok_bind]
    rfl
  · dsimp only
    rw [dif_neg hi, dif_neg hi]
    rfl

/-! ### Sections -/

/-- Adds a section of the given size behind all others, and looks it up. -/
def addSectionChecked (image : Image) (name : String) (size : UInt32) :
    Checked (Except Fault Image) := do
  match image.requireAlignments with
  | .error fault => return .error fault
  | .ok () =>
    if image.sections.length ≥ maxSectionCount then return .error .notEnoughSpace
    else
      let sections := image.sections ++ [image.newSection name size]
      let _ ← get sections (← sub sections.length 1)
      return .ok { image with sections := sections }

/-- Splits the section at position `i` in two. -/
def splitSectionChecked (image : Image) (i : ℕ) (front back : String) (off : UInt32) :
    Checked (Except Fault Image) := do
  match image.requireAlignments with
  | .error fault => return .error fault
  | .ok () =>
    match image.section? i with
    | none => return .error .entryNotFound
    | some s =>
      if off &&& (← sub32 image.optional.sectionAlignment 1) ≠ 0 ∨ off ≥ s.virtualSize then
        return .error .notEnoughSpace
      else
        let sections := image.sections.set i (frontPart (← get image.sections i) front off)
        let place ← add 64 i 1
        within 0 place sections.length
        return .ok { image with
          sections := sections.take place ++ backPart s back off :: sections.drop place }

/-- Removes the section at position `i`, and moves the sections behind it. -/
def removeSectionChecked (image : Image) (i : ℕ) : Checked (Except Fault Image) := do
  match image.section? i with
  | none => return .error .entryNotFound
  | some removed =>
    let place ← add 64 i 1
    within place image.sections.length image.sections.length
    let sections := image.sections.take place ++ (image.sections.drop place).map fun s =>
      { s with
        virtualAddress := s.virtualAddress - removed.virtualSize
        rawPointer := s.rawPointer - removed.rawSize }
    let _ ← get sections i
    return .ok { image with sections := sections.eraseIdx i }

/-- Recomputes what follows from the rest. -/
def makeValidChecked (image : Image) : Checked Image := do
  let _ ← image.fieldOffsetChecked .optionalHeaderSize
  return image.makeValid

lemma addSectionChecked_eq (image : Image) (name : String) (size : UInt32) :
    image.addSectionChecked name size = .ok (image.addSection name size) := by
  rw [addSectionChecked, addSection]
  cases image.requireAlignments with
  | error fault => rfl
  | ok =>
      dsimp only
      split_ifs
      · rfl
      · rw [List.length_append, List.length_singleton, sub_eq (by omega), ok_bind,
          Nat.add_sub_cancel, get_eq List.getElem?_concat_length, ok_bind]
        rfl

lemma one_le_sectionAlignment {image : Image} (h : image.requireAlignments = .ok ()) :
    1 ≤ image.optional.sectionAlignment := by
  unfold requireAlignments at h
  split_ifs at h with hfile hsection
  rw [UInt32.le_iff_toNat_le, UInt32.toNat_one]
  exact Nat.pos_of_ne_zero fun h0 => hsection (UInt32.toNat_inj.mp h0)

lemma splitSectionChecked_eq (image : Image) (hcount : image.sections.length < 2 ^ 63) (i : ℕ)
    (front back : String) (off : UInt32) :
    image.splitSectionChecked i front back off = .ok (image.splitSection i front back off) := by
  rw [splitSectionChecked, splitSection]
  cases hreq : image.requireAlignments with
  | error fault => rfl
  | ok =>
      dsimp only
      cases hs : image.section? i with
      | none => rfl
      | some s =>
          have hi : i < image.sections.length := (List.getElem?_eq_some_iff.mp hs).1
          dsimp only
          rw [sub32_eq (one_le_sectionAlignment hreq), ok_bind, get_eq hs]
          split_ifs
          · rfl
          · rw [ok_bind, add_eq (by omega), ok_bind,
              within_eq (Nat.zero_le _) (by rw [List.length_set]; omega), ok_bind,
              List.take_add_one, List.getElem?_set_self hi, List.take_set_of_le (Nat.le_refl i),
              List.drop_set_of_lt (Nat.lt_succ_self i), Option.toList_some, List.append_assoc]
            rfl

lemma removeSectionChecked_eq (image : Image) (hcount : image.sections.length < 2 ^ 63) (i : ℕ) :
    image.removeSectionChecked i = .ok (image.removeSection i) := by
  rw [removeSectionChecked, removeSection]
  cases hs : image.section? i with
  | none => rfl
  | some removed =>
      have hi : i < image.sections.length := (List.getElem?_eq_some_iff.mp hs).1
      have hfront : (image.sections.take (i + 1)).length = i + 1 := List.length_take_of_le hi
      dsimp only
      rw [add_eq (by omega), ok_bind, within_eq hi (Nat.le_refl _), ok_bind,
        get_eq (List.getElem?_eq_getElem (by rw [List.length_append]; omega)), ok_bind,
        List.eraseIdx_append_of_lt_length (by omega), List.eraseIdx_eq_take_drop_succ,
        List.take_take, List.drop_of_length_le hfront.le, List.append_nil,
        Nat.min_eq_left (Nat.le_succ i)]
      rfl

lemma makeValidChecked_eq (image : Image) : image.makeValidChecked = .ok image.makeValid := by
  rw [makeValidChecked, fieldOffsetChecked_eq]
  rfl

end Image

end PeImage
