/-
Comparison with a reference in machine words.

* `isEmptyPointerChecked_eq`: the position of a section header counts in 32 bits, which asks for a
  table that a file header can declare;
* `comparePageChecked_eq`: one page. The address of a difference fits into its word, because the
  reference does;
* `compareChecked_eq`: the whole comparison goes through.
-/
import PeImage.Proofs.Checked.Access
import PeImage.Proofs.SectionCount

namespace PeImage

open Checked

namespace Image

variable {image : Image}

/-! ### Excuses -/

/-- Whether an offset in the file lies in the raw data pointer of a section without raw data, among
those from position `i` of the section table on. -/
def isEmptyPointerFromChecked (image : Image) (off : UInt32) (i : ℕ) :
    List SectionHeader → Checked Bool
  | [] => return false
  | s :: rest => do
    if s.rawSize = 0 then
      let entry := UInt32.ofNat (← mul 32 (UInt32.ofNat i).toNat SectionHeader.size)
      let field := UInt32.ofNat image.tableOffset + entry +
        UInt32.ofNat SectionHeader.rawPointerOffset
      if field ≤ off ∧ off < field + 4 then return true
      else isEmptyPointerFromChecked image off (i + 1) rest
    else isEmptyPointerFromChecked image off (i + 1) rest

/-- Whether an offset in the file lies in the raw data pointer of a section without raw data. -/
def isEmptyPointerChecked (image : Image) (off : UInt32) : Checked Bool :=
  image.isEmptyPointerFromChecked off 0 image.sections

lemma isEmptyPointerChecked_eq (h : image.FitsCount) (off : UInt32) :
    image.isEmptyPointerChecked off = .ok (image.isEmptyPointer off) := by
  have hfrom (sections : List SectionHeader) (i : ℕ) (hi : i + sections.length ≤ maxSectionCount) :
      image.isEmptyPointerFromChecked off i sections =
        .ok ((sections.zipIdx i).any fun entry =>
          let field := UInt32.ofNat image.tableOffset +
            UInt32.ofNat (entry.2 * SectionHeader.size + SectionHeader.rawPointerOffset)
          entry.1.rawSize == 0 && field ≤ off && off < field + 4) := by
    induction sections generalizing i with
    | nil => rfl
    | cons s rest ih =>
        rw [List.length_cons] at hi
        have hmax : maxSectionCount = 65535 := rfl
        have hword : (UInt32.ofNat i).toNat = i :=
          UInt32.toNat_ofNat_of_lt' (show i < 2 ^ 32 by omega)
        have hmul : i * SectionHeader.size < 2 ^ 32 := by
          rw [show SectionHeader.size = 40 from rfl]
          omega
        have hfield : UInt32.ofNat image.tableOffset + UInt32.ofNat (i * SectionHeader.size) +
            UInt32.ofNat SectionHeader.rawPointerOffset = UInt32.ofNat image.tableOffset +
              UInt32.ofNat (i * SectionHeader.size + SectionHeader.rawPointerOffset) := by
          rw [UInt32.ofNat_add, UInt32.add_assoc]
        rw [isEmptyPointerFromChecked, List.zipIdx_cons, List.any_cons, hword, mul_eq hmul, ok_bind,
          ih (i + 1) (by omega)]
        dsimp only
        rw [hfield]
        by_cases hs : s.rawSize = 0
        · rw [if_pos hs, beq_iff_eq.mpr hs, Bool.true_and, ← Bool.decide_and]
          split_ifs with hin
          · rw [decide_eq_true hin]
            rfl
          · rw [decide_eq_false hin, Bool.false_or]
        · rw [if_neg hs, beq_eq_false_iff_ne.mpr hs, Bool.false_and, Bool.false_and, Bool.false_or]
  exact hfrom image.sections 0 (by rw [Nat.zero_add]; exact h)

/-- Whether a byte may differ, where `base` is the offset in the file of its page and `k` its
position there. -/
def isExcusedChecked (image : Image) (base : Option UInt32) (k : ℕ) : Checked Bool :=
  match base with
  | some off => image.isEmptyPointerChecked (off + UInt32.ofNat k)
  | none => return false

/-! ### One page -/

/-- The first position at which two buffers differ without an excuse, among the `n` positions from
`k` on. -/
def firstDifferenceChecked (image : Image) (base : Option UInt32) (reference bytes : ByteArray)
    (k : ℕ) : ℕ → Checked (Option ℕ)
  | 0 => return none
  | n + 1 => do
    if byteAt reference k ≠ byteAt bytes k then
      if ← image.isExcusedChecked base k then
        firstDifferenceChecked image base reference bytes (k + 1) n
      else return some k
    else firstDifferenceChecked image base reference bytes (k + 1) n

/-- Compares one page of a reference with the image. -/
def comparePageChecked (image : Image) (reference : ByteArray) (accessible : Bool) (i : ℕ) :
    Checked (Option Comparison) := do
  let a := UInt32.ofNat (← mul 32 (UInt32.ofNat i).toNat pageSize)
  let mapped := (← image.pageAtChecked? a).any Page.isAccessible
  match accessible, mapped with
  | true, true =>
    let theirs := window reference (i * pageSize) pageSize
    within 0 theirs.size pageSize
    let ours ← image.readChecked a theirs.size
    within 0 ours.size pageSize
    let base ← image.fileOffsetChecked? a
    match ← image.firstDifferenceChecked base theirs ours 0 (min theirs.size ours.size) with
    | some k => return some (.dataMismatch (← add32 a (UInt32.ofNat k)))
    | none => return none
  | true, false => return some (.pageNotAccessible a)
  | false, true => return some (.pageAccessible a)
  | false, false => return none

lemma firstDifferenceChecked_eq (h : image.FitsCount) (a : UInt32) (reference bytes : ByteArray)
    (k n : ℕ) : image.firstDifferenceChecked (image.fileOffset? a) reference bytes k n =
      .ok (image.firstDifference a reference bytes k n) := by
  induction n generalizing k with
  | zero => rfl
  | succ n ih =>
      have hexcused : image.isExcusedChecked (image.fileOffset? a) k =
          .ok (image.isExcused a k) := by
        unfold isExcusedChecked isExcused
        cases image.fileOffset? a with
        | none => rfl
        | some off => exact isEmptyPointerChecked_eq h _
      rw [firstDifferenceChecked, firstDifference, hexcused, ok_bind, ih]
      by_cases hbyte : byteAt reference k = byteAt bytes k
      · rw [if_neg (not_not.mpr hbyte), if_neg fun hn => hn.1 hbyte]
      · cases image.isExcused a k with
        | true => simp
        | false => simp [hbyte]

lemma firstDifference_lt {a : UInt32} {reference bytes : ByteArray} {k n j : ℕ}
    (h : image.firstDifference a reference bytes k n = some j) : j < k + n := by
  induction n generalizing k with
  | zero => cases h
  | succ n ih =>
      rw [firstDifference] at h
      split_ifs at h
      · cases h
        omega
      · have := ih h
        omega

lemma comparePageChecked_eq (hw : AllWhole image.pages) (h : image.FitsCount)
    {reference : ByteArray} (hsize : reference.size < 2 ^ 32) (accessible : Bool) {i : ℕ}
    (hi : i * pageSize < reference.size) :
    image.comparePageChecked reference accessible i =
      .ok (image.comparePage reference accessible i) := by
  have hpage : pageSize = 4096 := rfl
  have hword : (UInt32.ofNat i).toNat = i :=
    UInt32.toNat_ofNat_of_lt' (show i < 2 ^ 32 by rw [hpage] at hi; omega)
  have haddress : (UInt32.ofNat (i * pageSize)).toNat = i * pageSize :=
    UInt32.toNat_ofNat_of_lt' (show i * pageSize < 2 ^ 32 by omega)
  have htheirs : (window reference (i * pageSize) pageSize).size =
      min pageSize (reference.size - i * pageSize) := size_window _ _ _
  have hours := size_read_le hw (UInt32.ofNat (i * pageSize))
    (window reference (i * pageSize) pageSize).size
  have hmapped : (image.pageAt? (UInt32.ofNat (i * pageSize))).any Page.isAccessible =
      image.isAccessible (UInt32.ofNat (i * pageSize)) := by
    rw [isAccessible]
    cases image.pageAt? (UInt32.ofNat (i * pageSize)) <;> rfl
  dsimp only [comparePageChecked, comparePage]
  rw [hword, mul_eq (by omega), ok_bind, pageAtChecked?_eq, ok_bind, hmapped]
  generalize image.isAccessible (UInt32.ofNat (i * pageSize)) = mapped
  match accessible, mapped with
  | true, false | false, true | false, false => rfl
  | true, true =>
      dsimp only
      rw [within_eq (Nat.zero_le _) (by omega), ok_bind, readChecked_eq hw _ (by omega), ok_bind,
        within_eq (Nat.zero_le _) (by omega), ok_bind, fileOffsetChecked?_eq, ok_bind,
        firstDifferenceChecked_eq h, ok_bind]
      cases hk : image.firstDifference (UInt32.ofNat (i * pageSize))
        (window reference (i * pageSize) pageSize)
        (image.read (UInt32.ofNat (i * pageSize)) (window reference (i * pageSize) pageSize).size) 0
        (min (window reference (i * pageSize) pageSize).size
          (image.read (UInt32.ofNat (i * pageSize))
            (window reference (i * pageSize) pageSize).size).size) with
      | none => rfl
      | some k =>
          have hlt := firstDifference_lt hk
          have hkword : (UInt32.ofNat k).toNat = k :=
            UInt32.toNat_ofNat_of_lt' (show k < 2 ^ 32 by omega)
          dsimp only
          rw [add32_eq (by rw [haddress, hkword]; omega)]
          rfl

/-! ### The whole comparison -/

/-- Compares the `n` pages of a reference from position `i` on, with the addresses asked for behind
those in `asked`. -/
def comparePagesChecked (image : Image) (reference : ByteArray) (accessible : UInt32 → Bool) (i : ℕ)
    (asked : Array UInt32) : ℕ → Checked (Comparison × Array UInt32)
  | 0 => return (.equal, asked)
  | n + 1 => do
    let a := UInt32.ofNat (← mul 32 (UInt32.ofNat i).toNat pageSize)
    let asked := asked.push a
    match ← image.comparePageChecked reference (accessible a) i with
    | some difference => return (difference, asked)
    | none => comparePagesChecked image reference accessible (i + 1) asked n

/-- Compares the image with a reference, or with the fact that the file could not be mapped. -/
def compareChecked (image : Image) (reference : Option ByteArray) (accessible : UInt32 → Bool) :
    Checked (Comparison × Array UInt32) :=
  match reference, image.isMapped with
  | some reference, true =>
    if reference.size ≠ image.alignedSize.toNat then return (.sizeMismatch, #[])
    else image.comparePagesChecked reference accessible 0 #[]
      ((reference.size + (pageSize - 1)) / pageSize)
  | some _, false => return (.notMapped true, #[])
  | none, true => return (.notMapped false, #[])
  | none, false => return (.equal, #[])

lemma comparePagesChecked_eq (hw : AllWhole image.pages) (h : image.FitsCount)
    {reference : ByteArray} (hsize : reference.size < 2 ^ 32) (accessible : UInt32 → Bool) {i n : ℕ}
    (asked : Array UInt32) (hn : i + n ≤ (reference.size + (pageSize - 1)) / pageSize) :
    image.comparePagesChecked reference accessible i asked n =
      .ok (image.comparePages reference accessible i asked n) := by
  induction n generalizing i asked with
  | zero => rfl
  | succ n ih =>
      have hpage : pageSize = 4096 := rfl
      rw [hpage] at hn
      have hi : i * pageSize < reference.size := by
        rw [hpage]
        omega
      have hword : (UInt32.ofNat i).toNat = i :=
        UInt32.toNat_ofNat_of_lt' (show i < 2 ^ 32 by omega)
      rw [comparePagesChecked, comparePages, hword, mul_eq (by omega), ok_bind]
      dsimp only
      rw [comparePageChecked_eq hw h hsize _ hi, ok_bind]
      cases image.comparePage reference (accessible (UInt32.ofNat (i * pageSize))) i with
      | some difference => rfl
      | none => exact ih _ (by rw [hpage]; omega)

theorem compareChecked_eq (hw : AllWhole image.pages) (h : image.FitsCount)
    (reference : Option ByteArray) (accessible : UInt32 → Bool) :
    image.compareChecked reference accessible = .ok (image.compare reference accessible) := by
  unfold compareChecked compare
  cases reference with
  | none => cases image.isMapped <;> rfl
  | some reference =>
      cases image.isMapped with
      | false => rfl
      | true =>
          dsimp only
          split_ifs with hsize
          · rfl
          · rw [not_not] at hsize
            have hlt := image.alignedSize.toNat_lt
            exact comparePagesChecked_eq hw h (by omega) accessible _ (Nat.zero_add _).le

end Image

end PeImage
