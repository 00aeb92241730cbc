/-
Patches of memory, seen on the flat view.

A patch replaces a stretch of bytes by a function of them, where they can all be read; what falls on
pages without access is dropped.

* `Memory.size_read_eq_iff`: which stretches can be read as a whole;
* `Memory.flat_patch`: what a patch changes, and `Memory.read_patch`: what is read from there;
  `Memory.reach_patch`, `Memory.isAccessibleAt_patch`: what it keeps;
* `Memory.Agree`: two memories that no access within a set of addresses tells apart, and
  `Memory.Agree.patch`: patches within the set keep them so, `Memory.agree_patch`: a patch outside
  of it does not matter;
* `Memory.BeginsWith`: a memory of which the front is known;
* `Memory.Uniform`, `Memory.agree_patch_patch`: two patches of one stretch.
-/
import PeImage.Fixup
import PeImage.Memory.Update
import Mathlib

namespace PeImage

namespace Memory

variable {m m' m'' : Memory} {a : UInt32} {n : ℕ} {f g : ByteArray → ByteArray}

/-- A stretch can be read as a whole where it ends in front of the reach, or is empty. -/
lemma size_read_eq_iff (hm : m.WellFormed) (a n : ℕ) :
    (m.read a n).size = n ↔ a + n ≤ m.reach ∨ n = 0 := by
  rw [size_read hm]
  omega

/-- A stretch with an address in it that can be read as a whole lies in front of the reach. -/
lemma le_reach_of_size_read (hm : m.WellFormed) {a n r : ℕ} (h : (m.read a n).size = n)
    (hr : r ∈ Set.Ico a (a + n)) : a + n ≤ m.reach := by
  rcases (size_read_eq_iff hm a n).mp h with hle | h0
  · exact hle
  · rw [Set.mem_Ico] at hr
    omega

/-! ### One patch -/

/-- A patch is a write, or nothing. -/
lemma patch_eq (m : Memory) (a : UInt32) (n : ℕ) (f : ByteArray → ByteArray) :
    m.patch a n f = if (m.read a.toNat n).size = n then
      (m.write a.toNat (f (m.read a.toNat n))).1 else m := by
  unfold patch readExactly
  dsimp only
  split_ifs <;> rfl

lemma WellFormed.patch (hm : m.WellFormed) (a : UInt32) (n : ℕ) (f : ByteArray → ByteArray) :
    (m.patch a n f).WellFormed := by
  rw [patch_eq]
  split_ifs
  · exact hm.write _ _
  · exact hm

lemma tableEnd_write (m : Memory) (a : ℕ) (src : ByteArray) :
    (m.write a src).1.tableEnd = m.tableEnd := tableEnd_writeUpTo _ _ _ _ _

@[simp] lemma tableEnd_patch (m : Memory) (a : UInt32) (n : ℕ) (f : ByteArray → ByteArray) :
    (m.patch a n f).tableEnd = m.tableEnd := by
  rw [patch_eq]
  split_ifs
  · exact tableEnd_write _ _ _
  · rfl

@[simp] lemma reach_patch (m : Memory) (a : UInt32) (n : ℕ) (f : ByteArray → ByteArray) :
    (m.patch a n f).reach = m.reach := by
  rw [patch_eq]
  split_ifs
  · exact reach_write _ _ _
  · rfl

@[simp] lemma limit_patch (m : Memory) (a : UInt32) (n : ℕ) (f : ByteArray → ByteArray) :
    (m.patch a n f).limit = m.limit := by
  rw [patch_eq]
  split_ifs <;> rfl

@[simp] lemma isAccessibleAt_patch (m : Memory) (a : UInt32) (n : ℕ) (f : ByteArray → ByteArray)
    (r : ℕ) : (m.patch a n f).isAccessibleAt r = m.isAccessibleAt r := by
  rw [patch_eq]
  split_ifs
  · exact isAccessibleAt_write _ _ _ _
  · rfl

/-- **What a patch changes**: the bytes of its stretch that have access, if the whole stretch lies
in front of the reach. -/
lemma flat_patch (hm : m.WellFormed) (hf : ∀ b, b.size = n → (f b).size = n) (r : ℕ) :
    (m.patch a n f).flat r =
      if r ∈ Set.Ico a.toNat (a.toNat + n) ∧ a.toNat + n ≤ m.reach ∧ m.isAccessibleAt r then
        byteAt (f (m.read a.toNat n)) (r - a.toNat)
      else m.flat r := by
  rw [patch_eq]
  simp only [Set.mem_Ico]
  by_cases hread : (m.read a.toNat n).size = n
  · have hsize : (f (m.read a.toNat n)).size = n := hf _ hread
    rw [if_pos hread, flat_write hm, write_snd, hsize]
    by_cases hr : r ∈ Set.Ico a.toNat (a.toNat + n)
    · have hle := le_reach_of_size_read hm hread hr
      have hmin : min n (m.reach - a.toNat) = n := by omega
      simp only [hmin, hle, true_and, and_assoc]
    · rw [Set.mem_Ico] at hr
      rw [if_neg (by omega), if_neg (by omega)]
  · have hnot := (size_read_eq_iff hm a.toNat n).not.mp hread
    rw [if_neg hread, if_neg (by omega)]

/-- Outside its stretch a patch changes nothing. -/
lemma flat_patch_of_notMem (hm : m.WellFormed) (hf : ∀ b, b.size = n → (f b).size = n) {r : ℕ}
    (hr : r ∉ Set.Ico a.toNat (a.toNat + n)) : (m.patch a n f).flat r = m.flat r := by
  rw [flat_patch hm hf, if_neg fun h => hr h.1]

/-- What a patch puts into a stretch with access is read back. -/
lemma read_patch (hm : m.WellFormed) (hf : ∀ b, b.size = n → (f b).size = n)
    (hreach : a.toNat + n ≤ m.reach)
    (hacc : ∀ r ∈ Set.Ico a.toNat (a.toNat + n), m.isAccessibleAt r = true) :
    (m.patch a n f).read a.toNat n = f (m.read a.toNat n) := by
  have hsize : (m.read a.toNat n).size = n := (size_read_eq_iff hm _ _).mpr (.inl hreach)
  have hsize' : ((m.patch a n f).read a.toNat n).size = n :=
    (size_read_eq_iff (hm.patch a n f) _ _).mpr (.inl (by rwa [reach_patch]))
  refine eq_of_byteAt_eq (hsize'.trans (hf _ hsize).symm) fun i hi => ?_
  have hin : a.toNat + i ∈ Set.Ico a.toNat (a.toNat + n) := by
    rw [Set.mem_Ico]
    omega
  rw [byteAt_read (hm.patch a n f) hi, flat_patch hm hf, if_pos ⟨hin, hreach, hacc _ hin⟩,
    Nat.add_sub_cancel_left]

/-! ### Memories that agree -/

/-- No access within a set of addresses tells the memories apart. -/
structure Agree (s : Set ℕ) (m m' : Memory) : Prop where
  limit : m.limit = m'.limit
  tableEnd : m.tableEnd = m'.tableEnd
  accessible : ∀ r, m.isAccessibleAt r = m'.isAccessibleAt r
  flat : ∀ r ∈ s, m.flat r = m'.flat r

namespace Agree

variable {s t : Set ℕ}

lemma refl (s : Set ℕ) (m : Memory) : Agree s m m := ⟨rfl, rfl, fun _ => rfl, fun _ _ => rfl⟩

lemma symm (h : Agree s m m') : Agree s m' m :=
  ⟨h.limit.symm, h.tableEnd.symm, fun r => (h.accessible r).symm, fun r hr => (h.flat r hr).symm⟩

lemma trans (h : Agree s m m') (h' : Agree s m' m'') : Agree s m m'' :=
  ⟨h.limit.trans h'.limit, h.tableEnd.trans h'.tableEnd,
    fun r => (h.accessible r).trans (h'.accessible r),
    fun r hr => (h.flat r hr).trans (h'.flat r hr)⟩

lemma mono (h : Agree s m m') (hts : t ⊆ s) : Agree t m m' :=
  ⟨h.limit, h.tableEnd, h.accessible, fun r hr => h.flat r (hts hr)⟩

lemma reach (h : Agree s m m') : m.reach = m'.reach := by
  rw [Memory.reach, Memory.reach, h.limit, h.tableEnd]

/-- Reads within the set give the same bytes. -/
lemma read (hm : m.WellFormed) (hm' : m'.WellFormed) (h : Agree s m m') {a n : ℕ}
    (hs : Set.Ico a (a + n) ⊆ s) : m.read a n = m'.read a n := by
  have hsize : (m.read a n).size = (m'.read a n).size := by
    rw [size_read hm, size_read hm', h.reach]
  refine eq_of_byteAt_eq hsize fun i hi => ?_
  have hin : a + i ∈ Set.Ico a (a + n) := by
    rw [size_read hm] at hi
    rw [Set.mem_Ico]
    omega
  rw [byteAt_read hm hi, byteAt_read hm' (hsize ▸ hi), h.flat _ (hs hin)]

/-- A patch within the set is the same in both. -/
lemma patch (hm : m.WellFormed) (hm' : m'.WellFormed)
    (hf : ∀ b, b.size = n → (f b).size = n) (h : Agree s m m')
    (hs : Set.Ico a.toNat (a.toNat + n) ⊆ s) :
    Agree s (m.patch a n f) (m'.patch a n f) where
  limit := by rw [limit_patch, limit_patch, h.limit]
  tableEnd := by rw [tableEnd_patch, tableEnd_patch, h.tableEnd]
  accessible r := by rw [isAccessibleAt_patch, isAccessibleAt_patch, h.accessible]
  flat r hr := by
    rw [flat_patch hm hf, flat_patch hm' hf, h.read hm hm' hs, h.reach, h.accessible,
      h.flat r hr]

end Agree

/-- A write outside the set does not matter. -/
lemma agree_write (hm : m.WellFormed) {s : Set ℕ} {a : ℕ} {src : ByteArray}
    (hs : Disjoint s (Set.Ico a (a + src.size))) : Agree s (m.write a src).1 m where
  limit := rfl
  tableEnd := tableEnd_write m a src
  accessible := isAccessibleAt_write m a src
  flat r hr := by
    have hout : r ∉ Set.Ico a (a + src.size) := Set.disjoint_left.mp hs hr
    rw [Set.mem_Ico] at hout
    have hle : (m.write a src).2 ≤ src.size := by
      rw [write_snd]
      exact min_le_left _ _
    rw [flat_write hm, if_neg (by omega)]

/-- A patch outside the set does not matter. -/
lemma agree_patch (hm : m.WellFormed) (hf : ∀ b, b.size = n → (f b).size = n) {s : Set ℕ}
    (hs : Disjoint s (Set.Ico a.toNat (a.toNat + n))) : Agree s (m.patch a n f) m where
  limit := limit_patch m a n f
  tableEnd := tableEnd_patch m a n f
  accessible := isAccessibleAt_patch m a n f
  flat _ hr := flat_patch_of_notMem hm hf (Set.disjoint_left.mp hs hr)

/-! ### A known front -/

/-- The memory begins with the bytes of a buffer, all of which can be written. -/
structure BeginsWith (m : Memory) (b : ByteArray) : Prop where
  size_le : b.size ≤ m.reach
  accessible : ∀ r < b.size, m.isAccessibleAt r = true
  flat : ∀ r < b.size, m.flat r = byteAt b r

namespace BeginsWith

variable {b : ByteArray}

/-- Reads within the front are windows of the buffer. -/
lemma read (hm : m.WellFormed) (h : m.BeginsWith b) {a n : ℕ} (ha : a + n ≤ b.size) :
    m.read a n = window b a n := by
  have hle := h.size_le
  refine eq_of_byteAt_eq (by rw [size_read hm, size_window]; omega) fun i hi => ?_
  have hin := hi
  rw [size_read hm] at hin
  rw [byteAt_read hm hi, byteAt_window, if_pos (by omega), h.flat _ (by omega)]

/-- Writes within the front are writes to the buffer. -/
lemma write (hm : m.WellFormed) (h : m.BeginsWith b) {a : ℕ} {src : ByteArray}
    (ha : a + src.size ≤ b.size) : (m.write a src).1.BeginsWith (overwrite b a src) := by
  have hsize : (overwrite b a src).size = b.size := size_overwrite ha
  have hle := h.size_le
  constructor
  case size_le => rwa [hsize, reach_write]
  case accessible =>
    intro r hr
    rw [isAccessibleAt_write]
    exact h.accessible r (by rwa [hsize] at hr)
  case flat =>
    intro r hr
    rw [hsize] at hr
    have hmin : min src.size (m.reach - a) = src.size := by omega
    simp only [flat_write hm, write_snd, hmin, h.accessible r hr, and_true, byteAt_overwrite ha,
      h.flat r hr]

/-- What lies behind the front does not matter. -/
lemma of_agree (h : m'.BeginsWith b) (hagree : Agree (Set.Iio b.size) m m') : m.BeginsWith b where
  size_le := hagree.reach ▸ h.size_le
  accessible r hr := (hagree.accessible r).trans (h.accessible r hr)
  flat r hr := (hagree.flat r hr).trans (h.flat r hr)

end BeginsWith

/-! ### Two patches of one stretch -/

/-- The stretch does not mix pages with and without access. -/
def Uniform (m : Memory) (s : Set ℕ) : Prop :=
  ∀ r ∈ s, ∀ q ∈ s, m.isAccessibleAt r = true → m.pages[q / pageSize]? ≠ some .inaccessible

/-- In front of the end of the table, an address has access or lies on a page without. -/
lemma isAccessibleAt_of_ne {q : ℕ} (hq : q < m.tableEnd)
    (h : m.pages[q / pageSize]? ≠ some .inaccessible) : m.isAccessibleAt q = true := by
  have hlt := (div_lt_size_iff m q).mpr hq
  unfold isAccessibleAt
  rw [Array.getElem?_eq_getElem hlt] at h ⊢
  cases hpage : m.pages[q / pageSize] with
  | data | zero => rfl
  | inaccessible => exact absurd (congrArg some hpage) h

/-- **Patching a stretch twice** is patching it once with both functions, where the stretch does not
mix pages with and without access. -/
lemma agree_patch_patch (hm : m.WellFormed) (hf : ∀ b, b.size = n → (f b).size = n)
    (hg : ∀ b, b.size = n → (g b).size = n)
    (hu : m.Uniform (Set.Ico a.toNat (a.toNat + n))) :
    Agree (Set.Ico a.toNat (a.toNat + n)) ((m.patch a n f).patch a n g)
      (m.patch a n (g ∘ f)) where
  limit := by simp
  tableEnd := by simp
  accessible r := by simp
  flat r hr := by
    have hgf : ∀ b, b.size = n → ((g ∘ f) b).size = n := fun b hb => hg _ (hf b hb)
    rw [flat_patch (hm.patch a n f) hg, flat_patch hm hgf, flat_patch hm hf, reach_patch,
      isAccessibleAt_patch]
    by_cases h : a.toNat + n ≤ m.reach ∧ m.isAccessibleAt r = true
    · rw [if_pos ⟨hr, h⟩, if_pos ⟨hr, h⟩]
      -- all of the stretch has access, so the second patch reads what the first one wrote
      have hacc : ∀ q ∈ Set.Ico a.toNat (a.toNat + n), m.isAccessibleAt q = true := by
        intro q hq
        refine isAccessibleAt_of_ne ?_ (hu r hr q hq h.2)
        have hreach : m.reach ≤ m.tableEnd := min_le_right _ _
        exact lt_of_lt_of_le hq.2 (h.1.trans hreach)
      have hread := read_patch hm hf h.1 hacc
      rw [hread]
      rfl
    · rw [if_neg fun h' => h h'.2, if_neg fun h' => h h'.2, if_neg fun h' => h h'.2]

end Memory

end PeImage
