/-
Sections that tile the memory behind the headers.

Each section begins where the one before it ends. Where a section ends is a parameter, because the
rules count in words what the layout means in unbounded numbers.

* `SectionHeader.extent`: the memory of a section, rounded up to the alignment without bound;
  `SectionHeader.counted`: what the rules count of it; `counted_eq`: the two agree modulo `2 ^ 32`,
  so they differ exactly for an extent of `2 ^ 32`, which counts as nothing (`extent_eq_size`);
* `Tiles`: the tiling; `Tiles.bounds`: every section lies between the start and the end of the
  tiling, and `Tiles.pairwise`: sections behind one another are disjoint;
* `Tiles.congr`: the tiling depends on the sizes of its own sections only;
* `Tiles.append_iff`, `Tiles.last_end`: its parts, and where it ends.
-/
import PeImage.Image.Placement
import PeImage.Proofs.Rounding

namespace PeImage

namespace SectionHeader

/-! ### The size of a section -/

/-- The memory that a section takes, in unbounded arithmetic. -/
def extent (alignment : UInt32) (s : SectionHeader) : ℕ :=
  roundUp s.effectiveSize.toNat alignment.toNat

/-- The memory that the rules count for a section. -/
def counted (alignment : UInt32) (s : SectionHeader) : ℕ :=
  (s.pagesTaken alignment).toNat * pageSize

variable {alignment : UInt32} {s : SectionHeader}

/-- A rounded word consists of whole pages. -/
lemma toNat_alignUp_div_mul (ha : alignment.toNat.isPowerOfTwo)
    (hp : pageSize ≤ alignment.toNat) (v : UInt32) :
    (alignUp v alignment / pageSize32).toNat * pageSize = (alignUp v alignment).toNat := by
  have hd : pageSize ∣ (alignUp v alignment).toNat :=
    (dvd_of_isPowerOfTwo isPowerOfTwo_pageSize ha hp).trans (dvd_toNat_alignUp ha v)
  rw [UInt32.toNat_div]
  exact Nat.div_mul_cancel hd

/-- The rules count the extent modulo `2 ^ 32`. -/
lemma counted_eq (ha : alignment.toNat.isPowerOfTwo) (hp : pageSize ≤ alignment.toNat)
    (s : SectionHeader) : s.counted alignment = s.extent alignment % UInt32.size := by
  rw [counted, pagesTaken, toNat_alignUp_div_mul ha hp, toNat_alignUp_eq ha, extent]

lemma counted_of_lt (ha : alignment.toNat.isPowerOfTwo) (hp : pageSize ≤ alignment.toNat)
    (h : s.extent alignment < UInt32.size) : s.counted alignment = s.extent alignment := by
  rw [counted_eq ha hp, Nat.mod_eq_of_lt h]

/-- An extent that does not fit into a word is `2 ^ 32`. -/
lemma extent_eq_size (ha : alignment.toNat.isPowerOfTwo)
    (h : ¬ s.extent alignment < UInt32.size) : s.extent alignment = UInt32.size :=
  le_antisymm (roundUp_le_size ha _) (Nat.le_of_not_lt h)

/-- A section whose extent does not fit into a word is larger than every image that is mapped. -/
lemma largestImage_lt (ha : alignment.toNat.isPowerOfTwo)
    (h : ¬ s.extent alignment < UInt32.size) :
    largestImage.toNat + pageSize ≤ s.effectiveSize.toNat := by
  obtain ⟨k, hk⟩ := id ha
  have hlt : 2 ^ k < 2 ^ 32 := hk ▸ alignment.toNat_lt
  have hle : 2 ^ k ≤ 2 ^ 31 :=
    Nat.pow_le_pow_right Nat.two_pos
      (Nat.lt_succ_iff.mp ((Nat.pow_lt_pow_iff_right Nat.one_lt_two).mp hlt))
  have hr := roundUp_lt (Nat.pos_of_isPowerOfTwo ha) s.effectiveSize.toNat
  have he : roundUp s.effectiveSize.toNat alignment.toNat = 2 ^ 32 := extent_eq_size ha h
  have hl : largestImage.toNat + pageSize ≤ 2 ^ 31 := by decide
  omega

end SectionHeader

/-! ### The tiling -/

/-- Sections of which each begins where the one before it ends, the first one at `next`, when `size`
tells their sizes. -/
def Tiles (size : SectionHeader → ℕ) : ℕ → List SectionHeader → Prop
  | _, [] => True
  | next, s :: rest => s.virtualAddress.toNat = next ∧ Tiles size (next + size s) rest

instance decidableTiles (size : SectionHeader → ℕ) :
    ∀ next sections, Decidable (Tiles size next sections)
  | _, [] => .isTrue trivial
  | next, s :: rest =>
      have := decidableTiles size (next + size s) rest
      inferInstanceAs (Decidable (s.virtualAddress.toNat = next ∧ Tiles size (next + size s) rest))

namespace Tiles

variable {size size' : SectionHeader → ℕ} {next : ℕ} {sections front back : List SectionHeader}

/-- The memory of all sections together. -/
def total (size : SectionHeader → ℕ) (sections : List SectionHeader) : ℕ :=
  (sections.map size).sum

@[simp] lemma total_cons (size : SectionHeader → ℕ) (s : SectionHeader)
    (rest : List SectionHeader) : total size (s :: rest) = size s + total size rest := by
  simp [total]

/-- Every section lies in the memory that the tiling takes. -/
lemma bounds (h : Tiles size next sections) :
    ∀ s ∈ sections, next ≤ s.virtualAddress.toNat ∧
      s.virtualAddress.toNat + size s ≤ next + total size sections := by
  induction sections generalizing next with
  | nil => simp
  | cons t rest ih =>
      intro s hs
      obtain ⟨ht, hr⟩ := h
      rw [total_cons]
      rcases List.mem_cons.mp hs with rfl | hs
      · omega
      · have := ih hr s hs
        omega

/-- A section that follows another one begins behind its end. -/
lemma pairwise (h : Tiles size next sections) :
    sections.Pairwise fun s t => s.virtualAddress.toNat + size s ≤ t.virtualAddress.toNat := by
  induction sections generalizing next with
  | nil => exact List.Pairwise.nil
  | cons s rest ih =>
      obtain ⟨hs, hr⟩ := h
      refine List.Pairwise.cons ?_ (ih hr)
      intro t ht
      have := (hr.bounds t ht).1
      omega

/-- Only the sizes of its own sections matter to a tiling. -/
lemma congr (hs : ∀ s ∈ sections, size s = size' s) (h : Tiles size next sections) :
    Tiles size' next sections := by
  induction sections generalizing next with
  | nil => trivial
  | cons s rest ih =>
      obtain ⟨ha, hr⟩ := h
      rw [List.forall_mem_cons] at hs
      refine ⟨ha, ?_⟩
      rw [← hs.1]
      exact ih hs.2 hr

/-- In a tiling whose start and sizes are multiples of a unit, so are all addresses. -/
lemma dvd {a : ℕ} (ha : ∀ s ∈ sections, a ∣ size s) (hn : a ∣ next)
    (h : Tiles size next sections) : ∀ s ∈ sections, a ∣ s.virtualAddress.toNat := by
  induction sections generalizing next with
  | nil => simp
  | cons t rest ih =>
      intro s hs
      obtain ⟨ht, hr⟩ := h
      rw [List.forall_mem_cons] at ha
      rcases List.mem_cons.mp hs with rfl | hs
      · rwa [ht]
      · exact ih ha.2 (Nat.dvd_add hn ha.1) hr s hs

/-! ### Parts of a tiling -/

lemma total_append (size : SectionHeader → ℕ) (front back : List SectionHeader) :
    total size (front ++ back) = total size front + total size back := by
  simp [total]

/-- A tiling falls into two where the front part ends. -/
lemma append_iff : Tiles size next (front ++ back) ↔
    Tiles size next front ∧ Tiles size (next + total size front) back := by
  induction front generalizing next with
  | nil => simp [Tiles, total]
  | cons s rest ih =>
      rw [List.cons_append, Tiles, Tiles, ih, total_cons, Nat.add_assoc, and_assoc]

/-- A tiling ends where its last section does. -/
lemma last_end {last : SectionHeader} (h : Tiles size next sections)
    (hlast : sections.getLast? = some last) :
    last.virtualAddress.toNat + size last = next + total size sections := by
  obtain ⟨front, rfl⟩ := List.getLast?_eq_some_iff.mp hlast
  obtain ⟨-, haddress, -⟩ := append_iff.mp h
  rw [haddress, total_append, total_cons]
  exact Nat.add_assoc _ _ _

end Tiles

end PeImage
