/-
What a comparison says.

A comparison goes through the pages, and within a page through the bytes, and stops at the first
difference that counts. What it says is told here without these loops, by the accessibility of pages
and the bytes at addresses.

* `Image.InEmptyPointer`: the offsets at which a difference does not count, by the section table;
* `Image.Unexcused`, `Image.PageDiffers`: bytes and pages that differ, `Image.Reports`: what is to
  be said of a page that does;
* `Image.comparePage_spec`, `Image.comparePages_spec`: one page, and all of them;
* `Image.compares`: the whole comparison, and `Image.ownContents_spec`: the contents from which an
  image does not differ;
* `Image.compare_of_isMapped`: both, of every mapped image that operations lead to.
-/
import PeImage.Proofs.FlatMemory
import PeImage.Proofs.SectionCount

namespace PeImage

namespace Image

variable {image : Image} {reference : ByteArray} {accessible : UInt32 → Bool}

/-! ### Differences -/

/-- The offset in the file of the raw data pointer in the header of the section at position `i`. -/
def pointerField (image : Image) (i : ℕ) : ℕ :=
  image.tableOffset + i * SectionHeader.size + SectionHeader.rawPointerOffset

/-- The offset lies in the raw data pointer of a section without raw data. Offsets count modulo
`2 ^ 32`, and a field that reaches the last of them is left out. -/
def InEmptyPointer (image : Image) (off : UInt32) : Prop :=
  ∃ i s, image.sections[i]? = some s ∧ s.rawSize = 0 ∧
    image.pointerField i % 2 ^ 32 ≤ off.toNat ∧ off.toNat < image.pointerField i % 2 ^ 32 + 4 ∧
      image.pointerField i % 2 ^ 32 + 4 < 2 ^ 32

/-- The address of the page at position `p`. -/
def pageAddress (p : ℕ) : UInt32 := UInt32.ofNat (p * pageSize)

/-- The byte at position `k` of the page at position `p` may differ: the offset in the file that
belongs to it lies in the raw data pointer of a section without raw data. -/
def Excused (image : Image) (p k : ℕ) : Prop :=
  ∃ off, image.fileOffset? (pageAddress p) = some off ∧ image.InEmptyPointer (off + .ofNat k)

/-- The byte at position `k` of the page at position `p` differs and may not. -/
def Unexcused (image : Image) (reference : ByteArray) (p k : ℕ) : Prop :=
  byteAt reference (p * pageSize + k) ≠ image.memory.flat (p * pageSize + k) ∧ ¬ image.Excused p k

/-- The page at position `p` differs: it is accessible on one side only, or on both, with bytes that
differ and may not. -/
def PageDiffers (image : Image) (reference : ByteArray) (accessible : UInt32 → Bool) (p : ℕ) :
    Prop :=
  accessible (pageAddress p) ≠ image.isAccessible (pageAddress p) ∨
    accessible (pageAddress p) = true ∧ image.isAccessible (pageAddress p) = true ∧
      ∃ k < pageSize, image.Unexcused reference p k

/-- What is to be said of the page at position `p`: on which side it is accessible, or the address
of its first byte that differs and may not. -/
inductive Reports (image : Image) (reference : ByteArray) (accessible : UInt32 → Bool) (p : ℕ) :
    Comparison → Prop
  /-- The page is accessible in the reference only. -/
  | pageNotAccessible (htheirs : accessible (pageAddress p) = true)
      (hours : image.isAccessible (pageAddress p) = false) :
      Reports image reference accessible p (.pageNotAccessible (pageAddress p))
  /-- The page is accessible in the image only. -/
  | pageAccessible (htheirs : accessible (pageAddress p) = false)
      (hours : image.isAccessible (pageAddress p) = true) :
      Reports image reference accessible p (.pageAccessible (pageAddress p))
  /-- The page is accessible on both sides, and the byte at position `k` is the first. -/
  | dataMismatch {k : ℕ} (htheirs : accessible (pageAddress p) = true)
      (hours : image.isAccessible (pageAddress p) = true) (hk : k < pageSize)
      (hdiffers : image.Unexcused reference p k)
      (hfirst : ∀ j < k, ¬ image.Unexcused reference p j) :
      Reports image reference accessible p (.dataMismatch (pageAddress p + .ofNat k))

/-- Only of a page that differs there is something to be said. -/
lemma Reports.pageDiffers {d : Comparison} {p : ℕ} (h : image.Reports reference accessible p d) :
    image.PageDiffers reference accessible p := by
  cases h with
  | pageNotAccessible htheirs hours =>
      exact .inl (by simp [htheirs, hours])
  | pageAccessible htheirs hours =>
      exact .inl (by simp [htheirs, hours])
  | dataMismatch htheirs hours hk hdiffers => exact .inr ⟨htheirs, hours, _, hk, hdiffers⟩

/-! ### Excuses -/

lemma isEmptyPointer_iff (off : UInt32) :
    image.isEmptyPointer off = true ↔ image.InEmptyPointer off := by
  have hfield (i : ℕ) : (UInt32.ofNat image.tableOffset +
      UInt32.ofNat (i * SectionHeader.size + SectionHeader.rawPointerOffset)).toNat =
        image.pointerField i % 2 ^ 32 := by
    rw [← UInt32.ofNat_add, UInt32.toNat_ofNat', pointerField, Nat.add_assoc]
  -- the end of a field that reaches the last offset wraps to the front of it
  have hrange (i : ℕ) (f : UInt32) (hf : f.toNat = image.pointerField i % 2 ^ 32) :
      (f ≤ off ∧ off < f + 4) ↔ image.pointerField i % 2 ^ 32 ≤ off.toNat ∧
        off.toNat < image.pointerField i % 2 ^ 32 + 4 ∧
          image.pointerField i % 2 ^ 32 + 4 < 2 ^ 32 := by
    have hfour : (4 : UInt32).toNat = 4 := rfl
    have hlt := f.toNat_lt
    have hoff := off.toNat_lt
    rw [UInt32.le_iff_toNat_le, UInt32.lt_iff_toNat_lt, UInt32.toNat_add, hfour, ← hf]
    omega
  simp only [isEmptyPointer, List.any_eq_true, Bool.and_eq_true, beq_iff_eq, decide_eq_true_eq,
    Prod.exists, List.mem_zipIdx_iff_getElem?, InEmptyPointer, and_assoc]
  constructor
  · rintro ⟨s, i, hs, hempty, hlow, hhigh⟩
    exact ⟨i, s, hs, hempty, (hrange i _ (hfield i)).mp ⟨hlow, hhigh⟩⟩
  · rintro ⟨i, s, hs, hempty, hin⟩
    exact ⟨s, i, hs, hempty, (hrange i _ (hfield i)).mpr hin⟩

lemma isExcused_iff (p k : ℕ) :
    image.isExcused (pageAddress p) k = true ↔ image.Excused p k := by
  unfold isExcused Excused
  cases image.fileOffset? (pageAddress p) with
  | none => simp
  | some off => simp [isEmptyPointer_iff]

/-! ### One page -/

/-- The first of two buffers' differences that count, `P`, is found: there is none among the `n`
positions from `k` on, or what is found is one, with none in front of it. -/
lemma firstDifference_spec (image : Image) (theirs ours : ByteArray) {P : ℕ → Prop}
    {a : UInt32} {k n : ℕ}
    (hP : ∀ j, k ≤ j → j < k + n →
      (P j ↔ byteAt theirs j ≠ byteAt ours j ∧ image.isExcused a j = false)) :
    match image.firstDifference a theirs ours k n with
    | none => ∀ i, k ≤ i → i < k + n → ¬ P i
    | some j => k ≤ j ∧ j < k + n ∧ P j ∧ ∀ i, k ≤ i → i < j → ¬ P i := by
  induction n generalizing k with
  | zero =>
      intro i hlow hhigh
      omega
  | succ n ih =>
      have hhead := hP k le_rfl (by omega)
      rw [firstDifference]
      by_cases hk : P k
      · rw [if_pos (hhead.mp hk)]
        exact ⟨le_rfl, by omega, hk, fun i hlow hhigh => by omega⟩
      · rw [if_neg fun h => hk (hhead.mpr h)]
        have htail := ih (k := k + 1) fun j hlow hhigh => hP j (by omega) (by omega)
        have hfrom {i : ℕ} (hlow : k ≤ i) (hi : k + 1 ≤ i → ¬ P i) : ¬ P i := by
          rcases Nat.eq_or_lt_of_le hlow with rfl | hlt
          · exact hk
          · exact hi hlt
        cases hfound : image.firstDifference a theirs ours (k + 1) n with
        | none =>
            rw [hfound] at htail
            exact fun i hlow hhigh => hfrom hlow fun hi => htail i hi (by omega)
        | some j =>
            rw [hfound] at htail
            obtain ⟨hlow, hhigh, hj, hfirst⟩ := htail
            exact ⟨by omega, by omega, hj, fun i hi hij => hfrom hi fun h => hfirst i h hij⟩

/-- The pages of the image, as far as its size goes. -/
def comparedPages (image : Image) : ℕ := image.alignedSize.toNat / pageSize

lemma comparedPages_mul (image : Image) :
    image.comparedPages * pageSize = image.alignedSize.toNat := by
  refine Nat.div_mul_cancel ?_
  rw [alignedSize, toNat_alignUp (show pageSize32.toNat = 2 ^ 12 from rfl)]
  exact Nat.dvd_mul_left _ _

/-- The address of a page within the size of image does not wrap. -/
lemma toNat_pageAddress {p : ℕ} (hp : p < image.comparedPages) :
    (pageAddress p).toNat = p * pageSize := by
  have hmul := comparedPages_mul image
  have hlt := image.alignedSize.toNat_lt
  have hle : (p + 1) * pageSize ≤ image.comparedPages * pageSize := Nat.mul_le_mul_right _ hp
  rw [pageAddress, UInt32.toNat_ofNat_of_lt']
  simp only [pageSize, UInt32.size] at *
  omega

/-- An accessible page within the size of image is read completely. -/
lemma read_page (hflat : image.ActsFlat) {p : ℕ} (hp : p < image.comparedPages)
    (ha : image.isAccessible (pageAddress p) = true) :
    (image.read (pageAddress p) pageSize).size = pageSize ∧
      ∀ k < pageSize, byteAt (image.read (pageAddress p) pageSize) k =
        image.memory.flat (p * pageSize + k) := by
  have haddress := toNat_pageAddress hp
  have hcount : p < image.pageCount := by
    rw [isAccessible, pageAt?, haddress, Nat.mul_div_cancel _ (by decide), page?] at ha
    split at ha
    · next page hpage => exact (Array.getElem?_eq_some_iff.mp hpage).1
    · cases ha
  have hsize : (image.read (pageAddress p) pageSize).size = pageSize := by
    have hmul := comparedPages_mul image
    have hle : (p + 1) * pageSize ≤ image.comparedPages * pageSize := Nat.mul_le_mul_right _ hp
    rw [hflat.size_read, clip, haddress]
    simp only [pageSize] at *
    omega
  refine ⟨hsize, fun k hk => ?_⟩
  rw [hflat.byteAt_read _ _ k (by rwa [hsize]), haddress]

/-- What the search through an accessible page finds is the first byte that differs and may not. It
is given by name, for the search unfolds as often as a page has bytes. -/
lemma firstDifference_page (hflat : image.ActsFlat)
    (hsize : reference.size = image.alignedSize.toNat) {p : ℕ} (hp : p < image.comparedPages)
    (ha : image.isAccessible (pageAddress p) = true)
    {theirs : ByteArray} (htheirs : theirs = window reference (p * pageSize) pageSize)
    {found : Option ℕ} (hfound : image.firstDifference (pageAddress p) theirs
      (image.read (pageAddress p) theirs.size) 0
      (min theirs.size (image.read (pageAddress p) theirs.size).size) = found) :
    match found with
    | none => ∀ k < pageSize, ¬ image.Unexcused reference p k
    | some k => k < pageSize ∧ image.Unexcused reference p k ∧
        ∀ j < k, ¬ image.Unexcused reference p j := by
  obtain ⟨hread, hbytes⟩ := read_page hflat hp ha
  have hwindow : theirs.size = pageSize := by
    have hmul := comparedPages_mul image
    have hle : (p + 1) * pageSize ≤ image.comparedPages * pageSize := Nat.mul_le_mul_right _ hp
    rw [htheirs, size_window]
    simp only [pageSize] at *
    omega
  have hcounts : ∀ j, 0 ≤ j → j < 0 + pageSize → (image.Unexcused reference p j ↔
      byteAt theirs j ≠ byteAt (image.read (pageAddress p) pageSize) j ∧
        image.isExcused (pageAddress p) j = false) := by
    intro j _ hj
    rw [Nat.zero_add] at hj
    rw [Unexcused, hbytes j hj, htheirs, byteAt_window, if_pos hj, ← isExcused_iff,
      Bool.not_eq_true]
  have hspec := firstDifference_spec image theirs _ hcounts
  rw [hwindow, hread, Nat.min_self] at hfound
  rw [hfound, Nat.zero_add] at hspec
  cases found with
  | none => exact fun k hk => hspec k (Nat.zero_le _) hk
  | some k =>
      obtain ⟨-, hk, hd, hfirst⟩ := hspec
      exact ⟨hk, hd, fun j hj => hfirst j (Nat.zero_le _) hj⟩

/-- **One page**: what is said of it is what is to be said, and nothing is said of a page that does
not differ. -/
lemma comparePage_spec (hflat : image.ActsFlat) (accessible : UInt32 → Bool)
    (hsize : reference.size = image.alignedSize.toNat) {p : ℕ} (hp : p < image.comparedPages) :
    match image.comparePage reference (accessible (pageAddress p)) p with
    | none => ¬ image.PageDiffers reference accessible p
    | some d => image.Reports reference accessible p d := by
  have haddress : UInt32.ofNat (p * pageSize) = pageAddress p := rfl
  dsimp only [comparePage]
  rw [haddress]
  generalize hfound : image.firstDifference _ _ _ _ _ = found
  cases htheirs : accessible (pageAddress p) with
  | false =>
      cases hours : image.isAccessible (pageAddress p) with
      | false =>
          rintro (h | ⟨h, -⟩)
          · exact h (htheirs.trans hours.symm)
          · rw [htheirs] at h
            cases h
      | true => exact .pageAccessible htheirs hours
  | true =>
      cases hours : image.isAccessible (pageAddress p) with
      | false => exact .pageNotAccessible htheirs hours
      | true =>
          have hspec := firstDifference_page hflat hsize hp hours rfl hfound
          cases found with
          | none =>
              rintro (h | ⟨-, -, k, hk, hd⟩)
              · exact h (htheirs.trans hours.symm)
              · exact hspec k hk hd
          | some k =>
              obtain ⟨hk, hd, hfirst⟩ := hspec
              exact .dataMismatch htheirs hours hk hd hfirst

/-! ### All pages -/

/-- The addresses of the `n` pages from position `p` on. -/
def pageAddresses (p n : ℕ) : Array UInt32 := (Array.range' p n).map pageAddress

lemma push_append_pageAddresses (asked : Array UInt32) (p n : ℕ) :
    asked.push (pageAddress p) ++ pageAddresses (p + 1) n = asked ++ pageAddresses p (n + 1) := by
  rw [pageAddresses, pageAddresses, Array.range'_succ, Array.map_append, ← Array.append_assoc]
  simp

/-- **All pages**, from position `p` on. Nothing is said where no page differs; else it is said of
the first that does, and the accessibility of no page behind it is asked for. -/
lemma comparePages_spec (hflat : image.ActsFlat) (accessible : UInt32 → Bool)
    (hsize : reference.size = image.alignedSize.toNat) {p n : ℕ}
    (hn : p + n ≤ image.comparedPages) (asked : Array UInt32) :
    ((∀ q, p ≤ q → q < p + n → ¬ image.PageDiffers reference accessible q) →
      image.comparePages reference accessible p asked n = (.equal, asked ++ pageAddresses p n)) ∧
      ∀ q, p ≤ q → q < p + n → image.PageDiffers reference accessible q →
        (∀ i, p ≤ i → i < q → ¬ image.PageDiffers reference accessible i) →
          ∃ d, image.Reports reference accessible q d ∧
            image.comparePages reference accessible p asked n =
              (d, asked ++ pageAddresses p (q - p + 1)) := by
  induction n generalizing p asked with
  | zero =>
      refine ⟨fun _ => by simp [comparePages, pageAddresses], fun q hlow hhigh => ?_⟩
      omega
  | succ n ih =>
      have hhead := comparePage_spec hflat accessible hsize
        (show p < image.comparedPages by omega)
      rw [comparePages, show UInt32.ofNat (p * pageSize) = pageAddress p from rfl]
      cases hpage : image.comparePage reference (accessible (pageAddress p)) p with
      | none =>
          rw [hpage] at hhead
          obtain ⟨hequal, hfirst⟩ := ih (p := p + 1) (by omega) (asked.push (pageAddress p))
          refine ⟨fun hall => ?_, fun q hlow hhigh hq hbefore => ?_⟩
          · rw [← push_append_pageAddresses]
            exact hequal fun q hlow hhigh => hall q (by omega) (by omega)
          · obtain rfl | hlt := Nat.eq_or_lt_of_le hlow
            · exact absurd hq hhead
            · obtain ⟨d, hd, hresult⟩ := hfirst q hlt (by omega) hq fun i hi hiq =>
                hbefore i (by omega) hiq
              refine ⟨d, hd, ?_⟩
              rw [show q - p + 1 = q - (p + 1) + 1 + 1 by omega, ← push_append_pageAddresses]
              exact hresult
      | some d =>
          rw [hpage] at hhead
          refine ⟨fun hall => absurd hhead.pageDiffers (hall p le_rfl (by omega)), ?_⟩
          intro q hlow hhigh hq hbefore
          obtain rfl | hlt := Nat.eq_or_lt_of_le hlow
          · refine ⟨d, hhead, ?_⟩
            rw [Nat.sub_self, ← push_append_pageAddresses]
            simp [pageAddresses]
          · exact absurd hhead.pageDiffers (hbefore p le_rfl hlt)

/-! ### The whole comparison -/

/-- The page at position `p` is the first that differs. -/
def FirstDiffers (image : Image) (reference : ByteArray) (accessible : UInt32 → Bool) (p : ℕ) :
    Prop :=
  p < image.comparedPages ∧ image.PageDiffers reference accessible p ∧
    ∀ i < p, ¬ image.PageDiffers reference accessible i

/-- What a comparison says of an image and a reference, and for which pages it asks for the
accessibility of the reference. -/
structure Compares (image : Image) (reference : ByteArray) (accessible : UInt32 → Bool)
    (outcome : Comparison) (asked : Array UInt32) : Prop where
  /-- The sizes differ, -/
  sizeMismatch_iff : outcome = .sizeMismatch ↔ reference.size ≠ image.alignedSize.toNat
  /-- and then nothing is asked for. -/
  asked_of_sizeMismatch : outcome = .sizeMismatch → asked = #[]
  /-- The sizes agree and no page differs, -/
  equal_iff : outcome = .equal ↔ reference.size = image.alignedSize.toNat ∧
    ∀ p < image.comparedPages, ¬ image.PageDiffers reference accessible p
  /-- and then every page is asked for, once and in order. -/
  asked_of_equal : outcome = .equal → asked = pageAddresses 0 image.comparedPages
  /-- The sizes agree, and it is said what is to be said of the first page that differs, -/
  reports : reference.size = image.alignedSize.toNat →
    ∀ p, image.FirstDiffers reference accessible p → image.Reports reference accessible p outcome
  /-- and then the pages up to this one are asked for, once and in order. -/
  asked_of_reports : reference.size = image.alignedSize.toNat →
    ∀ p, image.FirstDiffers reference accessible p → asked = pageAddresses 0 (p + 1)

/-- The bytes that can be read of an image from address zero on, with zeros up to its size. -/
def ownContents (image : Image) : ByteArray :=
  let own := image.read 0 image.alignedSize.toNat
  own ++ zeros (image.alignedSize.toNat - own.size)

/-- At most one page is the first that differs. -/
lemma FirstDiffers.unique {p q : ℕ} (hp : image.FirstDiffers reference accessible p)
    (hq : image.FirstDiffers reference accessible q) : p = q := by
  rcases Nat.lt_trichotomy p q with hlt | rfl | hlt
  · exact absurd hp.2.1 (hq.2.2 p hlt)
  · rfl
  · exact absurd hq.2.1 (hp.2.2 q hlt)

/-- No page differs, or one is the first that does. -/
lemma exists_firstDiffers_or (image : Image) (reference : ByteArray)
    (accessible : UInt32 → Bool) :
    (∀ p < image.comparedPages, ¬ image.PageDiffers reference accessible p) ∨
      ∃ p, image.FirstDiffers reference accessible p := by
  classical
  by_cases hany : ∃ p, p < image.comparedPages ∧ image.PageDiffers reference accessible p
  · refine .inr ⟨Nat.find hany, (Nat.find_spec hany).1, (Nat.find_spec hany).2, fun i hi hd => ?_⟩
    exact Nat.find_min hany hi ⟨hi.trans (Nat.find_spec hany).1, hd⟩
  · exact .inl fun p hp hd => hany ⟨p, hp, hd⟩

lemma compare_eq (hm : image.isMapped = true) :
    image.compare (some reference) accessible =
      if reference.size ≠ image.alignedSize.toNat then (.sizeMismatch, #[])
      else image.comparePages reference accessible 0 #[] image.comparedPages := by
  simp only [compare, hm]
  split_ifs with hsize
  · rfl
  · have hmul := comparedPages_mul image
    have hcount : (reference.size + (pageSize - 1)) / pageSize = image.comparedPages := by
      simp only [pageSize] at *
      omega
    rw [hcount]

/-- A comparison says what it is to say. -/
lemma compares (hflat : image.ActsFlat) (hm : image.isMapped = true) (reference : ByteArray)
    (accessible : UInt32 → Bool) :
    image.Compares reference accessible (image.compare (some reference) accessible).1
      (image.compare (some reference) accessible).2 := by
  rw [compare_eq hm]
  by_cases hsize : reference.size = image.alignedSize.toNat
  · rw [if_neg (not_not_intro hsize)]
    obtain ⟨hequal, hreports⟩ := comparePages_spec hflat accessible hsize
      (show 0 + image.comparedPages ≤ image.comparedPages by omega) #[]
    rcases exists_firstDiffers_or image reference accessible with hnone | ⟨p, hp⟩
    · have hall := hequal fun q _ hq => hnone q (by omega)
      rw [hall]
      constructor
      case sizeMismatch_iff => simp [hsize]
      case asked_of_sizeMismatch => exact nofun
      case equal_iff => exact iff_of_true rfl ⟨hsize, hnone⟩
      case asked_of_equal => simp
      case reports => exact fun _ q hq => absurd hq.2.1 (hnone q hq.1)
      case asked_of_reports => exact fun _ q hq => absurd hq.2.1 (hnone q hq.1)
    · obtain ⟨d, hd, hfirst⟩ := hreports p (Nat.zero_le _) (by simpa using hp.1) hp.2.1
        fun i _ hi => hp.2.2 i hi
      have hne : d ≠ .sizeMismatch ∧ d ≠ .equal := by cases hd <;> simp
      rw [hfirst]
      constructor
      case sizeMismatch_iff => simp [hsize, hne.1]
      case asked_of_sizeMismatch => exact fun h => absurd h hne.1
      case equal_iff => exact iff_of_false hne.2 fun h => h.2 p hp.1 hp.2.1
      case asked_of_equal => exact fun h => absurd h hne.2
      case reports =>
        intro _ q hq
        rwa [hq.unique hp]
      case asked_of_reports =>
        intro _ q hq
        simp [hq.unique hp]
  · rw [if_pos hsize]
    constructor
    case sizeMismatch_iff => exact iff_of_true rfl hsize
    case asked_of_sizeMismatch => exact fun _ => rfl
    case equal_iff => exact iff_of_false nofun fun h => hsize h.1
    case asked_of_equal => exact nofun
    case reports => exact fun h => absurd h hsize
    case asked_of_reports => exact fun h => absurd h hsize

/-- The own contents of an image are as long as it is, and hold its bytes. -/
lemma ownContents_spec (hflat : image.ActsFlat) :
    image.ownContents.size = image.alignedSize.toNat ∧
      ∀ r < image.alignedSize.toNat, byteAt image.ownContents r = image.memory.flat r := by
  have hzero : (0 : UInt32).toNat = 0 := rfl
  have hsize : (image.read 0 image.alignedSize.toNat).size = image.clip := by
    rw [hflat.size_read, hzero, clip]
    omega
  have hclip : image.clip ≤ image.alignedSize.toNat := Nat.min_le_left _ _
  constructor
  · simp only [ownContents, ByteArray.size_append, size_zeros, hsize]
    omega
  · intro r hr
    simp only [ownContents, byteAt_append, hsize]
    split_ifs with hlt
    · rw [hflat.byteAt_read _ _ r (by rwa [hsize]), hzero, Nat.zero_add]
    · -- what cannot be read within the size of image has no page
      have hend : image.memory.tableEnd ≤ r := by
        rw [clip] at hlt
        show pageSize * image.pageCount ≤ r
        omega
      rw [byteAt_zeros, Memory.flat_eq_zero hend]

/-- A section table that ends in front of `2 ^ 32` has its fields where they are without
wrapping. -/
lemma inEmptyPointer_iff
    (h : image.tableOffset + image.sections.length * SectionHeader.size < 2 ^ 32) (off : UInt32) :
    image.InEmptyPointer off ↔ ∃ i s, image.sections[i]? = some s ∧ s.rawSize = 0 ∧
      image.pointerField i ≤ off.toNat ∧ off.toNat < image.pointerField i + 4 := by
  refine exists_congr fun i => exists_congr fun s => and_congr_right fun hs => ?_
  have hi := (List.getElem?_eq_some_iff.mp hs).1
  have hfield : image.pointerField i + 4 < 2 ^ 32 := by
    simp only [pointerField, SectionHeader.size, SectionHeader.rawPointerOffset] at *
    omega
  rw [Nat.mod_eq_of_lt (by omega)]
  simp only [hfield, and_true]

/-- **What a comparison says** of a mapped image, whatever was done to it: that the sizes differ, or
which page is the first that differs, and in what. No page behind it is asked for. An image does not
differ from its own contents. Differences are excused in the raw data pointers of the sections
without raw data, which are where the section table has them if it ends in front of `2 ^ 32`. -/
theorem compare_of_isMapped (h : Reachable image) (hm : image.isMapped = true) :
    (∀ reference accessible, image.Compares reference accessible
      (image.compare (some reference) accessible).1
      (image.compare (some reference) accessible).2) ∧
      (image.compare (some image.ownContents) image.isAccessible).1 = .equal ∧
      (image.tableOffset + image.sections.length * SectionHeader.size < 2 ^ 32 → ∀ off : UInt32,
        image.InEmptyPointer off ↔ ∃ i s, image.sections[i]? = some s ∧ s.rawSize = 0 ∧
          image.pointerField i ≤ off.toNat ∧ off.toNat < image.pointerField i + 4) := by
  have hp : image.pageCount ≠ 0 := by
    rw [isMapped, Bool.and_eq_true, bne_iff_ne] at hm
    exact hm.2
  have hflat := actsFlat_of_allWhole h.allWhole hp
  refine ⟨compares hflat hm, ?_, fun htable => inEmptyPointer_iff htable⟩
  obtain ⟨hsize, hbytes⟩ := ownContents_spec hflat
  refine (compares hflat hm _ _).equal_iff.mpr ⟨hsize, fun p hp hdiffers => ?_⟩
  rcases hdiffers with hother | ⟨-, -, k, hk, hbyte, -⟩
  · exact hother rfl
  · refine hbyte (hbytes _ ?_)
    have hmul := comparedPages_mul image
    have hle : (p + 1) * pageSize ≤ image.comparedPages * pageSize := Nat.mul_le_mul_right _ hp
    rw [Nat.succ_mul] at hle
    omega

theorem compare_dataFile :
    ((loadFile dataFile).1.compare (some (loadFile dataFile).1.ownContents)
        (loadFile dataFile).1.isAccessible).1 = .equal ∧
      ((loadFile dataFile).1.compare (some .empty) fun _ => true).1 = .sizeMismatch := by
  have hmapped : (loadFile dataFile).1.isMapped = true ∧
      (loadFile dataFile).1.alignedSize = 0x2000 := by
    decide +kernel
  have hreachable : Reachable (loadFile dataFile).1 :=
    ⟨.ofVersion .generic, [.load .contents dataFile], rfl⟩
  obtain ⟨hcompares, hself, -⟩ := compare_of_isMapped hreachable hmapped.1
  refine ⟨hself, (hcompares .empty _).sizeMismatch_iff.mpr ?_⟩
  rw [hmapped.2]
  decide

end Image

end PeImage
