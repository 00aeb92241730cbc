/-
Putting regions into a table of pages.

A region overwrites the pages it covers and no others, so a table built from regions that do not
overlap shows each of them, in whatever order they were put there.

* `Page.Shows`: a page that shows a stretch of the file, with zeros behind its end;
* `Region.Covers`, `Region.Fits`: the pages of a region, and whether a table has room for them;
* `Region.fill_eq_none_iff`, `Region.getElem?_fill`: filling fails exactly without room, and changes
  exactly what the region covers;
* `Region.page_shows`, `Region.page_eq_zero`: the pages of a region;
* `placeSections_isSome_iff`, `getElem?_placeSections_of_not_covers`,
  `getElem?_placeSections_of_covers`: the same for a list of sections.
-/
import PeImage.Image.Mapping
import PeImage.Proofs.Rounding

namespace PeImage

/-! ### Pages that show the file -/

/-- The page holds the bytes of the file from `off` on, up to `stop` or to the end of the file, and
zeros behind them. -/
def Page.Shows (page : Page) (file : ByteArray) (off stop : ℕ) : Prop :=
  ∃ bytes, page = .data bytes ∧ bytes.size = pageSize ∧ ∀ k < pageSize,
    byteAt bytes k = if off + k < min file.size stop then byteAt file (off + k) else 0

namespace Region

variable {r : Region} {file : ByteArray} {fileAlignment : UInt32}

/-- A page that is cut from the file shows it. -/
lemma shows_ofBytes (file : ByteArray) (off stop : ℕ) :
    (Page.ofBytes (window file off (min pageSize (stop - off)))).Shows file off stop := by
  refine ⟨_, rfl, Page.wellFormed_ofBytes _, ?_⟩
  intro k hk
  have hbyte := Page.byte_ofBytes (window file off (min pageSize (stop - off))) k
  rw [if_pos hk, byteAt_window] at hbyte
  refine Eq.trans hbyte ?_
  by_cases hstop : off + k < stop
  · rw [if_pos (by omega)]
    by_cases hfile : off + k < file.size
    · rw [if_pos (by omega)]
    · rw [if_neg (by omega), byteAt_eq_zero (by omega)]
  · rw [if_neg (by omega), if_neg (by omega)]

/-- A page that the file backs shows it. -/
lemma page_shows {k : ℕ} (hk : k < r.dataPageCount)
    (ho : r.dataStart + k * pageSize < file.size) :
    (r.page file fileAlignment k).Shows file (r.dataStart + k * pageSize)
      (r.dataEnd fileAlignment) := by
  simp only [page, hk, ho, true_and, if_true]
  exact shows_ofBytes _ _ _

/-- A page that the file does not back is a page of zeros. -/
lemma page_eq_zero {k : ℕ}
    (h : ¬ (k < r.dataPageCount ∧ r.dataStart + k * pageSize < file.size)) :
    r.page file fileAlignment k = .zero := by
  simp only [page]
  rw [if_neg h]

/-! ### One region -/

/-- The pages into which a region puts its own. -/
def Covers (r : Region) (p : ℕ) : Prop :=
  r.protection ≠ .noAccess ∧ r.firstPage ≤ p ∧ p < r.firstPage + r.pageCount

/-- A table of `n` pages has room for the region. -/
def Fits (r : Region) (n : ℕ) : Prop :=
  r.protection = .noAccess ∨ r.pageCount = 0 ∨ r.firstPage + r.pageCount ≤ n

/-- The address behind a region, as the placing computes it. -/
def next (r : Region) (h : OptionalHeader) : UInt32 :=
  r.address + alignUp r.size h.sectionAlignment

/-- Writing `n` entries of a table one behind the other: by induction, those behind the ones written
already are still the old ones. -/
lemma getElem?_fold_set (g : ℕ → Page) (first n : ℕ) (pages : Array Page) (p : ℕ) :
    (n.fold (fun k _ pages => pages.setIfInBounds (first + k) (g k)) pages).size = pages.size ∧
      (first + n ≤ pages.size →
        (n.fold (fun k _ pages => pages.setIfInBounds (first + k) (g k)) pages)[p]? =
          if first ≤ p ∧ p < first + n then some (g (p - first)) else pages[p]?) := by
  induction n with
  | zero =>
      refine ⟨rfl, ?_⟩
      intro _
      rw [if_neg (by omega)]
      rfl
  | succ n ih =>
      obtain ⟨hsize, hget⟩ := ih
      rw [Nat.fold_succ]
      refine ⟨by simp [hsize], ?_⟩
      intro hle
      rw [Array.getElem?_setIfInBounds, hsize, hget (by omega)]
      by_cases hp : first + n = p
      · rw [if_pos hp, if_pos (by omega), if_pos (by omega), ← hp, Nat.add_sub_cancel_left]
      · rw [if_neg hp]
        by_cases hin : first ≤ p ∧ p < first + n
        · rw [if_pos hin, if_pos (by omega)]
        · rw [if_neg hin, if_neg (by omega)]

/-- Filling fails exactly where the table has no room. -/
lemma fill_eq_none_iff {pages : Array Page} :
    r.fill file fileAlignment pages = none ↔ ¬ r.Fits pages.size := by
  simp only [fill, Fits]
  by_cases h1 : r.protection = .noAccess ∨ r.pageCount = 0
  · rw [if_pos h1]
    simp only [reduceCtorEq, false_iff, not_not]
    exact h1.elim .inl fun h => .inr (.inl h)
  · rw [if_neg h1]
    rw [not_or] at h1
    by_cases h2 : r.firstPage + r.pageCount ≤ pages.size
    · simp [h2]
    · simp [h1.1, h1.2, h2]

/-- Filling keeps the size of the table, and changes exactly the pages that the region covers. -/
lemma getElem?_fill {pages table : Array Page} (h : r.fill file fileAlignment pages = some table) :
    table.size = pages.size ∧
      (∀ p, r.Covers p → table[p]? = some (r.page file fileAlignment (p - r.firstPage))) ∧
      ∀ p, ¬ r.Covers p → table[p]? = pages[p]? := by
  unfold fill at h
  split_ifs at h with h1 h2
  · cases h
    refine ⟨rfl, ?_, fun _ _ => rfl⟩
    rintro p ⟨hacc, hlow, hhigh⟩
    rcases h1 with h1 | h1
    · exact absurd h1 hacc
    · omega
  · have hacc := (not_or.mp h1).1
    cases h
    have hset := getElem?_fold_set (r.page file fileAlignment) r.firstPage r.pageCount pages
    refine ⟨(hset 0).1, ?_, ?_⟩
    · rintro p ⟨-, hin⟩
      rw [(hset p).2 h2, if_pos hin]
    · intro p hp
      have hout : ¬ (r.firstPage ≤ p ∧ p < r.firstPage + r.pageCount) := fun hin => hp ⟨hacc, hin⟩
      rw [(hset p).2 h2, if_neg hout]

/-- Placing a region is filling, unless the address behind it wraps to zero. -/
lemma place_eq_some_iff {h : OptionalHeader} {pages table : Array Page} {n : UInt32} :
    r.place file h pages = some (table, n) ↔
      r.fill file h.fileAlignment pages = some table ∧ r.next h = n ∧ r.next h ≠ 0 := by
  unfold place next
  cases hfill : r.fill file h.fileAlignment pages with
  | none => simp
  | some t =>
      by_cases hz : r.address + alignUp r.size h.sectionAlignment = 0
      · simp [hz]
      · simp [hz]

lemma place_eq_none_iff {h : OptionalHeader} {pages : Array Page} :
    r.place file h pages = none ↔ ¬ (r.Fits pages.size ∧ r.next h ≠ 0) := by
  unfold place next
  cases hfill : r.fill file h.fileAlignment pages with
  | none => simp [fill_eq_none_iff.mp hfill]
  | some t =>
      have hfits : r.Fits pages.size := by
        by_contra hn
        rw [fill_eq_none_iff.mpr hn] at hfill
        cases hfill
      by_cases hz : r.address + alignUp r.size h.sectionAlignment = 0 <;> simp [hz, hfits]

end Region

/-! ### A list of sections -/

namespace Image

open Region

variable {file : ByteArray} {h : OptionalHeader} {pages table : Array Page}
  {sections : List SectionHeader}

/-- The sections find a place exactly if each of them does. -/
lemma placeSections_isSome_iff :
    (placeSections file h pages sections).isSome ↔
      ∀ s ∈ sections, (ofSection s).Fits pages.size ∧ (ofSection s).next h ≠ 0 := by
  induction sections generalizing pages with
  | nil => simp [placeSections]
  | cons s rest ih =>
      rw [placeSections, List.forall_mem_cons]
      cases hplace : (ofSection s).place file h pages with
      | none => simp [place_eq_none_iff.mp hplace]
      | some t =>
          obtain ⟨hfill, -, -⟩ := place_eq_some_iff.mp hplace
          have hok : (ofSection s).Fits pages.size ∧ (ofSection s).next h ≠ 0 := by
            by_contra hn
            rw [place_eq_none_iff.mpr hn] at hplace
            cases hplace
          simp only [ih, (getElem?_fill hfill).1]
          exact ⟨fun hr => ⟨hok, hr⟩, fun hr => hr.2⟩

/-- Sections leave the pages that none of them covers as they are. -/
lemma getElem?_placeSections_of_not_covers
    (hp : placeSections file h pages sections = some table) :
    table.size = pages.size ∧
      ∀ p, (∀ s ∈ sections, ¬ (ofSection s).Covers p) → table[p]? = pages[p]? := by
  induction sections generalizing pages with
  | nil =>
      cases hp
      exact ⟨rfl, fun _ _ => rfl⟩
  | cons s rest ih =>
      rw [placeSections] at hp
      split at hp
      · next t n hplace =>
        obtain ⟨hsize, -, hout⟩ := getElem?_fill (place_eq_some_iff.mp hplace).1
        obtain ⟨hrest, hget⟩ := ih hp
        refine ⟨hrest.trans hsize, ?_⟩
        intro p hn
        rw [List.forall_mem_cons] at hn
        rw [hget p hn.2, hout p hn.1]
      · cases hp

/-- Sections that do not overlap each show their own pages. -/
lemma getElem?_placeSections_of_covers
    (hd : sections.Pairwise fun s t => ∀ p, (ofSection s).Covers p → ¬ (ofSection t).Covers p)
    (hp : placeSections file h pages sections = some table) :
    ∀ s ∈ sections, ∀ p, (ofSection s).Covers p →
      table[p]? = some ((ofSection s).page file h.fileAlignment (p - (ofSection s).firstPage)) := by
  induction sections generalizing pages with
  | nil => simp
  | cons s rest ih =>
      obtain ⟨hs, hrest⟩ := List.pairwise_cons.mp hd
      rw [placeSections] at hp
      split at hp
      · next t n hplace =>
        intro u hu p hc
        rcases List.mem_cons.mp hu with rfl | hu
        · -- the sections behind it leave the page alone
          rw [(getElem?_placeSections_of_not_covers hp).2 p fun v hv => hs v hv p hc]
          exact (getElem?_fill (place_eq_some_iff.mp hplace).1).2.1 p hc
        · exact ih hrest hp u hu p hc
      · cases hp

end Image

end PeImage
