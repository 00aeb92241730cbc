/-
A mapped image as one flat range of bytes, whatever was done to it.

Reading and writing go page by page, and pages are of three kinds. What an access does can be said
without them, as long as every page with bytes of its own is a whole page. Loads build such pages,
and nothing that is done to an image later changes that.

* `Image.allWhole_buildPages`, `Image.Reachable.allWhole`: every page of every reachable image is
  whole;
* `Page.Kind`, `Memory.kind?_write`: a write turns the pages of zeros that it reaches into pages
  with bytes, and changes no other kind;
* `Image.ActsFlat`: reads, writes and dumps of a flat range of bytes, and
  `Image.actsFlat_of_reachable`: every reachable image with pages is one.
-/
import PeImage.Proofs.FixupList
import PeImage.Proofs.History
import PeImage.Proofs.PageTable

namespace PeImage

/-! ### Whole pages -/

/-- Every page with bytes of its own has as many as a page holds. -/
def AllWhole (pages : Array Page) : Prop := ∀ page ∈ pages, page.WellFormed

lemma allWhole_iff {pages : Array Page} :
    AllWhole pages ↔ ∀ (p : ℕ) (page : Page), pages[p]? = some page → page.WellFormed := by
  constructor
  · intro h p page hp
    exact h page (Array.mem_of_getElem? hp)
  · intro h page hpage
    obtain ⟨p, hp⟩ := Array.mem_iff_getElem?.mp hpage
    exact h p page hp

lemma allWhole_replicate (n : ℕ) : AllWhole (Array.replicate n .inaccessible) := by
  intro page hpage
  rw [Array.eq_of_mem_replicate hpage]
  trivial

lemma allWhole_empty : AllWhole #[] := by
  intro page hpage
  simp at hpage

namespace Region

variable {r : Region} {file : ByteArray}

lemma wellFormed_page (r : Region) (file : ByteArray) (fileAlignment : UInt32) (k : ℕ) :
    (r.page file fileAlignment k).WellFormed := by
  dsimp only [page]
  split_ifs
  · exact Page.wellFormed_ofBytes _
  · trivial

/-- Placing a region keeps a table whole. -/
lemma allWhole_place {h : OptionalHeader} {pages table : Array Page} {n : UInt32}
    (hp : AllWhole pages) (hplace : r.place file h pages = some (table, n)) : AllWhole table := by
  obtain ⟨-, hin, hout⟩ := getElem?_fill (place_eq_some_iff.mp hplace).1
  rw [allWhole_iff] at hp ⊢
  intro p page hpage
  by_cases hc : r.Covers p
  · rw [hin p hc] at hpage
    cases hpage
    exact wellFormed_page r file _ _
  · rw [hout p hc] at hpage
    exact hp p page hpage

end Region

namespace Image

variable {image : Image}

lemma allWhole_placeSections {file : ByteArray} {h : OptionalHeader} {sections : List SectionHeader}
    {pages table : Array Page} (hp : AllWhole pages)
    (hplace : placeSections file h pages sections = some table) : AllWhole table := by
  induction sections generalizing pages with
  | nil =>
      cases hplace
      exact hp
  | cons s rest ih =>
      rw [placeSections] at hplace
      split at hplace
      · next t n hs => exact ih (Region.allWhole_place hp hs) hplace
      · cases hplace

/-- The pages that a load builds are whole. -/
lemma allWhole_buildPages {file : ByteArray} {built : Image} {pages : Array Page}
    (h : image.buildPages file = (built, .ok pages)) : AllWhole pages := by
  unfold buildPages at h
  split_ifs at h
  · cases hflat : image.flatPages file with
    | none =>
        rw [hflat] at h
        cases (Prod.mk.inj h).2
    | some table =>
        rw [hflat] at h
        cases (Prod.mk.inj h).2
        obtain ⟨⟨t, n⟩, hplace, rfl⟩ := Option.map_eq_some_iff.mp hflat
        exact Region.allWhole_place (allWhole_replicate _) hplace
  · unfold granularPages at h
    dsimp only at h
    split at h
    · cases (Prod.mk.inj h).2
    · next t headerEnd hplace =>
      have ht := Region.allWhole_place (allWhole_replicate _) hplace
      split_ifs at h
      · cases (Prod.mk.inj h).2
        exact ht
      · cases (Prod.mk.inj h).2
        exact ht
      · split at h
        · next table hsections =>
          cases (Prod.mk.inj h).2
          exact allWhole_placeSections ht hsections
        · cases (Prod.mk.inj h).2
          exact allWhole_empty

/-- The pages that a load leaves, whether it fails or not, are none or those that it builds. -/
lemma pages_loadTo (image : Image) (extent : Extent) (file : ByteArray) :
    (image.loadTo extent file).1.pages = #[] ∨ ∃ captured F built,
      buildPages captured F = (built, .ok (image.loadTo extent file).1.pages) := by
  have hcapture := (capture_frame image.config file).2
  have hnone {image : Image} (h : image.contents = .unmapped) : image.pages = #[] := by
    rw [pages, h]
  unfold loadTo
  split
  · next captured fault hc =>
    rw [hc] at hcapture
    exact .inl (hnone hcapture)
  · next captured F hc =>
    rw [hc] at hcapture
    cases extent with
    | headers => exact .inl (hnone hcapture)
    | contents =>
        dsimp only [mapContents]
        split_ifs
        · split
          · next built table hbuild =>
            dsimp only [takeContents, pages]
            split_ifs
            · exact .inl rfl
            · exact .inr ⟨captured, F, built, hbuild⟩
          · next built fault hbuild =>
            have hframe := buildPages_frame captured F
            rw [hbuild] at hframe
            exact .inl (hnone (hframe ▸ hcapture))
        · exact .inl rfl

lemma allWhole_loadTo (image : Image) (extent : Extent) (file : ByteArray) :
    AllWhole (image.loadTo extent file).1.pages := by
  rcases pages_loadTo image extent file with hnone | ⟨captured, F, built, hbuild⟩
  · rw [hnone]
    exact allWhole_empty
  · exact allWhole_buildPages hbuild

/-! ### Every history -/

lemma allWhole_write (h : AllWhole image.pages) (a : UInt32) (src : ByteArray) :
    AllWhole (image.write a src).1.pages := by
  unfold write
  split
  · next table hc =>
    rw [pages, hc] at h
    exact Memory.WellFormed.write (m := image.memoryOf table) h a.toNat src
  · next file hc =>
    split
    · exact allWhole_empty
    · exact h
  · exact h

lemma allWhole_relocate (h : AllWhole image.pages) (base : UInt64) :
    AllWhole (image.relocate base).1.pages := by
  have hm : image.memory.WellFormed := h
  have hstored : (image.storeBase base).WellFormed := hm.write _ _
  rw [relocate_eq]
  split_ifs
  · exact h
  · exact h
  · split
    · exact hstored
    · exact wellFormed_applyDirectory hstored image _ _

/-- **Every page of every reachable image is whole.** -/
theorem Reachable.allWhole (h : Reachable image) : AllWhole image.pages := by
  refine h.invariant (P := fun image => AllWhole image.pages) ?empty ?load ?write
    ?relocate ?edit
  case empty => exact fun _ _ => allWhole_empty
  case load => exact allWhole_loadTo
  case write => exact fun _ a src hw => allWhole_write hw a src
  case relocate => exact fun _ base hw => allWhole_relocate hw base
  case edit =>
    intro image edited hedit hw
    unfold pages at hw ⊢
    rwa [hedit.contents]

end Image

/-! ### Kinds of pages -/

namespace Page

/-- The kinds of pages. -/
inductive Kind where
  /-- Bytes of its own. -/
  | data
  /-- Committed, and zero everywhere. -/
  | zero
  /-- Never committed. -/
  | inaccessible
  deriving DecidableEq, Repr

/-- The kind of a page. -/
def kind : Page → Kind
  | .data _ => .data
  | .zero => .zero
  | .inaccessible => .inaccessible

/-- A page of zeros that is written to gets bytes of its own. -/
@[simp] lemma kind_write (page : Page) (off : ℕ) (src : ByteArray) :
    (page.write off src).kind = if page.kind = .zero then .data else page.kind := by
  cases page <;> rfl

end Page

namespace Memory

variable {m : Memory}

/-- The kind of the page at a position, if there is one. -/
def kind? (m : Memory) (p : ℕ) : Option Page.Kind := m.pages[p]?.map Page.kind

lemma isAccessibleAt_iff_kind? (m : Memory) (a : ℕ) :
    m.isAccessibleAt a = true ↔
      m.kind? (a / pageSize) = some .data ∨ m.kind? (a / pageSize) = some .zero := by
  unfold isAccessibleAt kind?
  cases m.pages[a / pageSize]? with
  | none => simp
  | some page => cases page <;> simp [Page.isAccessible, Page.kind]

/-- One chunk of a write. -/
lemma kind?_modify (pages : Array Page) (limit i off : ℕ) (src : ByteArray) (p : ℕ) :
    kind? ⟨pages.modify i (·.write off src), limit⟩ p =
      if i = p ∧ kind? ⟨pages, limit⟩ p = some .zero then some .data
      else kind? ⟨pages, limit⟩ p := by
  unfold kind?
  simp only [Array.getElem?_modify]
  by_cases hp : i = p
  · rw [if_pos hp]
    cases pages[p]? with
    | none => simp
    | some page =>
        by_cases hz : page.kind = .zero <;> simp [hp, hz]
  · rw [if_neg hp, if_neg fun h => hp h.1]

open scoped Classical in
/-- By induction over the chunks: those that are written already have turned their pages of zeros
into pages with bytes, which the ones to come leave as they are. -/
lemma kind?_writeUpTo (pages : Array Page) (limit : ℕ) (src : ByteArray) (start cursor stop p : ℕ) :
    kind? ⟨(writeUpTo pages src start cursor stop).1, limit⟩ p =
      if (∃ r, cursor ≤ r ∧ r < stop ∧ r / pageSize = p) ∧ kind? ⟨pages, limit⟩ p = some .zero
      then some .data else kind? ⟨pages, limit⟩ p := by
  fun_induction writeUpTo pages src start cursor stop with
  | case1 pages cursor h hlt n pages' ih =>
      have hn : n ≤ stop - cursor := chunk_le cursor stop
      by_cases hp : cursor / pageSize = p ∧ kind? ⟨pages, limit⟩ p = some .zero
      · have hdata : kind? ⟨pages', limit⟩ p = some .data := by
          rw [kind?_modify, if_pos hp]
        rw [ih, hdata, if_neg (by simp), if_pos ⟨⟨cursor, le_rfl, h, hp.1⟩, hp.2⟩]
      · have hsame : kind? ⟨pages', limit⟩ p = kind? ⟨pages, limit⟩ p := by
          rw [kind?_modify, if_neg hp]
        rw [ih, hsame]
        -- the addresses of this chunk are on another page, or that page is none of zeros
        refine if_congr (and_congr_left fun hz => exists_congr fun r => ?_) rfl rfl
        have hother : cursor ≤ r → r < cursor + n → r / pageSize ≠ p := by
          intro hr hlt' hpage
          have hmod := mod_add_chunk_le cursor stop
          have hadd := (div_add (show cursor % pageSize + (r - cursor) < pageSize by omega)).1
          rw [Nat.add_sub_cancel' hr] at hadd
          exact hp ⟨hadd.symm.trans hpage, hz⟩
        constructor
        · rintro ⟨hr, hstop, hpage⟩
          exact ⟨by omega, hstop, hpage⟩
        · rintro ⟨hr, hstop, hpage⟩
          exact ⟨Nat.le_of_not_lt fun hlt' => hother hr hlt' hpage, hstop, hpage⟩
  | case2 pages cursor h hlt =>
      rw [if_neg]
      rintro ⟨⟨r, hr, -, rfl⟩, hz⟩
      have hsize : pages.size ≤ r / pageSize :=
        (Nat.le_of_not_lt hlt).trans (Nat.div_le_div_right hr)
      rw [kind?, Array.getElem?_eq_none hsize] at hz
      cases hz
  | case3 pages cursor h =>
      rw [if_neg]
      rintro ⟨⟨r, hr, hstop, -⟩, -⟩
      omega

open scoped Classical in
/-- **What a write does to the kinds of pages**: a page of zeros of which it reaches a byte gets
bytes of its own, and every other page keeps its kind. -/
lemma kind?_write (m : Memory) (a : ℕ) (src : ByteArray) (p : ℕ) :
    (m.write a src).1.kind? p =
      if (∃ r, a ≤ r ∧ r < a + (m.write a src).2 ∧ r / pageSize = p) ∧ m.kind? p = some .zero
      then some .data else m.kind? p := by
  refine (kind?_writeUpTo m.pages m.limit src a a (m.stop a src.size) p).trans ?_
  rw [write_snd]
  by_cases hz : m.kind? p = some .zero
  · -- a page of zeros is a page, so its addresses lie in front of the end of the table
    have hp : p < m.pages.size := by
      by_contra hge
      rw [kind?, Array.getElem?_eq_none (Nat.le_of_not_lt hge)] at hz
      cases hz
    have hrange : (∃ r, a ≤ r ∧ r < m.stop a src.size ∧ r / pageSize = p) ↔
        ∃ r, a ≤ r ∧ r < a + min src.size (m.reach - a) ∧ r / pageSize = p := by
      refine exists_congr fun r => ?_
      by_cases hpage : r / pageSize = p
      · have hend := (div_lt_size_iff m r).mp (hpage ▸ hp)
        simp only [stop, reach]
        omega
      · simp [hpage]
    simp only [hrange, hz]
  · rw [if_neg fun h => hz h.2, if_neg fun h => hz h.2]

end Memory

/-! ### Reads, writes and dumps -/

namespace Image

variable {image : Image}

/-- The first address that no access gets to. -/
def clip (image : Image) : ℕ := min image.alignedSize.toNat (pageSize * image.pageCount)

open scoped Classical in
/-- The image is one flat range of bytes: what is read and dumped, and what a write changes, is told
by the byte at each address, and a write that reaches a page of zeros gives it bytes of its own. -/
structure ActsFlat (image : Image) : Prop where
  /-- A read moves bytes up to the clip, -/
  size_read : ∀ (a : UInt32) n, (image.read a n).size = min n (image.clip - a.toNat)
  /-- and those are the bytes at their addresses. -/
  byteAt_read : ∀ (a : UInt32) n, ∀ k < (image.read a n).size,
    byteAt (image.read a n) k = image.memory.flat (a.toNat + k)
  /-- A write consumes as many bytes as a read moves, -/
  write_snd : ∀ (a : UInt32) src, (image.write a src).2 = min src.size (image.clip - a.toNat)
  /-- puts them where there is access, and changes no other byte, -/
  flat_write : ∀ (a : UInt32) src r, (image.write a src).1.memory.flat r =
    if a.toNat ≤ r ∧ r < a.toNat + (image.write a src).2 ∧
      image.memory.kind? (r / pageSize) ≠ some .inaccessible then byteAt src (r - a.toNat)
    else image.memory.flat r
  /-- and gives the pages of zeros that it reaches bytes of their own, and changes no other kind. -/
  kind?_write : ∀ (a : UInt32) src p, (image.write a src).1.memory.kind? p =
    if (∃ r, a.toNat ≤ r ∧ r < a.toNat + (image.write a src).2 ∧ r / pageSize = p) ∧
      image.memory.kind? p = some .zero then some .data
    else image.memory.kind? p
  /-- A dump is as long as all pages, -/
  size_dump : image.dump.size = pageSize * image.pageCount
  /-- and holds the bytes at their addresses. -/
  byteAt_dump : ∀ r < image.dump.size, byteAt image.dump r = image.memory.flat r

/-- An image with whole pages is one flat range of bytes. -/
lemma actsFlat_of_allWhole (h : AllWhole image.pages) (hp : image.pageCount ≠ 0) :
    image.ActsFlat := by
  have hm : image.memory.WellFormed := h
  have hc := contents_of_pageCount hp
  have hmemory : image.memoryOf image.pages = image.memory := rfl
  have hread (a : UInt32) (n : ℕ) : image.read a n = image.memory.read a.toNat n := by
    unfold read
    rw [hc, ← hmemory]
  have hwrite (a : UInt32) (src : ByteArray) : (image.write a src).2 =
      (image.memory.write a.toNat src).2 ∧
      (image.write a src).1.memory = (image.memory.write a.toNat src).1 := by
    unfold write
    rw [hc, ← hmemory]
    exact ⟨rfl, rfl⟩
  constructor
  case size_read =>
    intro a n
    rw [hread]
    exact Memory.size_read hm a.toNat n
  case byteAt_read =>
    intro a n k hk
    rw [hread] at hk ⊢
    exact Memory.byteAt_read hm hk
  case write_snd =>
    intro a src
    rw [(hwrite a src).1]
    exact Memory.write_snd image.memory a.toNat src
  case flat_write =>
    intro a src r
    rw [(hwrite a src).1, (hwrite a src).2, Memory.flat_write hm]
    refine if_congr (and_congr_right fun hlow => and_congr_right fun hhigh => ?_) rfl rfl
    -- what a write reaches lies on a page
    have hpage : r / pageSize < image.memory.pages.size := by
      rw [Memory.div_lt_size_iff]
      rw [Memory.write_snd, Memory.reach] at hhigh
      omega
    rw [Memory.isAccessibleAt_iff_kind?, Memory.kind?, Array.getElem?_eq_getElem hpage]
    cases image.memory.pages[r / pageSize] <;> simp [Page.kind]
  case kind?_write =>
    intro a src p
    rw [(hwrite a src).1, (hwrite a src).2]
    exact Memory.kind?_write image.memory a.toNat src p
  case size_dump => exact Memory.size_toByteArray hm
  case byteAt_dump => exact fun r _ => Memory.byteAt_toByteArray hm r

/-- **A mapped image is one flat range of bytes**, whatever was done to it. -/
theorem actsFlat_of_reachable (h : Reachable image) (hp : image.pageCount ≠ 0) : image.ActsFlat :=
  actsFlat_of_allWhole h.allWhole hp

/-- A load, a write over the border between headers and section, and an edit that moves the size of
image behind the end of the table. -/
def enlargedImage : Image :=
  (empty (.ofVersion .generic)).run
    [.load .contents dataFile, .write 0xFFE [1, 2, 3, 4].toByteArray, .enlargeLastSection 0x2000]

theorem actsFlat_enlargedImage :
    enlargedImage.ActsFlat ∧ enlargedImage.clip < enlargedImage.alignedSize.toNat := by
  have hpages : enlargedImage.pageCount ≠ 0 ∧
      enlargedImage.clip < enlargedImage.alignedSize.toNat := by
    decide +kernel
  exact ⟨actsFlat_of_reachable ⟨_, _, rfl⟩ hpages.1, hpages.2⟩

end Image

end PeImage
