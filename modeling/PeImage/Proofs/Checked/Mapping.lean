/-
Building the pages of an image in machine words.

* `ofFlagsChecked_eq`: the protection of a section, which is looked up in a table;
* `fillChecked_eq`: the two loops that put the pages of a region into a table. After `k` rounds the
  table has the first `k` pages of the region, the position in the region is `k` pages, and so is
  the distance in the file. The size of the region is a word, and so nothing overflows;
* `placeSectionsChecked_eq`, `granularPagesChecked_eq`, `flatPagesChecked_eq`,
  `buildPagesChecked_eq`: so every image is mapped.
-/
import PeImage.Proofs.Checked.Access
import PeImage.Proofs.SectionPages

namespace PeImage

open Checked

/-! ### Protection -/

namespace PageProtection

/-- The protections by the four flags, of which running counts lowest and sharing highest. -/
def table : List PageProtection :=
  [.noAccess, .execute, .readOnly, .executeRead, .writeCopy, .executeWriteCopy, .writeCopy,
   .executeWriteCopy, .noAccess, .execute, .readOnly, .executeRead, .readWrite, .executeReadWrite,
   .readWrite, .executeReadWrite]

/-- The protection that the four memory flags ask for. -/
def ofFlagsChecked (execute read write shared : Bool) : Checked PageProtection :=
  get table (execute.toNat ||| 2 * read.toNat ||| 4 * write.toNat ||| 8 * shared.toNat)

/-- The protection of a section with the given characteristics. -/
def ofCharacteristicsChecked (bits : UInt32) : Checked PageProtection :=
  ofFlagsChecked (BitFlag.isSet bits SectionFlag.execute) (BitFlag.isSet bits SectionFlag.read)
    (BitFlag.isSet bits SectionFlag.write) (BitFlag.isSet bits SectionFlag.shared)

lemma ofFlagsChecked_eq (execute read write shared : Bool) :
    ofFlagsChecked execute read write shared = .ok (ofFlags execute read write shared) := by
  cases execute <;> cases read <;> cases write <;> cases shared <;> rfl

lemma ofCharacteristicsChecked_eq (bits : UInt32) :
    ofCharacteristicsChecked bits = .ok (ofCharacteristics bits) := ofFlagsChecked_eq _ _ _ _

end PageProtection

/-! ### Regions -/

namespace Region

variable {r : Region} {file : ByteArray} {fileAlignment : UInt32} {pages : Array Page}

/-- The page at offset `raw` of the file, up to the end of the data. -/
def dataPageChecked (file : ByteArray) (dataEnd raw : ℕ) : Checked Page := do
  if raw < file.size then
    let available := min (min (← sub file.size raw) pageSize) (dataEnd - raw)
    Page.ofBytesChecked (← slice file raw (← add 64 raw available))
  else return .zero

/-- One round of the loop over the pages that the file backs, of which the data ends at `dataEnd`.
The state is the table, the position in it, the position in the region and the offset in the
file. -/
def dataRound (file : ByteArray) (dataEnd stop : ℕ) (s : Array Page × ℕ × ℕ × ℕ) :
    Checked (Round (Array Page × ℕ × ℕ × ℕ) (Option (Array Page × ℕ × ℕ))) := do
  let (pages, i, off, raw) := s
  if off < stop then
    if i < pages.size then
      let pages := pages.setIfInBounds i (← dataPageChecked file dataEnd raw)
      let raw ← add 64 raw pageSize
      let off ← add 32 off pageSize
      return .next (pages, ← add 64 i 1, off, raw)
    else return .done none
  else return .done (some (pages, i, off))

/-- One round of the loop over the pages of zeros behind them. -/
def zeroRound (stop : ℕ) (s : Array Page × ℕ × ℕ) :
    Checked (Round (Array Page × ℕ × ℕ) (Option (Array Page))) := do
  let (pages, i, off) := s
  if off < stop then
    if i < pages.size then
      let off ← add 32 off pageSize
      return .next (pages.setIfInBounds i .zero, ← add 64 i 1, off)
    else return .done none
  else return .done (some pages)

/-- The offset in the file at which the data of the region ends. -/
def dataEndChecked (r : Region) (fileAlignment : UInt32) : Checked ℕ :=
  if r.isHeader then add 64 r.dataStart r.dataSize.toNat
  else return (alignUp (r.rawPointer + r.dataSize) fileAlignment).toNat

/-- Puts the pages of the region into a table. -/
def fillChecked (r : Region) (file : ByteArray) (fileAlignment : UInt32) (pages : Array Page) :
    Checked (Option (Array Page)) := do
  let dataEnd ← r.dataEndChecked fileAlignment
  let first ← div r.address.toNat pageSize
  if r.protection = .noAccess then return some pages
  else
    let front ← if r.rawPointer ≠ 0 ∨ r.isHeader = true then
        let stop := (alignUp r.dataSize pageSize32).toNat
        loop (dataRound file dataEnd stop) (stop / pageSize + 1) (pages, first, 0, r.dataStart)
      else pure (some (pages, first, 0))
    match front with
    | some s => loop (zeroRound r.size.toNat) (r.size.toNat / pageSize + 1) s
    | none => return none

/-- Puts the region into a table: the table, and the address at which the next region is due. -/
def placeChecked (r : Region) (file : ByteArray) (h : OptionalHeader) (pages : Array Page) :
    Checked (Option (Array Page × UInt32)) := do
  match ← r.fillChecked file h.fileAlignment pages with
  | none => return none
  | some pages =>
    let next := r.address + alignUp r.size h.sectionAlignment
    return if next = 0 then none else some (pages, next)

lemma dataEndChecked_eq (r : Region) (fileAlignment : UInt32) :
    r.dataEndChecked fileAlignment = .ok (r.dataEnd fileAlignment) := by
  have hstart : r.dataStart < 2 ^ 32 := UInt32.toNat_lt _
  have hsize := r.dataSize.toNat_lt
  rw [dataEndChecked, dataEnd, add_eq (by omega)]
  split_ifs <;> rfl

/-- A size in whole pages is that many pages. -/
lemma toNat_alignUp_pageSize (x : UInt32) :
    (alignUp x pageSize32).toNat = (alignUp x pageSize32).toNat / pageSize * pageSize := by
  rw [toNat_alignUp (k := 12) rfl, show pageSize = 2 ^ 12 from rfl,
    Nat.mul_div_cancel _ (Nat.two_pow_pos 12)]

/-- The data of a region takes no more pages than the region. -/
lemma dataPageCount_le (r : Region) : r.dataPageCount ≤ r.pageCount := by
  rw [dataPageCount, pageCount]
  split_ifs
  · have hle : r.dataSize.toNat ≤ r.size.toNat := by
      rw [dataSize, toNat_min]
      exact Nat.min_le_right _ _
    have hsize : r.size.toNat = r.size.toNat / pageSize * pageSize := toNat_alignUp_pageSize _
    have hlt := r.size.toNat_lt
    rw [toNat_alignUp (k := 12) rfl, show pageSize = 2 ^ 12 from rfl,
      Nat.mul_div_cancel _ (Nat.two_pow_pos 12)]
    rw [show pageSize = 4096 from rfl] at hsize
    omega
  · exact Nat.zero_le _

lemma dataPageChecked_eq {k : ℕ} (hk : k < r.dataPageCount)
    (hraw : r.dataStart + k * pageSize < 2 ^ 33) :
    dataPageChecked file (r.dataEnd fileAlignment) (r.dataStart + k * pageSize) =
      .ok (r.page file fileAlignment k) := by
  dsimp only [dataPageChecked, page]
  by_cases hin : r.dataStart + k * pageSize < file.size
  · have hpage : pageSize = 4096 := rfl
    have hpart (n : ℕ) : file.extract (r.dataStart + k * pageSize) (r.dataStart + k * pageSize +
        min (min (file.size - (r.dataStart + k * pageSize)) pageSize) n) =
        window file (r.dataStart + k * pageSize) (min pageSize n) := by
      rw [← window_min, window,
        show min (min (file.size - (r.dataStart + k * pageSize)) pageSize) n =
          min (min pageSize n) (file.size - (r.dataStart + k * pageSize)) by omega]
    rw [if_pos hin, if_pos ⟨hk, hin⟩, sub_eq hin.le, ok_bind, add_eq (by omega), ok_bind,
      slice_eq (by omega) (by omega), ok_bind, Page.ofBytesChecked_eq, hpart]
  · rw [if_neg hin, if_neg fun h => hin h.2]
    rfl

/-- The table with the first `k` pages of the region put into it. -/
def fillUpTo (r : Region) (file : ByteArray) (fileAlignment : UInt32) (pages : Array Page) (k : ℕ) :
    Array Page :=
  k.fold
    (fun j _ pages => pages.setIfInBounds (r.firstPage + j) (r.page file fileAlignment j)) pages

lemma fillUpTo_succ (k : ℕ) : r.fillUpTo file fileAlignment pages (k + 1) =
    (r.fillUpTo file fileAlignment pages k).setIfInBounds (r.firstPage + k)
      (r.page file fileAlignment k) := Nat.fold_succ _ _ _

lemma size_fillUpTo (k : ℕ) : (r.fillUpTo file fileAlignment pages k).size = pages.size := by
  induction k with
  | zero => rfl
  | succ k ih => rw [fillUpTo_succ, Array.size_setIfInBounds, ih]

/-- The table has room for the first `k` pages of the region. -/
def HasRoom (r : Region) (pages : Array Page) (k : ℕ) : Prop :=
  k = 0 ∨ r.firstPage + k ≤ pages.size

instance (r : Region) (pages : Array Page) (k : ℕ) : Decidable (r.HasRoom pages k) :=
  inferInstanceAs (Decidable (_ ∨ _))

lemma fill_eq (hacc : r.protection ≠ .noAccess) : r.fill file fileAlignment pages =
    if r.HasRoom pages r.pageCount then some (r.fillUpTo file fileAlignment pages r.pageCount)
    else none := by
  by_cases hz : r.pageCount = 0
  · rw [fill, if_pos (.inr hz), if_pos (show r.HasRoom pages r.pageCount from .inl hz), hz]
    rfl
  · have hroom : r.HasRoom pages r.pageCount ↔ r.firstPage + r.pageCount ≤ pages.size :=
      or_iff_right hz
    rw [fill, if_neg (not_or.mpr ⟨hacc, hz⟩), if_congr hroom rfl rfl]
    rfl

/-- A loop that puts one page after the other into a table, of which the state before the page at
position `k` is `state k`, ends with its result if the table has room for all of them. -/
lemma loop_fill {σ α : Type} (state : ℕ → σ) {round : σ → Checked (Round σ (Option α))} {result : α}
    {d n : ℕ} (hdn : d ≤ n) (hroom : r.HasRoom pages d)
    (hput : ∀ k, d ≤ k → k < n → round (state k) =
      .ok (if r.firstPage + k < pages.size then .next (state (k + 1)) else .done none))
    (hend : round (state n) = .ok (.done (some result))) {fuel : ℕ} (hfuel : n - d < fuel) :
    loop round fuel (state d) = .ok (if r.HasRoom pages n then some result else none) := by
  induction fuel generalizing d with
  | zero => exact absurd hfuel (Nat.not_lt_zero _)
  | succ fuel ih =>
      rcases Nat.lt_or_eq_of_le hdn with hlt | rfl
      · rw [loop, hput d (Nat.le_refl d) hlt]
        by_cases hin : r.firstPage + d < pages.size
        · rw [if_pos hin]
          exact ih hlt (.inr hin) (fun k hk => hput k (by omega)) (by omega)
        · rw [if_neg hin, if_neg (show ¬ r.HasRoom pages n from not_or.mpr ⟨by omega, by omega⟩)]
      · rw [loop, hend, if_pos hroom]

lemma mul_pageSize_lt {k n : ℕ} (hk : k < n) : k * pageSize + pageSize ≤ n * pageSize := by
  rw [← Nat.succ_mul]
  exact Nat.mul_le_mul_right _ hk

/-- **The loop over the pages that the file backs** puts them into the table if it has room. -/
lemma loop_dataRound (file : ByteArray) (fileAlignment : UInt32) (hpages : pages.size ≤ 2 ^ 20)
    {n : ℕ} (hn : n ≤ r.dataPageCount)
    (hstop : n * pageSize < 2 ^ 32) :
    loop (dataRound file (r.dataEnd fileAlignment) (n * pageSize)) (n + 1)
        (pages, r.firstPage, 0, r.dataStart) =
      .ok (if r.HasRoom pages n then
        some (r.fillUpTo file fileAlignment pages n, r.firstPage + n, n * pageSize) else none) := by
  have hstart : r.dataStart < 2 ^ 32 := UInt32.toNat_lt _
  have hpage : 0 < pageSize := by decide
  have hzero : (pages, r.firstPage, 0, r.dataStart) = (r.fillUpTo file fileAlignment pages 0,
      r.firstPage + 0, 0 * pageSize, r.dataStart + 0 * pageSize) := by
    rw [Nat.zero_mul]
    rfl
  rw [hzero]
  refine loop_fill (fun k => (r.fillUpTo file fileAlignment pages k, r.firstPage + k,
    k * pageSize, r.dataStart + k * pageSize)) (Nat.zero_le n) (.inl rfl) (fun k _ hk => ?put) ?stop
    (Nat.lt_succ_self n)
  case put =>
    have hnext := mul_pageSize_lt hk
    dsimp only [dataRound]
    rw [if_pos (by omega), size_fillUpTo]
    split_ifs with hin
    · rw [dataPageChecked_eq (by omega) (by omega), ok_bind, add_eq (by omega), ok_bind,
        add_eq (by omega), ok_bind, add_eq (by omega), ok_bind, fillUpTo_succ, Nat.succ_mul,
        Nat.add_assoc, Nat.add_assoc]
      rfl
    · rfl
  case stop =>
    dsimp only [dataRound]
    rw [if_neg (Nat.lt_irrefl _)]
    rfl

/-- **The loop over the pages of zeros** puts the rest of the pages into the table if it has
room. -/
lemma loop_zeroRound (file : ByteArray) (fileAlignment : UInt32) (hpages : pages.size ≤ 2 ^ 20)
    {d n : ℕ} (hd : r.dataPageCount ≤ d) (hdn : d ≤ n) (hroom : r.HasRoom pages d)
    (hstop : n * pageSize < 2 ^ 32) :
    loop (zeroRound (n * pageSize)) (n + 1)
        (r.fillUpTo file fileAlignment pages d, r.firstPage + d, d * pageSize) =
      .ok (if r.HasRoom pages n then some (r.fillUpTo file fileAlignment pages n) else none) := by
  have hpage : 0 < pageSize := by decide
  refine loop_fill (fun k => (r.fillUpTo file fileAlignment pages k, r.firstPage + k,
    k * pageSize)) hdn hroom (fun k hdk hk => ?put) ?stop (Nat.lt_succ_of_le (Nat.sub_le n d))
  case put =>
    have hnext := mul_pageSize_lt hk
    have hzero : r.page file fileAlignment k = .zero := page_eq_zero fun h => by omega
    dsimp only [zeroRound]
    rw [if_pos (by omega), size_fillUpTo]
    split_ifs with hin
    · rw [add_eq (by omega), ok_bind, add_eq (by omega), ok_bind, fillUpTo_succ, hzero,
        Nat.succ_mul, Nat.add_assoc]
      rfl
    · rfl
  case stop =>
    dsimp only [zeroRound]
    rw [if_neg (Nat.lt_irrefl _)]
    rfl

lemma dataPageCount_eq (hdata : r.rawPointer ≠ 0 ∨ r.isHeader = true) :
    (alignUp r.dataSize pageSize32).toNat = r.dataPageCount * pageSize := by
  rw [dataPageCount, if_pos hdata]
  exact toNat_alignUp_pageSize _

lemma fillChecked_eq (hpages : pages.size ≤ 2 ^ 20) :
    r.fillChecked file fileAlignment pages = .ok (r.fill file fileAlignment pages) := by
  have hpage : pageSize ≠ 0 := by decide
  have hsize : r.size.toNat = r.pageCount * pageSize := toNat_alignUp_pageSize _
  have hlt : r.pageCount * pageSize < 2 ^ 32 := hsize ▸ r.size.toNat_lt
  have hle := r.dataPageCount_le
  rw [fillChecked, dataEndChecked_eq, ok_bind, div_eq hpage, ok_bind]
  by_cases hacc : r.protection = .noAccess
  · rw [if_pos hacc, fill, if_pos (.inl hacc)]
    rfl
  · rw [if_neg hacc, fill_eq hacc, hsize, Nat.mul_div_cancel _ (Nat.pos_of_ne_zero hpage)]
    by_cases hdata : r.rawPointer ≠ 0 ∨ r.isHeader = true
    · have hfront := loop_dataRound (r := r) file fileAlignment hpages
        (Nat.le_refl _) (lt_of_le_of_lt (Nat.mul_le_mul_right _ hle) hlt)
      rw [if_pos hdata, dataPageCount_eq hdata]
      dsimp only
      rw [Nat.mul_div_cancel _ (Nat.pos_of_ne_zero hpage)]
      refine Eq.trans (congrArg (· >>= _) hfront) ?_
      by_cases hroom : r.HasRoom pages r.dataPageCount
      · rw [if_pos hroom]
        exact loop_zeroRound file fileAlignment hpages (Nat.le_refl _) hle hroom hlt
      · have hnone : ¬ r.HasRoom pages r.pageCount := fun h => hroom <| by
          rcases h with h | h
          · exact .inl (by omega)
          · exact .inr (by omega)
        rw [if_neg hroom, if_neg hnone]
        rfl
    · have hzero : r.dataPageCount = 0 := if_neg hdata
      have hrest := loop_zeroRound (r := r) file fileAlignment hpages
        (d := 0) hzero.le (Nat.zero_le _) (.inl rfl) hlt
      rw [if_neg hdata]
      rwa [Nat.zero_mul] at hrest

lemma placeChecked_eq (h : OptionalHeader) (hpages : pages.size ≤ 2 ^ 20) :
    r.placeChecked file h pages = .ok (r.place file h pages) := by
  rw [placeChecked, fillChecked_eq hpages, ok_bind, place]
  cases r.fill file h.fileAlignment pages <;> rfl

end Region

namespace Image

/-! ### Sections -/

/-- The region of a section. -/
def regionChecked (s : SectionHeader) : Checked Region := do
  let protection ← PageProtection.ofCharacteristicsChecked s.characteristics
  return { Region.ofSection s with protection := protection }

/-- One round of the loop that places the sections. -/
def placeRound (file : ByteArray) (h : OptionalHeader) (sections : List SectionHeader)
    (s : Array Page × ℕ) : Checked (Round (Array Page × ℕ) (Option (Array Page))) := do
  let (pages, index) := s
  if index < sections.length then
    let region ← regionChecked (← get sections index)
    match ← region.placeChecked file h pages with
    | some (pages, _) => return .next (pages, index + 1)
    | none => return .done none
  else return .done (some pages)

/-- Places sections one after the other. -/
def placeSectionsChecked (file : ByteArray) (h : OptionalHeader) (pages : Array Page)
    (sections : List SectionHeader) : Checked (Option (Array Page)) :=
  loop (placeRound file h sections) (sections.length + 1) (pages, 0)

lemma size_of_place {r : Region} {file : ByteArray} {h : OptionalHeader} {pages table : Array Page}
    {n : UInt32} (hplace : r.place file h pages = some (table, n)) : table.size = pages.size :=
  (Region.getElem?_fill (Region.place_eq_some_iff.mp hplace).1).1

lemma regionChecked_eq (s : SectionHeader) : regionChecked s = .ok (.ofSection s) := by
  rw [regionChecked, PageProtection.ofCharacteristicsChecked_eq]
  rfl

lemma placeSectionsChecked_eq (file : ByteArray) (h : OptionalHeader) {pages : Array Page}
    (hpages : pages.size ≤ 2 ^ 20) (sections : List SectionHeader) :
    placeSectionsChecked file h pages sections = .ok (placeSections file h pages sections) := by
  refine loop_eq (fun s : Array Page × ℕ => s.1.size ≤ 2 ^ 20) (fun s => sections.length - s.2)
    (fun s => placeSections file h s.1 (sections.drop s.2)) ?_ hpages
    (Nat.lt_succ_of_le (Nat.sub_le _ _))
  rintro ⟨pages, index⟩ hpages
  dsimp only [placeRound]
  by_cases hin : index < sections.length
  · rw [if_pos hin, get_eq (List.getElem?_eq_getElem hin), ok_bind, regionChecked_eq, ok_bind,
      Region.placeChecked_eq h hpages, ok_bind, List.drop_eq_getElem_cons hin, placeSections]
    cases hplace : (Region.ofSection sections[index]).place file h pages with
    | none => exact .inl rfl
    | some placed =>
        obtain ⟨table, next⟩ := placed
        have hsize := size_of_place hplace
        refine .inr ⟨(table, index + 1), rfl, ?_, ?_, rfl⟩
        · exact hsize.trans_le hpages
        · dsimp only
          omega
  · rw [if_neg hin, List.drop_eq_nil_of_le (Nat.le_of_not_lt hin)]
    exact .inl rfl

/-! ### Images -/

/-- The pages of a flat image. -/
def flatPagesChecked (image : Image) (file : ByteArray) : Checked (Option (Array Page)) := do
  let count ← divUp 32 image.flatSize.toNat pageSize
  let protection ← PageProtection.ofFlagsChecked true true true false
  let region := { Region.ofHeaders image.flatSize with protection := protection }
  return (← region.placeChecked file image.optional (Array.replicate count .inaccessible)).map (·.1)

/-- Whether the section table leaves the first page. -/
def tableLeavesFirstPageChecked (image : Image) : Checked Bool := do
  let start := image.dos.ntOffset
  let upToTable ← add 32 optionalStart image.file.optionalSize.toNat
  let table ← mul 32 (← add 32 image.file.sectionCount.toNat 1) SectionHeader.size
  return decide (start + UInt32.ofNat upToTable + UInt32.ofNat table > pageSize32 - start)

/-- The size of the headers in memory. -/
def mappedHeaderSizeChecked (image : Image) : Checked UInt32 := do
  let h := image.optional
  if image.config.extendsHeaderPage then
    if ← image.tableLeavesFirstPageChecked then return alignUp h.sizeOfHeaders h.sectionAlignment
    else return h.sizeOfHeaders
  else return h.sizeOfHeaders

/-- Whether the headers alone, which end at `headerEnd`, make up the image. -/
def headersSpanImageChecked (image : Image) (headerEnd : UInt32) : Checked Bool := do
  let h := image.optional
  if headerEnd > h.sizeOfImage then return false
  else return decide ((← sub32 h.sizeOfImage headerEnd) ≤ h.sectionAlignment)

/-- The pages of a section-granular image. -/
def granularPagesChecked (image : Image) (file : ByteArray) :
    Checked (Image × Except Fault (Array Page)) := do
  let h := image.optional
  let pages := Array.replicate (← div image.alignedSize.toNat pageSize) .inaccessible
  match ← (Region.ofHeaders (← image.mappedHeaderSizeChecked)).placeChecked file h pages with
  | none => return (image, .error .invalidFile)
  | some (pages, headerEnd) =>
    if image.sections.isEmpty then
      if ← image.headersSpanImageChecked headerEnd then return (image, .ok pages)
      else return (image.record .sizeOfImageInvalid, .ok pages)
    else
      match ← placeSectionsChecked file h pages image.sections with
      | some pages => return (image, .ok pages)
      | none => return (image.record .sectionAddressInvalid, .ok #[])

/-- The pages of an image. -/
def buildPagesChecked (image : Image) (file : ByteArray) :
    Checked (Image × Except Fault (Array Page)) := do
  if image.isFlat then
    match ← image.flatPagesChecked file with
    | some pages => return (image, .ok pages)
    | none => return (image, .error .invalidFile)
  else image.granularPagesChecked file

lemma toNat_div_pageSize_lt (n : UInt32) : n.toNat / pageSize < 2 ^ 20 := by
  have hn := n.toNat_lt
  rw [show pageSize = 4096 from rfl]
  omega

lemma toNat_pagesFor_le (n : UInt32) : (pagesFor n).toNat ≤ 2 ^ 20 := by
  have hn := n.toNat_lt
  rw [toNat_pagesFor, show pageSize = 4096 from rfl]
  omega

lemma flatPagesChecked_eq (image : Image) (file : ByteArray) :
    image.flatPagesChecked file = .ok (image.flatPages file) := by
  have hlt := toNat_div_pageSize_lt image.flatSize
  rw [flatPagesChecked, divUp_eq (by decide) (by omega), ok_bind, ← toNat_pagesFor,
    PageProtection.ofFlagsChecked_eq, ok_bind]
  dsimp only
  rw [Region.placeChecked_eq _ (by rw [Array.size_replicate]; exact toNat_pagesFor_le _), ok_bind]
  rfl

lemma tableLeavesFirstPageChecked_eq (image : Image) :
    image.tableLeavesFirstPageChecked = .ok image.tableLeavesFirstPage := by
  have hopt := image.file.optionalSize.toNat_lt
  have hcount := image.file.sectionCount.toNat_lt
  have hstart : optionalStart = 24 := rfl
  have hsection : SectionHeader.size = 40 := rfl
  rw [tableLeavesFirstPageChecked, add_eq (by omega), ok_bind, add_eq (by omega), ok_bind, hsection,
    mul_eq (by omega), ok_bind]
  rfl

lemma mappedHeaderSizeChecked_eq (image : Image) :
    image.mappedHeaderSizeChecked = .ok image.mappedHeaderSize := by
  rw [mappedHeaderSizeChecked, mappedHeaderSize, tableLeavesFirstPageChecked_eq]
  cases image.config.extendsHeaderPage <;> cases image.tableLeavesFirstPage <;> rfl

lemma headersSpanImageChecked_eq (image : Image) (headerEnd : UInt32) :
    image.headersSpanImageChecked headerEnd = .ok (image.headersSpanImage headerEnd) := by
  rw [headersSpanImageChecked, headersSpanImage]
  by_cases hle : headerEnd ≤ image.optional.sizeOfImage
  · rw [if_neg (UInt32.not_lt.mpr hle), sub32_eq hle, ok_bind, decide_eq_true hle, Bool.true_and]
    rfl
  · rw [if_pos (UInt32.not_le.mp hle), decide_eq_false hle, Bool.false_and]
    rfl

lemma granularPagesChecked_eq (image : Image) (file : ByteArray) :
    image.granularPagesChecked file = .ok (image.granularPages file) := by
  have hcount := (toNat_div_pageSize_lt image.alignedSize).le
  rw [granularPagesChecked, granularPages]
  dsimp only
  rw [div_eq (by decide), ok_bind, mappedHeaderSizeChecked_eq, ok_bind,
    Region.placeChecked_eq _ (by rw [Array.size_replicate]; exact hcount), ok_bind]
  cases hplace : (Region.ofHeaders image.mappedHeaderSize).place file image.optional
      (Array.replicate (image.alignedSize.toNat / pageSize) .inaccessible) with
  | none => rfl
  | some placed =>
      obtain ⟨pages, headerEnd⟩ := placed
      have hpages := size_of_place hplace
      rw [Array.size_replicate] at hpages
      dsimp only
      rw [headersSpanImageChecked_eq, placeSectionsChecked_eq _ _ (hpages.trans_le hcount)]
      cases image.sections.isEmpty with
      | true => cases image.headersSpanImage headerEnd <;> rfl
      | false => cases placeSections file image.optional pages image.sections <;> rfl

/-- **Images are mapped** without a stop, whatever their headers say. -/
theorem buildPagesChecked_eq (image : Image) (file : ByteArray) :
    image.buildPagesChecked file = .ok (image.buildPages file) := by
  rw [buildPagesChecked, buildPages, flatPagesChecked_eq, granularPagesChecked_eq]
  cases image.isFlat with
  | true => cases image.flatPages file <;> rfl
  | false => rfl

/-! ### The size of the table -/

/-- A load builds no more pages than addresses reach. -/
lemma size_of_buildPages {image built : Image} {file : ByteArray} {pages : Array Page}
    (h : image.buildPages file = (built, .ok pages)) : pages.size ≤ 2 ^ 20 := by
  have hcount := (toNat_div_pageSize_lt image.alignedSize).le
  unfold buildPages at h
  split_ifs at h
  · cases hflat : image.flatPages file with
    | none =>
        rw [hflat] at h
        cases (Prod.mk.inj h).2
    | some table =>
        rw [hflat] at h
        cases (Prod.mk.inj h).2
        obtain ⟨⟨t, n⟩, hplace, rfl⟩ := Option.map_eq_some_iff.mp hflat
        rw [size_of_place hplace, Array.size_replicate]
        exact toNat_pagesFor_le _
  · unfold granularPages at h
    dsimp only at h
    split at h
    · cases (Prod.mk.inj h).2
    · next t headerEnd hplace =>
      have ht := size_of_place hplace
      rw [Array.size_replicate] at ht
      split_ifs at h
      · cases (Prod.mk.inj h).2
        exact ht.trans_le hcount
      · cases (Prod.mk.inj h).2
        exact ht.trans_le hcount
      · split at h
        · next table hsections =>
          cases (Prod.mk.inj h).2
          rw [(getElem?_placeSections_of_not_covers hsections).1, ht]
          exact hcount
        · cases (Prod.mk.inj h).2
          exact Nat.zero_le _

end Image

end PeImage
