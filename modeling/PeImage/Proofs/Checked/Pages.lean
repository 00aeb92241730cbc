/-
Access to a table of pages in machine words.

* `Page.readChecked`, `Page.writeChecked`, `Page.ofBytesChecked`: one page;
* `eachChunk`, `eachChunk_eq`: the walk over the parts of the pages that a range covers;
* `readPages_eq`, `writePages_eq`, `stringPages_eq`: reading, writing and looking for the end of a
  string go through, and give what they give in numbers without a bound.

The three walks have one invariant: what is moved so far is the distance from the start to the
cursor. It bounds the buffer on the other side, and whole pages bound the page.
-/
import PeImage.Proofs.Checked.Words
import PeImage.Proofs.FlatMemory

namespace PeImage

open Checked

/-! ### Zeros -/

/-- Where the first zero is depends only on the bytes that are looked at. -/
lemma zeroFrom_congr {a b : ByteArray} {i j n : ℕ}
    (h : ∀ k < n, byteAt a (i + k) = byteAt b (j + k)) :
    zeroFrom a i n + j = zeroFrom b j n + i := by
  induction n generalizing i j with
  | zero => exact Nat.add_comm i j
  | succ n ih =>
      have hrest : zeroFrom a (i + 1) n + (j + 1) = zeroFrom b (j + 1) n + (i + 1) :=
        ih fun k hk => by
          have hk' := h (k + 1) (by omega)
          rwa [← Nat.add_assoc, ← Nat.add_assoc, Nat.add_right_comm i, Nat.add_right_comm j] at hk'
      rw [zeroFrom, zeroFrom, show byteAt a i = byteAt b j from h 0 (Nat.succ_pos n)]
      by_cases hz : byteAt b j = 0
      · rw [if_pos hz, if_pos hz, Nat.add_comm]
      · rw [if_neg hz, if_neg hz]
        omega

/-- The first zero of a window is that of the buffer. -/
lemma zeroFrom_window (b : ByteArray) (off : ℕ) {n limit : ℕ} (hn : n ≤ limit) :
    zeroFrom (window b off limit) 0 n = zeroFrom b off n - off := by
  have h := zeroFrom_congr (a := window b off limit) (b := b) (i := 0) (j := off) (n := n)
    fun k hk => by rw [Nat.zero_add, byteAt_window, if_pos (Nat.lt_of_lt_of_le hk hn)]
  omega

/-! ### One page -/

namespace Page

variable {p : Page} {off n : ℕ} {src : ByteArray}

/-- The `n` bytes from position `off` of a page on. -/
def readChecked (p : Page) (off n : ℕ) : Checked ByteArray :=
  match p with
  | .data bytes => do slice bytes off (← add 64 off n)
  | .zero | .inaccessible => return zeros n

/-- The page with `src` written at position `off`. -/
def writeChecked (p : Page) (off : ℕ) (src : ByteArray) : Checked Page :=
  match p with
  | .data bytes => do return .data (← replace bytes off (← add 64 off src.size) src)
  | .zero => do return .data (← replace (zeros pageSize) off (← add 64 off src.size) src)
  | .inaccessible => return .inaccessible

/-- A page that starts with the given bytes, of which as many are taken as a page holds. -/
def ofBytesChecked (bytes : ByteArray) : Checked Page := do
  let n := min bytes.size pageSize
  return .data (← replace (zeros pageSize) 0 n (← slice bytes 0 n))

lemma readChecked_eq (hp : p.WellFormed) (h : off + n ≤ pageSize) :
    p.readChecked off n = .ok (p.read off n) := by
  simp only [pageSize] at h
  cases p with
  | data bytes =>
      have hs : bytes.size = pageSize := hp
      simp only [pageSize] at hs
      rw [readChecked, add_eq (by omega), ok_bind, slice_eq (by omega) (by omega)]
      rfl
  | zero | inaccessible => rfl

lemma writeChecked_eq (hp : p.WellFormed) (h : off + src.size ≤ pageSize) :
    p.writeChecked off src = .ok (p.write off src) := by
  simp only [pageSize] at h
  cases p with
  | data bytes =>
      have hs : bytes.size = pageSize := hp
      simp only [pageSize] at hs
      rw [writeChecked, add_eq (by omega), ok_bind, replace_eq (by omega) (by omega) (by omega)]
      rfl
  | zero =>
      have hs : (zeros pageSize).size = 4096 := size_zeros _
      rw [writeChecked, add_eq (by omega), ok_bind, replace_eq (by omega) (by omega) (by omega)]
      rfl
  | inaccessible => rfl

/-- Writing to the front of a blank buffer is filling up with zeros. -/
lemma overwrite_zeros {size : ℕ} (h : src.size ≤ size) :
    overwrite (zeros size) 0 src = src ++ zeros (size - src.size) := by
  have hsize : (overwrite (zeros size) 0 src).size = size := by
    rw [size_overwrite (by rw [size_zeros]; omega), size_zeros]
  refine eq_of_byteAt_eq ?_ fun i hi => ?_
  · rw [hsize, ByteArray.size_append, size_zeros]
    omega
  · rw [byteAt_overwrite (by rw [size_zeros]; omega), byteAt_append, byteAt_zeros, byteAt_zeros]
    by_cases hin : i < src.size
    · rw [if_pos (by omega), if_pos hin, Nat.sub_zero]
    · rw [if_neg (by omega), if_neg hin]

lemma ofBytesChecked_eq (bytes : ByteArray) : ofBytesChecked bytes = .ok (.ofBytes bytes) := by
  have hpart : bytes.extract 0 (min bytes.size pageSize) = window bytes 0 pageSize := by
    rw [window_eq_extract_min, Nat.zero_add, Nat.min_comm]
  have hsize : (window bytes 0 pageSize).size = min pageSize bytes.size := size_window _ _ _
  dsimp only [ofBytesChecked]
  rw [slice_eq (Nat.zero_le _) (Nat.min_le_left _ _), ok_bind, hpart,
    replace_eq (Nat.zero_le _) (by rw [size_zeros]; omega) (by omega),
    overwrite_zeros (by omega), hsize, ofBytes,
    show pageSize - min pageSize bytes.size = pageSize - bytes.size by omega]
  rfl

end Page

/-! ### The walk -/

namespace Memory

variable {σ : Type}

/-- Calls `f` with page, position in it and length of each part of a page between `start` and
`stop`, until it is done. -/
def eachChunk (f : ℕ → ℕ → ℕ → σ → Checked (Round σ σ)) (start stop : ℕ) (s : σ) : Checked σ :=
  loop (fun (cursor, s) => do
    if cursor < stop then
      let off ← mod cursor pageSize
      let n := min (← sub pageSize off) (← sub stop cursor)
      match ← f (← div cursor pageSize) off n s with
      | .next s => return .next (← add 64 cursor n, s)
      | .done s => return .done s
    else return .done s) (stop - start + 1) (start, s)

/-- **The walk goes through** if `f` does on every part, and keeps the invariant and the result to
come. -/
theorem eachChunk_eq (Inv : ℕ → σ → Prop) (result : ℕ → σ → σ)
    {f : ℕ → ℕ → ℕ → σ → Checked (Round σ σ)} {start stop : ℕ} {s : σ} (hstop : stop < 2 ^ 64)
    (hend : ∀ cursor s, stop ≤ cursor → Inv cursor s → result cursor s = s)
    (hpart : ∀ cursor s, cursor < stop → Inv cursor s →
      f (cursor / pageSize) (cursor % pageSize) (chunk cursor stop) s =
          .ok (.done (result cursor s)) ∨
        ∃ t, f (cursor / pageSize) (cursor % pageSize) (chunk cursor stop) s = .ok (.next t) ∧
          Inv (cursor + chunk cursor stop) t ∧
          result (cursor + chunk cursor stop) t = result cursor s)
    (hs : Inv start s) : eachChunk f start stop s = .ok (result start s) := by
  refine loop_eq (fun p : ℕ × σ => Inv p.1 p.2) (fun p => stop - p.1) (fun p => result p.1 p.2)
    ?_ hs (Nat.lt_succ_self _)
  rintro ⟨cursor, s⟩ hinv
  dsimp only at hinv ⊢
  by_cases hc : cursor < stop
  · have hpage : pageSize ≠ 0 := by decide
    have hmod := Nat.mod_lt cursor (Nat.pos_of_ne_zero hpage)
    have hadd : cursor + chunk cursor stop < 2 ^ 64 := by
      have := chunk_le cursor stop
      omega
    simp only [if_pos hc, mod_eq hpage, sub_eq hmod.le, sub_eq hc.le, div_eq hpage, ok_bind]
    rcases hpart cursor s hc hinv with hdone | ⟨t, hnext, hinv', hresult⟩
    · refine .inl ?_
      rw [chunk] at hdone
      rw [hdone]
      rfl
    · refine .inr ⟨(cursor + chunk cursor stop, t), ?_, hinv', ?_, hresult⟩
      · rw [chunk] at hnext hadd ⊢
        rw [hnext]
        simp only [ok_bind, add_eq hadd, pure_eq_ok]
      · exact sub_chunk_lt hc
  · refine .inl ?_
    rw [if_neg hc, pure_eq_ok, hend cursor s (Nat.le_of_not_lt hc) hinv]

/-! ### Reading -/

variable {m : Memory} {start stop n : ℕ}

/-- Reads the range from `start` to `stop` into a buffer of `n` bytes: what was read. -/
def readPages (pages : Array Page) (n start stop : ℕ) : Checked ByteArray :=
  eachChunk (fun i off count acc =>
    match pages[i]? with
    | none => return .done acc
    | some page => do
      within acc.size (← add 64 acc.size count) n
      return .next (acc ++ (← page.readChecked off count))) start stop .empty

lemma readPages_eq (hm : m.WellFormed) (hstop : stop ≤ start + n) (hn : start + n < 2 ^ 64) :
    readPages m.pages n start stop = .ok (m.readUpTo start stop .empty) := by
  refine eachChunk_eq (fun cursor (acc : ByteArray) => start ≤ cursor ∧ acc.size = cursor - start)
    (fun cursor acc => m.readUpTo cursor stop acc) (by omega) ?_ ?_
    ⟨Nat.le_refl _, by simp⟩
  · intro cursor acc hc _
    rw [readUpTo, dif_neg (Nat.not_lt.mpr hc)]
  · rintro cursor acc hc ⟨hstart, hsize⟩
    rw [readUpTo, dif_pos hc]
    have hchunk := chunk_le cursor stop
    cases hpage : m.pages[cursor / pageSize]? with
    | none => exact .inl rfl
    | some page =>
        have hfits := mod_add_chunk_le cursor stop
        refine .inr ⟨_, ?_, ⟨?_, ?_⟩, rfl⟩
        · dsimp only
          rw [add_eq (by omega), ok_bind, within_eq (by omega) (by omega), ok_bind,
            Page.readChecked_eq (hm.page hpage) hfits]
          rfl
        · omega
        · rw [ByteArray.size_append, Page.size_read (hm.page hpage) hfits]
          omega

/-! ### Writing -/

/-- Writes the next `count` bytes of the buffer to position `off` of page `i`, behind those that are
written already. -/
def writeChunk (src : ByteArray) (i off count : ℕ) (s : Array Page × ℕ) :
    Checked (Round (Array Page × ℕ) (Array Page × ℕ)) :=
  match s.1[i]? with
  | none => return .done s
  | some page => do
    let written ← add 64 s.2 count
    let page ← page.writeChecked off (← slice src s.2 written)
    return .next (s.1.setIfInBounds i page, written)

/-- Writes the buffer to the range from `start` to `stop`: the pages, and the number of bytes
written. -/
def writePages (pages : Array Page) (src : ByteArray) (start stop : ℕ) :
    Checked (Array Page × ℕ) :=
  eachChunk (writeChunk src) start stop (pages, 0)

/-- Setting an element to a function of itself is modifying it. -/
lemma setIfInBounds_eq_modify {pages : Array Page} {i : ℕ} {page : Page}
    (h : pages[i]? = some page) (f : Page → Page) :
    pages.setIfInBounds i (f page) = pages.modify i f := by
  refine Array.ext_getElem? fun j => ?_
  rw [Array.getElem?_setIfInBounds, Array.getElem?_modify]
  by_cases hij : i = j
  · subst hij
    rw [if_pos rfl, if_pos (Array.getElem?_eq_some_iff.mp h).1, if_pos rfl, h]
    rfl
  · rw [if_neg hij, if_neg hij]

lemma writePages_eq (hm : m.WellFormed) {src : ByteArray} (hstop : stop ≤ start + src.size)
    (hn : start + src.size < 2 ^ 64) :
    writePages m.pages src start stop =
      .ok ((writeUpTo m.pages src start start stop).1,
        (writeUpTo m.pages src start start stop).2 - start) := by
  refine eachChunk_eq
    (fun cursor (s : Array Page × ℕ) => start ≤ cursor ∧ s.2 = cursor - start ∧
      WellFormed ⟨s.1, m.limit⟩)
    (fun cursor s => ((writeUpTo s.1 src start cursor stop).1,
      (writeUpTo s.1 src start cursor stop).2 - start)) (s := (m.pages, 0)) (by omega) ?_ ?_
    ⟨Nat.le_refl _, by simp, hm⟩
  · rintro cursor ⟨pages, reached⟩ hc ⟨-, hreached, -⟩
    rw [writeUpTo, dif_neg (Nat.not_lt.mpr hc)]
    exact Prod.ext rfl hreached.symm
  · rintro cursor ⟨pages, reached⟩ hc ⟨hstart, hreached, hpages⟩
    dsimp only at hreached hpages ⊢
    rw [writeUpTo, dif_pos hc]
    have hchunk := chunk_le cursor stop
    cases hpage : pages[cursor / pageSize]? with
    | none =>
        rw [if_neg (Nat.not_lt.mpr (Array.getElem?_eq_none_iff.mp hpage)), writeChunk, hpage,
          hreached]
        exact .inl rfl
    | some page =>
        have hwindow : (window src (cursor - start) (chunk cursor stop)).size =
            chunk cursor stop := size_window_chunk hstart hstop
        have hfits : cursor % pageSize + (window src (cursor - start) (chunk cursor stop)).size ≤
            pageSize := by
          rw [hwindow]
          exact mod_add_chunk_le cursor stop
        rw [if_pos (Array.getElem?_eq_some_iff.mp hpage).1]
        refine .inr ⟨(pages.modify (cursor / pageSize) (·.write (cursor % pageSize)
          (window src (cursor - start) (chunk cursor stop))),
          cursor - start + chunk cursor stop), ?_,
          ⟨?_, ?_, hpages.modify (cursor / pageSize) hfits⟩, rfl⟩
        · rw [writeChunk, hpage, hreached]
          dsimp only
          rw [add_eq (by omega), ok_bind, slice_eq (by omega) (by omega), ok_bind,
            show src.extract (cursor - start) (cursor - start + chunk cursor stop) =
              window src (cursor - start) (chunk cursor stop) from rfl,
            Page.writeChecked_eq (hpages.page hpage) hfits, ok_bind,
            ← setIfInBounds_eq_modify hpage]
          rfl
        · omega
        · dsimp only
          omega

/-! ### Strings -/

/-- The length of the string in the range from `start` to `stop`. -/
def stringPages (pages : Array Page) (start stop : ℕ) : Checked ℕ :=
  eachChunk (fun i off count length =>
    match pages[i]?.bind Page.bytes? with
    | none => return .done length
    | some bytes => do
      let part ← slice bytes off (← add 64 off count)
      let position := zeroFrom part 0 count
      let length ← add 64 length position
      return if position < count then .done length else .next length) start stop 0

lemma stringPages_eq (hm : m.WellFormed) (hstop : stop < 2 ^ 64) :
    stringPages m.pages start stop = .ok (m.stringEnd start stop - start) := by
  refine eachChunk_eq (fun cursor (length : ℕ) => start ≤ cursor ∧ length = cursor - start)
    (fun cursor _ => m.stringEnd cursor stop - start) hstop ?_ ?_
    ⟨Nat.le_refl _, by simp⟩
  · rintro cursor length hc ⟨-, rfl⟩
    rw [stringEnd, dif_neg (Nat.not_lt.mpr hc)]
  · rintro cursor length hc ⟨hstart, rfl⟩
    rw [stringEnd, dif_pos hc]
    have hchunk := chunk_le cursor stop
    have hfits := mod_add_chunk_le cursor stop
    cases hbytes : m.pages[cursor / pageSize]?.bind Page.bytes? with
    | none => exact .inl rfl
    | some bytes =>
        obtain ⟨page, hpage, hown⟩ := Option.bind_eq_some_iff.mp hbytes
        have hsize : bytes.size = pageSize := by
          cases page with
          | data own =>
              cases hown
              exact hm.page hpage
          | zero | inaccessible => cases hown
        have hle := le_zeroFrom bytes (cursor % pageSize) (chunk cursor stop)
        have hge := zeroFrom_le bytes (cursor % pageSize) (chunk cursor stop)
        have hslice : slice bytes (cursor % pageSize) (cursor % pageSize + chunk cursor stop) =
            .ok (window bytes (cursor % pageSize) (chunk cursor stop)) :=
          slice_eq (by omega) (by omega)
        dsimp only
        rw [add_eq (by simp only [pageSize] at hfits ⊢; omega), ok_bind, hslice, ok_bind,
          zeroFrom_window _ _ (Nat.le_refl _), add_eq (by omega), ok_bind]
        by_cases hfound : zeroFrom bytes (cursor % pageSize) (chunk cursor stop) <
            cursor % pageSize + chunk cursor stop
        · refine .inl ?_
          rw [if_pos (by omega), if_pos hfound, pure_eq_ok]
          congr 2
          omega
        · refine .inr ⟨_, ?_, ⟨?_, rfl⟩, ?_⟩
          · rw [if_neg (by omega), pure_eq_ok]
            congr 2
            omega
          · omega
          · rw [if_neg hfound]

end Memory

end PeImage
