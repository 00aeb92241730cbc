/-
Memory as one flat range of bytes.

What an access does is said on `Memory.flat` alone, without pages.

* `Memory.WellFormed`: every page with bytes of its own has as many as a page holds.
* `Memory.reach`: the first address that no access gets to, the nearer of the limit and the end of
  the table.
* `size_read`, `byteAt_read`: a read moves the bytes of the view, up to the reach.
* `size_toByteArray`, `byteAt_toByteArray`: all pages, one behind the other, are the view up to the
  end of the table.

The first two are the case of a whole access of a statement about the loop, in which the part that
is read already is a variable.
-/
import PeImage.Memory

namespace PeImage

namespace Memory

/-- Every page with bytes of its own has as many as a page holds. -/
def WellFormed (m : Memory) : Prop := ∀ page ∈ m.pages, page.WellFormed

/-- The first address behind the table. -/
def tableEnd (m : Memory) : Nat := pageSize * m.pages.size

/-- The first address that no access gets to. -/
def reach (m : Memory) : Nat := min m.limit m.tableEnd

/-- Whether the page of an address is committed. -/
def isAccessibleAt (m : Memory) (a : Nat) : Bool :=
  match m.pages[a / pageSize]? with
  | some page => page.isAccessible
  | none => false

theorem WellFormed.page {m : Memory} (hm : m.WellFormed) {i : Nat} {page : Page}
    (h : m.pages[i]? = some page) : page.WellFormed :=
  hm page (Array.mem_of_getElem? h)

/-- An address has a page exactly when it lies in front of the end of the table. -/
theorem div_lt_size_iff (m : Memory) (a : Nat) :
    a / pageSize < m.pages.size ↔ a < m.tableEnd := by
  simp only [tableEnd, pageSize]
  omega

/-- The view within a page. -/
theorem flat_of_page {m : Memory} {a : Nat} {page : Page}
    (h : m.pages[a / pageSize]? = some page) : m.flat a = page.byte (a % pageSize) := by
  rw [flat, h]

theorem flat_eq_zero {m : Memory} {a : Nat} (h : m.tableEnd ≤ a) : m.flat a = 0 := by
  have hn : ¬ a / pageSize < m.pages.size := by
    rw [div_lt_size_iff]
    omega
  rw [flat, Array.getElem?_eq_none (by omega)]

theorem isAccessibleAt_eq_false {m : Memory} {a : Nat} (h : m.tableEnd ≤ a) :
    m.isAccessibleAt a = false := by
  have hn : ¬ a / pageSize < m.pages.size := by
    rw [div_lt_size_iff]
    omega
  rw [isAccessibleAt, Array.getElem?_eq_none (by omega)]

/-! ### One chunk -/

theorem chunk_le (cursor stop : Nat) : chunk cursor stop ≤ stop - cursor := Nat.min_le_right _ _

/-- A chunk does not leave its page. -/
theorem mod_add_chunk_le (cursor stop : Nat) :
    cursor % pageSize + chunk cursor stop ≤ pageSize := by
  simp only [chunk, pageSize]
  omega

/-- The addresses of a chunk share their page, and lie in it one behind the other. -/
theorem div_add {cursor k : Nat} (h : cursor % pageSize + k < pageSize) :
    (cursor + k) / pageSize = cursor / pageSize ∧
      (cursor + k) % pageSize = cursor % pageSize + k := by
  simp only [pageSize] at *
  omega

/-- A chunk in front of the end of the table stays in front of it. -/
theorem add_chunk_le {m : Memory} {cursor stop : Nat} (h : cursor < m.tableEnd) :
    cursor + chunk cursor stop ≤ m.tableEnd := by
  simp only [tableEnd, chunk, pageSize] at *
  omega

/-! ### Reading -/

theorem size_readUpTo {m : Memory} (hm : m.WellFormed) (cursor stop : Nat) (acc : ByteArray) :
    (m.readUpTo cursor stop acc).size = acc.size + (min stop m.tableEnd - cursor) := by
  fun_induction readUpTo m cursor stop acc with
  | case1 cursor acc h hnone =>
    have hn : ¬ cursor / pageSize < m.pages.size := by
      rw [Array.getElem?_eq_none_iff] at hnone
      omega
    rw [div_lt_size_iff] at hn
    omega
  | case2 cursor acc h page hpage n ih =>
    have hlt : cursor < m.tableEnd := by
      rw [← div_lt_size_iff]
      exact (Array.getElem?_eq_some_iff.1 hpage).1
    have hle : cursor + n ≤ m.tableEnd := add_chunk_le hlt
    have hn : n ≤ stop - cursor := chunk_le cursor stop
    rw [ih, ByteArray.size_append, Page.size_read (hm.page hpage) (mod_add_chunk_le cursor stop)]
    omega
  | case3 cursor acc h => omega

/-- What is read so far stays, and the bytes of the view follow. -/
theorem byteAt_readUpTo {m : Memory} (hm : m.WellFormed) (cursor stop : Nat) (acc : ByteArray)
    (i : Nat) (hi : i < acc.size + (min stop m.tableEnd - cursor)) :
    byteAt (m.readUpTo cursor stop acc) i =
      if i < acc.size then byteAt acc i else m.flat (cursor + (i - acc.size)) := by
  fun_induction readUpTo m cursor stop acc with
  | case1 cursor acc h hnone =>
    have hn : ¬ cursor / pageSize < m.pages.size := by
      rw [Array.getElem?_eq_none_iff] at hnone
      omega
    rw [div_lt_size_iff] at hn
    rw [if_pos (by omega)]
  | case2 cursor acc h page hpage n ih =>
    have hlt : cursor < m.tableEnd := by
      rw [← div_lt_size_iff]
      exact (Array.getElem?_eq_some_iff.1 hpage).1
    have hle : cursor + n ≤ m.tableEnd := add_chunk_le hlt
    have hn : n ≤ stop - cursor := chunk_le cursor stop
    have hsize : (page.read (cursor % pageSize) n).size = n :=
      Page.size_read (hm.page hpage) (mod_add_chunk_le cursor stop)
    rw [ByteArray.size_append, hsize] at ih
    rw [ih (by omega), byteAt_append]
    by_cases h1 : i < acc.size
    · rw [if_pos (by omega), if_pos h1, if_pos h1]
    · by_cases h2 : i < acc.size + n
      · have hmod := mod_add_chunk_le cursor stop
        obtain ⟨hd, hr⟩ := div_add (show cursor % pageSize + (i - acc.size) < pageSize by omega)
        rw [if_pos h2, if_neg h1, if_neg h1, Page.byteAt_read, if_pos (by omega),
          flat_of_page (by rw [hd]; exact hpage), hr]
      · rw [if_neg h2, if_neg h1]
        congr 1
        omega
  | case3 cursor acc h => rw [if_pos (by omega)]

/-- A read moves bytes up to the reach. -/
theorem size_read {m : Memory} (hm : m.WellFormed) (a n : Nat) :
    (m.read a n).size = min n (m.reach - a) := by
  rw [read, size_readUpTo hm, stop, reach, ByteArray.size_empty]
  omega

/-- The bytes that a read moves are those of the view. -/
theorem byteAt_read {m : Memory} (hm : m.WellFormed) {a n i : Nat} (hi : i < (m.read a n).size) :
    byteAt (m.read a n) i = m.flat (a + i) := by
  rw [read, size_readUpTo hm] at hi
  rw [read, byteAt_readUpTo hm _ _ _ _ hi, ByteArray.size_empty]
  simp

/-! ### The whole -/

/-- Every page takes up as many bytes as a page holds. -/
theorem WellFormed.size_page {m : Memory} (hm : m.WellFormed) :
    ∀ page ∈ m.pages.toList, page.toByteArray.size = pageSize := fun _ hpage =>
  Page.size_toByteArray (hm _ (Array.mem_toList_iff.1 hpage))

theorem size_toByteArray {m : Memory} (hm : m.WellFormed) : m.toByteArray.size = m.tableEnd := by
  rw [toByteArray, ← Array.foldl_toList, size_foldl_append hm.size_page, ByteArray.size_empty,
    Array.length_toList, Nat.zero_add, tableEnd]

/-- The bytes of all pages are those of the view. -/
theorem byteAt_toByteArray {m : Memory} (hm : m.WellFormed) (i : Nat) :
    byteAt m.toByteArray i = m.flat i := by
  by_cases hi : i < m.tableEnd
  · have hp : i / pageSize < m.pages.toList.length := (div_lt_size_iff m i).mpr hi
    have hpage := byteAt_foldl_append hm.size_page .empty hp (Nat.mod_lt i (by decide))
    rw [ByteArray.size_empty, Nat.zero_add, Nat.div_add_mod, Array.foldl_toList,
      Page.byteAt_toByteArray] at hpage
    have hget : m.pages[i / pageSize]? = some m.pages.toList[i / pageSize] := by
      rw [← Array.getElem?_toList, List.getElem?_eq_getElem hp]
    exact hpage.trans (flat_of_page hget).symm
  · have hend := Nat.le_of_not_lt hi
    rw [flat_eq_zero hend]
    exact byteAt_eq_zero (by rwa [size_toByteArray hm])

end Memory

end PeImage
