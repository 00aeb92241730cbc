/-
Zero-terminated strings in memory, seen as one flat range of bytes.

The scan looks at pages and ends at one without bytes of its own. On the view that is no special
case, because such a page is zero everywhere.

* `le_stringEnd`, `stringEnd_le`: the end lies within the range.
* `flat_ne_zero_of_lt_stringEnd`, `flat_stringEnd`: it is the first zero there.
-/
import PeImage.Memory.View

namespace PeImage

namespace Memory

/-- A page without bytes of its own is zero everywhere. -/
theorem byte_eq_zero_of_bytes? {page : Page} (h : page.bytes? = none) (i : Nat) :
    page.byte i = 0 := by
  cases page with
  | data bytes => exact absurd h (by simp [Page.bytes?])
  | zero | inaccessible => rfl

theorem le_stringEnd (m : Memory) (cursor stop : Nat) : cursor ≤ m.stringEnd cursor stop := by
  fun_induction stringEnd m cursor stop with
  | case1 | case4 => exact Nat.le_refl _
  | case2 cursor h bytes hbytes n off found hlt => exact Nat.le_add_right _ _
  | case3 cursor h bytes hbytes n off found hlt ih => omega

theorem stringEnd_le (m : Memory) {cursor stop : Nat} (h : cursor ≤ stop) :
    m.stringEnd cursor stop ≤ stop := by
  fun_induction stringEnd m cursor stop with
  | case1 | case4 => exact h
  | case2 cursor h' bytes hbytes n off found hlt =>
    have hn : n ≤ stop - cursor := chunk_le cursor stop
    omega
  | case3 cursor h' bytes hbytes n off found hlt ih =>
    have hn : n ≤ stop - cursor := chunk_le cursor stop
    exact ih (by omega)

/-- The bytes of the page of an address, where it has its own, are those of the view. -/
theorem flat_of_bytes {m : Memory} {a : Nat} {bytes : ByteArray}
    (h : m.pages[a / pageSize]?.bind Page.bytes? = some bytes) :
    m.flat a = byteAt bytes (a % pageSize) := by
  obtain ⟨page, hpage, hbytes⟩ := Option.bind_eq_some_iff.1 h
  rw [flat_of_page hpage]
  cases page with
  | data own =>
    obtain rfl : own = bytes := Option.some.inj hbytes
    rfl
  | zero | inaccessible => exact absurd hbytes (by simp [Page.bytes?])

/-- No zero stands in front of the end of a string. -/
theorem flat_ne_zero_of_lt_stringEnd {m : Memory} {cursor stop k : Nat} (hk : cursor ≤ k)
    (hlt : k < m.stringEnd cursor stop) : m.flat k ≠ 0 := by
  have within {cursor : Nat} {bytes : ByteArray} {i : Nat}
      (hbytes : m.pages[cursor / pageSize]?.bind Page.bytes? = some bytes) (hi : cursor ≤ i)
      (hn : i < cursor + chunk cursor stop) :
      m.flat i = byteAt bytes (cursor % pageSize + (i - cursor)) := by
    have hmod := mod_add_chunk_le cursor stop
    obtain ⟨hd, hr⟩ := div_add (show cursor % pageSize + (i - cursor) < pageSize by omega)
    rw [Nat.add_sub_cancel' hi] at hd hr
    rw [flat_of_bytes (by rw [hd]; exact hbytes), hr]
  fun_induction stringEnd m cursor stop with
  | case1 | case4 => omega
  | case2 cursor h bytes hbytes n off found hfound =>
    have hle : off ≤ found := le_zeroFrom bytes off n
    rw [within hbytes hk (by omega)]
    exact byteAt_ne_zero_of_lt_zeroFrom (by omega) (show off + (k - cursor) < found by omega)
  | case3 cursor h bytes hbytes n off found hfound ih =>
    by_cases hkn : cursor + n ≤ k
    · exact ih hkn hlt
    · have hle : found ≤ off + n := zeroFrom_le bytes off n
      rw [within hbytes hk (by omega)]
      exact byteAt_ne_zero_of_lt_zeroFrom (by omega) (show off + (k - cursor) < found by omega)

/-- A string that ends in front of the end of its range ends at a zero. -/
theorem flat_stringEnd {m : Memory} {cursor stop : Nat} (hlt : m.stringEnd cursor stop < stop) :
    m.flat (m.stringEnd cursor stop) = 0 := by
  fun_induction stringEnd m cursor stop with
  | case1 cursor h hnone =>
    rw [flat]
    split
    · next page hpage =>
      rw [hpage] at hnone
      exact byte_eq_zero_of_bytes? hnone _
    · rfl
  | case2 cursor h bytes hbytes n off found hfound =>
    have hle : off ≤ found := le_zeroFrom bytes off n
    have hmod := mod_add_chunk_le cursor stop
    obtain ⟨hd, hr⟩ := div_add (show cursor % pageSize + (found - off) < pageSize by omega)
    rw [flat_of_bytes (by rw [hd]; exact hbytes), hr,
      show cursor % pageSize + (found - off) = found by omega]
    exact byteAt_zeroFrom hfound
  | case3 cursor h bytes hbytes n off found hfound ih => exact ih hlt
  | case4 cursor h => exact absurd hlt h

end Memory

end PeImage
