/-
Writing to memory, seen as one flat range of bytes.

* `write_snd`, `flat_write`: a write consumes bytes up to the reach, and changes the written range
  where it is accessible and nothing else.
* `WellFormed.write`, `isAccessibleAt_write`, `reach_write`: what a write keeps.

Each is the case of a whole access of a statement about the loop, which in turn repeats the one for
a single chunk.
-/
import PeImage.Memory.View

namespace PeImage

namespace Memory

/-! ### One chunk -/

/-- The memory after one chunk. -/
theorem flat_modify {m : Memory} (hm : m.WellFormed) {cursor : Nat} {src : ByteArray}
    (hsrc : cursor % pageSize + src.size ≤ pageSize) (r : Nat) :
    flat ⟨m.pages.modify (cursor / pageSize) (·.write (cursor % pageSize) src), m.limit⟩ r =
      if cursor ≤ r ∧ r < cursor + src.size ∧ m.isAccessibleAt r then byteAt src (r - cursor)
      else m.flat r := by
  unfold flat isAccessibleAt
  simp only [Array.getElem?_modify]
  by_cases hp : cursor / pageSize = r / pageSize
  · rw [if_pos hp]
    cases hpage : m.pages[r / pageSize]? with
    | none => simp
    | some page =>
      simp only [Option.map_some]
      rw [Page.byte_write (hm.page hpage) hsrc]
      have hrange : (cursor % pageSize ≤ r % pageSize ∧
          r % pageSize < cursor % pageSize + src.size) ↔ cursor ≤ r ∧ r < cursor + src.size := by
        simp only [pageSize] at *
        omega
      by_cases h : cursor ≤ r ∧ r < cursor + src.size
      · have hoff : r % pageSize - cursor % pageSize = r - cursor := by
          simp only [pageSize] at *
          omega
        have h' := hrange.2 h
        simp only [h'.1, h'.2, h.1, h.2, hoff, and_true, true_and]
      · rw [if_neg fun h' => h (hrange.1 h'.2), if_neg fun h' => h ⟨h'.1, h'.2.1⟩]
  · rw [if_neg hp, if_neg]
    simp only [pageSize] at *
    omega

theorem isAccessibleAt_modify (m : Memory) (i off : Nat) (src : ByteArray) (r : Nat) :
    isAccessibleAt ⟨m.pages.modify i (·.write off src), m.limit⟩ r = m.isAccessibleAt r := by
  unfold isAccessibleAt
  simp only [Array.getElem?_modify]
  by_cases h : i = r / pageSize
  · rw [if_pos h]
    cases m.pages[r / pageSize]? <;> simp
  · rw [if_neg h]

theorem WellFormed.modify {m : Memory} (hm : m.WellFormed) (i : Nat) {off : Nat} {src : ByteArray}
    (hsrc : off + src.size ≤ pageSize) :
    WellFormed ⟨m.pages.modify i (·.write off src), m.limit⟩ := by
  intro page hpage
  obtain ⟨j, hj, rfl⟩ := Array.getElem_of_mem hpage
  rw [Array.getElem_modify]
  split
  · exact (hm _ (Array.getElem_mem _)).write hsrc
  · exact hm _ (Array.getElem_mem _)

theorem tableEnd_modify (m : Memory) (i off : Nat) (src : ByteArray) :
    tableEnd ⟨m.pages.modify i (·.write off src), m.limit⟩ = m.tableEnd := by
  simp only [tableEnd, Array.size_modify]

/-- The bytes of a chunk that the source provides are all of the chunk. -/
theorem size_window_chunk {src : ByteArray} {start cursor stop : Nat} (hstart : start ≤ cursor)
    (hstop : stop ≤ start + src.size) :
    (window src (cursor - start) (chunk cursor stop)).size = chunk cursor stop := by
  have h := chunk_le cursor stop
  rw [size_window]
  omega

/-! ### The loop -/

theorem tableEnd_writeUpTo (m : Memory) (src : ByteArray) (start cursor stop : Nat) :
    tableEnd ⟨(writeUpTo m.pages src start cursor stop).1, m.limit⟩ = m.tableEnd := by
  obtain ⟨pages, limit⟩ := m
  fun_induction writeUpTo pages src start cursor stop with
  | case1 pages cursor h hlt n pages' ih => exact ih.trans (tableEnd_modify ⟨pages, limit⟩ _ _ _)
  | case2 | case3 => rfl

/-- A write gets as far as a read. -/
theorem writeUpTo_snd (m : Memory) (src : ByteArray) (start cursor stop : Nat) :
    (writeUpTo m.pages src start cursor stop).2 = max cursor (min stop m.tableEnd) := by
  obtain ⟨pages, limit⟩ := m
  fun_induction writeUpTo pages src start cursor stop with
  | case1 pages cursor h hlt n pages' ih =>
    have hend : cursor < tableEnd ⟨pages, limit⟩ := (div_lt_size_iff ⟨pages, limit⟩ cursor).1 hlt
    have hle : cursor + n ≤ tableEnd ⟨pages, limit⟩ := add_chunk_le hend
    have hn : n ≤ stop - cursor := chunk_le cursor stop
    rw [ih, tableEnd_modify ⟨pages, limit⟩]
    omega
  | case2 pages cursor h hlt =>
    have hend : ¬ cursor < tableEnd ⟨pages, limit⟩ :=
      fun h' => hlt ((div_lt_size_iff ⟨pages, limit⟩ cursor).2 h')
    show cursor = _
    omega
  | case3 pages cursor h =>
    show cursor = _
    omega

theorem isAccessibleAt_writeUpTo (m : Memory) (src : ByteArray) (start cursor stop r : Nat) :
    isAccessibleAt ⟨(writeUpTo m.pages src start cursor stop).1, m.limit⟩ r =
      m.isAccessibleAt r := by
  obtain ⟨pages, limit⟩ := m
  fun_induction writeUpTo pages src start cursor stop with
  | case1 pages cursor h hlt n pages' ih =>
    exact ih.trans (isAccessibleAt_modify ⟨pages, limit⟩ _ _ _ _)
  | case2 | case3 => rfl

theorem WellFormed.writeUpTo {m : Memory} (hm : m.WellFormed) {src : ByteArray}
    {start cursor stop : Nat} (hstart : start ≤ cursor) (hstop : stop ≤ start + src.size) :
    WellFormed ⟨(writeUpTo m.pages src start cursor stop).1, m.limit⟩ := by
  obtain ⟨pages, limit⟩ := m
  fun_induction Memory.writeUpTo pages src start cursor stop with
  | case1 pages cursor h hlt n pages' ih =>
    refine ih (Nat.le_add_right_of_le hstart) (hm.modify _ ?_)
    rw [size_window_chunk hstart hstop]
    exact mod_add_chunk_le cursor stop
  | case2 | case3 => exact hm

theorem flat_writeUpTo {m : Memory} (hm : m.WellFormed) {src : ByteArray}
    {start cursor stop : Nat} (hstart : start ≤ cursor) (hstop : stop ≤ start + src.size)
    (r : Nat) :
    flat ⟨(writeUpTo m.pages src start cursor stop).1, m.limit⟩ r =
      if cursor ≤ r ∧ r < stop ∧ m.isAccessibleAt r then byteAt src (r - start) else m.flat r := by
  obtain ⟨pages, limit⟩ := m
  fun_induction Memory.writeUpTo pages src start cursor stop with
  | case1 pages cursor h hlt n pages' ih =>
    have hn : n ≤ stop - cursor := chunk_le cursor stop
    have hsize : (window src (cursor - start) n).size = n := size_window_chunk hstart hstop
    have hmod : cursor % pageSize + (window src (cursor - start) n).size ≤ pageSize := by
      rw [hsize]
      exact mod_add_chunk_le cursor stop
    rw [ih (Nat.le_add_right_of_le hstart) (hm.modify _ hmod), isAccessibleAt_modify ⟨pages, limit⟩,
      flat_modify hm hmod, hsize]
    by_cases h1 : cursor + n ≤ r ∧ r < stop ∧ isAccessibleAt ⟨pages, limit⟩ r
    · rw [if_pos h1, if_pos ⟨by omega, h1.2⟩]
    · rw [if_neg h1]
      by_cases h2 : cursor ≤ r ∧ r < cursor + n ∧ isAccessibleAt ⟨pages, limit⟩ r
      · rw [if_pos h2, if_pos ⟨h2.1, by omega, h2.2.2⟩, byteAt_window, if_pos (by omega)]
        congr 1
        omega
      · rw [if_neg h2, if_neg]
        rintro ⟨ha, hb, hc⟩
        by_cases hr : r < cursor + n
        · exact h2 ⟨ha, hr, hc⟩
        · exact h1 ⟨by omega, hb, hc⟩
  | case2 pages cursor h hlt =>
    rw [if_neg]
    rintro ⟨ha, -, hc⟩
    have hend : tableEnd ⟨pages, limit⟩ ≤ cursor :=
      Nat.le_of_not_lt fun h' => hlt ((div_lt_size_iff ⟨pages, limit⟩ cursor).2 h')
    rw [isAccessibleAt_eq_false (by omega)] at hc
    exact Bool.false_ne_true hc
  | case3 pages cursor h => rw [if_neg (by omega)]

/-! ### A whole write -/

/-- A write consumes bytes up to the reach. -/
theorem write_snd (m : Memory) (a : Nat) (src : ByteArray) :
    (m.write a src).2 = min src.size (m.reach - a) := by
  show (writeUpTo m.pages src a a (m.stop a src.size)).2 - a = _
  rw [writeUpTo_snd, stop, reach]
  omega

/-- A write changes the bytes that it consumes where they fall on accessible pages. -/
theorem flat_write {m : Memory} (hm : m.WellFormed) (a : Nat) (src : ByteArray) (r : Nat) :
    (m.write a src).1.flat r =
      if a ≤ r ∧ r < a + (m.write a src).2 ∧ m.isAccessibleAt r then byteAt src (r - a)
      else m.flat r := by
  rw [write_snd]
  show flat ⟨(writeUpTo m.pages src a a (m.stop a src.size)).1, m.limit⟩ r = _
  rw [flat_writeUpTo hm (Nat.le_refl a) (by rw [stop]; omega)]
  by_cases hacc : m.isAccessibleAt r = true
  · have hlt : r < m.tableEnd := by
      refine Nat.lt_of_not_le fun h => ?_
      rw [isAccessibleAt_eq_false h] at hacc
      exact Bool.false_ne_true hacc
    have hrange : (a ≤ r ∧ r < m.stop a src.size) ↔
        (a ≤ r ∧ r < a + min src.size (m.reach - a)) := by
      simp only [stop, reach]
      omega
    by_cases h : a ≤ r ∧ r < m.stop a src.size
    · rw [if_pos ⟨h.1, h.2, hacc⟩, if_pos ⟨h.1, (hrange.1 h).2, hacc⟩]
    · rw [if_neg fun h' => h ⟨h'.1, h'.2.1⟩, if_neg fun h' => h (hrange.2 ⟨h'.1, h'.2.1⟩)]
  · rw [if_neg fun h => hacc h.2.2, if_neg fun h => hacc h.2.2]

@[simp] theorem isAccessibleAt_write (m : Memory) (a : Nat) (src : ByteArray) (r : Nat) :
    (m.write a src).1.isAccessibleAt r = m.isAccessibleAt r :=
  isAccessibleAt_writeUpTo m src a a (m.stop a src.size) r

@[simp] theorem reach_write (m : Memory) (a : Nat) (src : ByteArray) :
    (m.write a src).1.reach = m.reach := by
  show min m.limit (tableEnd ⟨(writeUpTo m.pages src a a (m.stop a src.size)).1, m.limit⟩) = _
  rw [tableEnd_writeUpTo, reach]

theorem WellFormed.write {m : Memory} (hm : m.WellFormed) (a : Nat) (src : ByteArray) :
    (m.write a src).1.WellFormed :=
  WellFormed.writeUpTo hm (Nat.le_refl a) (by rw [stop]; omega)

end Memory

end PeImage
