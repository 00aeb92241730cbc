/-
Byte buffers seen as total functions from positions to bytes.

A file, a page and a transfer buffer are all a `ByteArray`. Every rule of the format that reads a
buffer is stated on `byteAt`, the byte at a position with zero past the end, because a structure
cut by the end of the file reads as if the file went on with zeros.

* `byteAt`, `eq_of_byteAt_eq`: the view, and that size and view determine a buffer.
* `zeros`, `overwrite`, `slice?`: a blank buffer, writing one buffer over another in place, and the
  bounds-checked window; `byteAt_zeros`, `byteAt_append`, `byteAt_extract`, `byteAt_overwrite` say
  what each does to the view.
* `window_min`, `window_add`, `extract_window`: windows that the end of the buffer cuts, in two
  parts, and of windows.
* `size_foldl_append`, `byteAt_foldl_append`: buffers built of pieces of one size.
* `zeroFrom`: the first zero at or after a position, which is where a terminated string ends.
-/

namespace PeImage

/-! ### The view -/

/-- The byte at position `i`, zero past the end of the buffer. -/
def byteAt (b : ByteArray) (i : Nat) : UInt8 :=
  if h : i < b.size then b[i] else 0

theorem byteAt_eq_getElem {b : ByteArray} {i : Nat} (h : i < b.size) : byteAt b i = b[i] :=
  dif_pos h

theorem byteAt_eq_zero {b : ByteArray} {i : Nat} (h : b.size ≤ i) : byteAt b i = 0 :=
  dif_neg (Nat.not_lt.2 h)

/-- Two buffers of one size with the same bytes are equal. -/
theorem eq_of_byteAt_eq {a b : ByteArray} (hs : a.size = b.size)
    (h : ∀ i, i < a.size → byteAt a i = byteAt b i) : a = b := by
  refine ByteArray.ext_getElem hs fun i hi hi' => ?_
  rw [← byteAt_eq_getElem hi, ← byteAt_eq_getElem hi']
  exact h i hi

/-! ### Building buffers -/

/-- A buffer of `n` zero bytes. -/
def zeros (n : Nat) : ByteArray := ⟨Array.replicate n 0⟩

@[simp] theorem size_zeros (n : Nat) : (zeros n).size = n :=
  Array.size_replicate

@[simp] theorem byteAt_zeros (n i : Nat) : byteAt (zeros n) i = 0 := by
  unfold byteAt
  split
  · rw [ByteArray.getElem_eq_getElem_data]
    exact Array.getElem_replicate _
  · rfl

theorem byteAt_append (a b : ByteArray) (i : Nat) :
    byteAt (a ++ b) i = if i < a.size then byteAt a i else byteAt b (i - a.size) := by
  have hs : (a ++ b).size = a.size + b.size := ByteArray.size_append
  split
  · next h =>
    rw [byteAt_eq_getElem h, byteAt_eq_getElem (by omega : i < (a ++ b).size)]
    exact ByteArray.getElem_append_left h
  · next h =>
    by_cases h' : i - a.size < b.size
    · rw [byteAt_eq_getElem h', byteAt_eq_getElem (by omega : i < (a ++ b).size)]
      exact ByteArray.getElem_append_right (by omega)
    · rw [byteAt_eq_zero (Nat.not_lt.1 h'), byteAt_eq_zero (by omega : (a ++ b).size ≤ i)]

theorem byteAt_extract (b : ByteArray) (start stop i : Nat) :
    byteAt (b.extract start stop) i =
      if i < min stop b.size - start then byteAt b (start + i) else 0 := by
  split
  · next h =>
    rw [byteAt_eq_getElem (by rw [ByteArray.size_extract]; omega), byteAt_eq_getElem (by omega)]
    exact ByteArray.getElem_extract _
  · next h => exact byteAt_eq_zero (by rw [ByteArray.size_extract]; omega)

/-- The `n` bytes from position `start` on, fewer where the buffer ends before. -/
def window (b : ByteArray) (start n : Nat) : ByteArray := b.extract start (start + n)

theorem size_window (b : ByteArray) (start n : Nat) :
    (window b start n).size = min n (b.size - start) := by
  rw [window, ByteArray.size_extract]
  omega

theorem byteAt_window (b : ByteArray) (start n i : Nat) :
    byteAt (window b start n) i = if i < n then byteAt b (start + i) else 0 := by
  rw [window, byteAt_extract]
  by_cases h : i < n
  · by_cases h' : start + i < b.size
    · rw [if_pos (by omega), if_pos h]
    · rw [if_neg (by omega), if_pos h, byteAt_eq_zero (by omega)]
  · rw [if_neg (by omega), if_neg h]

/-- The end of the buffer cuts a window. -/
theorem window_eq_extract_min (b : ByteArray) (start n : Nat) :
    window b start n = b.extract start (min (start + n) b.size) := by
  have hcut := ByteArray.extract_extract (a := b) (i := 0) (j := b.size) (k := start)
    (l := start + n)
  rwa [ByteArray.extract_zero_size, Nat.zero_add, Nat.zero_add] at hcut

/-- So a window may be asked for with as many bytes as there are. -/
theorem window_min (b : ByteArray) (start n : Nat) :
    window b start (min n (b.size - start)) = window b start n := by
  have hstop : min (start + min n (b.size - start)) b.size = min (start + n) b.size := by omega
  rw [window_eq_extract_min, window_eq_extract_min, hstop]

/-- There is nothing behind the end of a buffer. -/
theorem window_eq_empty {b : ByteArray} {start : Nat} (h : b.size ≤ start) (n : Nat) :
    window b start n = .empty :=
  ByteArray.extract_eq_empty_iff.mpr (Nat.le_trans (Nat.min_le_right _ _) h)

/-- A window in two parts. -/
theorem window_add (b : ByteArray) (start m n : Nat) :
    window b start (m + n) = window b start m ++ window b (start + m) n := by
  rw [window, ← Nat.add_assoc]
  exact ByteArray.extract_eq_extract_append_extract (start + m) (Nat.le_add_right _ _)
    (Nat.le_add_right _ _)

/-- The front of a window is a shorter one. -/
theorem extract_window (b : ByteArray) (start : Nat) {k n : Nat} (h : k ≤ n) :
    (window b start n).extract 0 k = window b start k := by
  rw [window, ByteArray.extract_extract, Nat.add_zero,
    Nat.min_eq_left (Nat.add_le_add_left h start), window]

/-- The window of `n` bytes from `start`, refused where it does not lie within the buffer. -/
def slice? (b : ByteArray) (start n : Nat) : Option ByteArray :=
  if start + n ≤ b.size then some (window b start n) else none

/-- `src` written over `b` from position `start` on. The callers keep the written range inside
`b`, and then the size does not change. -/
def overwrite (b : ByteArray) (start : Nat) (src : ByteArray) : ByteArray :=
  src.copySlice 0 b start src.size

theorem overwrite_eq_append (b : ByteArray) (start : Nat) (src : ByteArray) :
    overwrite b start src = b.extract 0 start ++ src ++ b.extract (start + src.size) b.size := by
  rw [overwrite, ByteArray.copySlice_eq_append]
  simp

theorem size_overwrite {b : ByteArray} {start : Nat} {src : ByteArray}
    (h : start + src.size ≤ b.size) : (overwrite b start src).size = b.size := by
  rw [overwrite_eq_append]
  simp only [ByteArray.size_append, ByteArray.size_extract]
  omega

theorem byteAt_overwrite {b : ByteArray} {start : Nat} {src : ByteArray}
    (h : start + src.size ≤ b.size) (i : Nat) :
    byteAt (overwrite b start src) i =
      if start ≤ i ∧ i < start + src.size then byteAt src (i - start) else byteAt b i := by
  have hl : (b.extract 0 start).size = start := by rw [ByteArray.size_extract]; omega
  rw [overwrite_eq_append, byteAt_append, byteAt_append, ByteArray.size_append, hl]
  by_cases h1 : i < start
  · rw [if_pos (by omega), if_pos h1, if_neg (by omega), byteAt_extract, if_pos (by omega)]
    simp
  · by_cases h2 : i < start + src.size
    · rw [if_pos h2, if_neg h1, if_pos ⟨by omega, h2⟩]
    · rw [if_neg h2, if_neg (fun h => h2 h.2), byteAt_extract]
      split
      · next h3 => rw [show start + src.size + (i - (start + src.size)) = i by omega]
      · next h3 => exact (byteAt_eq_zero (by omega)).symm

/-! ### Buffers in pieces -/

section

variable {α : Type} {f : α → ByteArray} {w : Nat} {l : List α}

/-- Pieces of one size, one behind the other, behind a buffer. -/
theorem size_foldl_append (h : ∀ x ∈ l, (f x).size = w) (acc : ByteArray) :
    (l.foldl (fun acc x => acc ++ f x) acc).size = acc.size + w * l.length := by
  induction l generalizing acc with
  | nil => rfl
  | cons x rest ih =>
    rw [List.foldl_cons, ih (fun y hy => h y (List.mem_cons_of_mem x hy)), ByteArray.size_append,
      h x List.mem_cons_self, List.length_cons, Nat.mul_succ]
    omega

/-- The buffer in front of the pieces stays. -/
theorem byteAt_foldl_append_front (l : List α) {acc : ByteArray} {i : Nat} (hi : i < acc.size) :
    byteAt (l.foldl (fun acc x => acc ++ f x) acc) i = byteAt acc i := by
  induction l generalizing acc with
  | nil => rfl
  | cons x rest ih =>
    have hle : i < (acc ++ f x).size := by
      rw [ByteArray.size_append]
      omega
    rw [List.foldl_cons, ih hle, byteAt_append, if_pos hi]

/-- Each piece stands in its place, by induction with the buffer in front of them growing. -/
theorem byteAt_foldl_append (h : ∀ x ∈ l, (f x).size = w) (acc : ByteArray) {i k : Nat}
    (hi : i < l.length) (hk : k < w) :
    byteAt (l.foldl (fun acc x => acc ++ f x) acc) (acc.size + w * i + k) = byteAt (f l[i]) k := by
  induction l generalizing acc i with
  | nil => exact absurd hi (Nat.not_lt_zero i)
  | cons x rest ih =>
    have hx : (f x).size = w := h x List.mem_cons_self
    have hsize : (acc ++ f x).size = acc.size + w := by rw [ByteArray.size_append, hx]
    rw [List.foldl_cons]
    cases i with
    | zero =>
      rw [Nat.mul_zero, Nat.add_zero, byteAt_foldl_append_front rest (by omega), byteAt_append,
        if_neg (by omega), Nat.add_sub_cancel_left]
      rfl
    | succ i =>
      have hrest := ih (fun y hy => h y (List.mem_cons_of_mem x hy)) (acc ++ f x)
        (Nat.lt_of_succ_lt_succ hi)
      rw [hsize] at hrest
      rw [Nat.mul_succ, Nat.add_comm (w * i) w, ← Nat.add_assoc acc.size w]
      exact hrest

end

/-! ### Terminators -/

/-- The first position at or after `i`, among the next `n`, that holds a zero; `i + n` if none of
them does. -/
def zeroFrom (b : ByteArray) (i : Nat) : Nat → Nat
  | 0 => i
  | n + 1 => if byteAt b i = 0 then i else zeroFrom b (i + 1) n

theorem le_zeroFrom (b : ByteArray) (i n : Nat) : i ≤ zeroFrom b i n := by
  induction n generalizing i with
  | zero => exact Nat.le_refl i
  | succ n ih =>
    unfold zeroFrom
    split
    · exact Nat.le_refl i
    · exact Nat.le_of_succ_le (ih (i + 1))

theorem zeroFrom_le (b : ByteArray) (i n : Nat) : zeroFrom b i n ≤ i + n := by
  induction n generalizing i with
  | zero => exact Nat.le_refl i
  | succ n ih =>
    unfold zeroFrom
    split
    · omega
    · have := ih (i + 1)
      omega

/-- No zero stands before the position that `zeroFrom` finds. -/
theorem byteAt_ne_zero_of_lt_zeroFrom {b : ByteArray} {i n k : Nat} (hi : i ≤ k)
    (hk : k < zeroFrom b i n) : byteAt b k ≠ 0 := by
  induction n generalizing i with
  | zero =>
    simp only [zeroFrom] at hk
    omega
  | succ n ih =>
    unfold zeroFrom at hk
    split at hk
    · omega
    · next h =>
      rcases Nat.eq_or_lt_of_le hi with rfl | hlt
      · exact h
      · exact ih hlt hk

/-- A position found before the end of the window holds a zero. -/
theorem byteAt_zeroFrom {b : ByteArray} {i n : Nat} (h : zeroFrom b i n < i + n) :
    byteAt b (zeroFrom b i n) = 0 := by
  induction n generalizing i with
  | zero =>
    simp only [zeroFrom] at h
    omega
  | succ n ih =>
    unfold zeroFrom at h ⊢
    split
    · assumption
    · next hne =>
      rw [if_neg hne] at h
      exact ih (by omega)

end PeImage
