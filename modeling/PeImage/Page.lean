/-
The pages of which a mapped image consists.

* `Page`: a page with bytes from the file, a page of zeros, or a page that was never committed.
* `Page.byte`: the view, a page as a function from positions to bytes. A page without bytes of its
  own is zero everywhere.
* `Page.read`, `Page.write`: access within one page. Writing to a page of zeros gives it bytes of
  its own; writing to an inaccessible page is dropped.
-/
import PeImage.Alignment
import PeImage.Bytes.Basic

namespace PeImage

/-- One page of a mapped image. -/
inductive Page where
  /-- A page with bytes of its own, as many as a page has. -/
  | data (bytes : ByteArray)
  /-- A committed page of zeros. -/
  | zero
  /-- A reserved page that was never committed. -/
  | inaccessible

namespace Page

instance : Inhabited Page := ⟨.inaccessible⟩

/-- A page that starts with the given bytes, of which as many are taken as a page holds. -/
def ofBytes (bytes : ByteArray) : Page :=
  .data (window bytes 0 pageSize ++ zeros (pageSize - bytes.size))

/-- The bytes of a page that has its own. -/
def bytes? : Page → Option ByteArray
  | .data bytes => some bytes
  | .zero | .inaccessible => none

/-- The byte at a position of a page. -/
def byte : Page → Nat → UInt8
  | .data bytes, i => byteAt bytes i
  | .zero, _ | .inaccessible, _ => 0

/-- Whether a page is committed. -/
def isAccessible : Page → Bool
  | .data _ | .zero => true
  | .inaccessible => false

/-- Whether a page is a committed page of zeros. -/
def isZero : Page → Bool
  | .zero => true
  | .data _ | .inaccessible => false

/-- The whole page. -/
def toByteArray : Page → ByteArray
  | .data bytes => bytes
  | .zero | .inaccessible => zeros pageSize

/-- The `n` bytes from position `off` of a page on. -/
def read (p : Page) (off n : Nat) : ByteArray :=
  match p with
  | .data bytes => window bytes off n
  | .zero | .inaccessible => zeros n

/-- The page with `src` written at position `off`. -/
def write (p : Page) (off : Nat) (src : ByteArray) : Page :=
  match p with
  | .data bytes => .data (overwrite bytes off src)
  | .zero => .data (overwrite (zeros pageSize) off src)
  | .inaccessible => .inaccessible

/-- A page with bytes of its own has exactly as many as a page holds. -/
def WellFormed : Page → Prop
  | .data bytes => bytes.size = pageSize
  | .zero | .inaccessible => True

theorem wellFormed_ofBytes (bytes : ByteArray) : (ofBytes bytes).WellFormed := by
  show (window bytes 0 pageSize ++ zeros (pageSize - bytes.size)).size = pageSize
  rw [ByteArray.size_append, size_window, size_zeros]
  omega

theorem byte_ofBytes (bytes : ByteArray) (i : Nat) :
    (ofBytes bytes).byte i = if i < pageSize then byteAt bytes i else 0 := by
  show byteAt (_ ++ _) i = _
  rw [byteAt_append, byteAt_window, byteAt_zeros, size_window, Nat.zero_add]
  by_cases h : i < pageSize
  · rw [if_pos h]
    split
    · rfl
    · next h' => exact (byteAt_eq_zero (by omega)).symm
  · rw [if_neg h]
    split <;> rfl

theorem WellFormed.write {p : Page} (hp : p.WellFormed) {off : Nat} {src : ByteArray}
    (h : off + src.size ≤ pageSize) : (p.write off src).WellFormed := by
  cases p with
  | data bytes =>
    have hs : bytes.size = pageSize := hp
    show (overwrite bytes off src).size = pageSize
    rw [size_overwrite (by omega), hs]
  | zero =>
    show (overwrite (zeros pageSize) off src).size = pageSize
    rw [size_overwrite (by rwa [size_zeros]), size_zeros]
  | inaccessible => trivial

/-- Writing changes the written range of an accessible page and nothing else. -/
theorem byte_write {p : Page} (hp : p.WellFormed) {off : Nat} {src : ByteArray}
    (h : off + src.size ≤ pageSize) (i : Nat) :
    (p.write off src).byte i =
      if p.isAccessible ∧ off ≤ i ∧ i < off + src.size then byteAt src (i - off) else p.byte i := by
  cases p with
  | data bytes =>
    have hs : bytes.size = pageSize := hp
    show byteAt (overwrite bytes off src) i = _
    rw [byteAt_overwrite (by omega)]
    simp [isAccessible, byte]
  | zero =>
    show byteAt (overwrite (zeros pageSize) off src) i = _
    rw [byteAt_overwrite (by rwa [size_zeros])]
    simp [isAccessible, byte]
  | inaccessible => simp [isAccessible, write]

@[simp] theorem isAccessible_write (p : Page) (off : Nat) (src : ByteArray) :
    (p.write off src).isAccessible = p.isAccessible := by
  cases p <;> rfl

theorem size_read {p : Page} (hp : p.WellFormed) {off n : Nat} (h : off + n ≤ pageSize) :
    (p.read off n).size = n := by
  cases p with
  | data bytes =>
    have hs : bytes.size = pageSize := hp
    show (window bytes off n).size = n
    rw [size_window]
    omega
  | zero | inaccessible => exact size_zeros n

theorem size_toByteArray {p : Page} (hp : p.WellFormed) : p.toByteArray.size = pageSize := by
  cases p with
  | data bytes => exact hp
  | zero | inaccessible => exact size_zeros pageSize

theorem byteAt_toByteArray (p : Page) (i : Nat) : byteAt p.toByteArray i = p.byte i := by
  cases p with
  | data bytes => rfl
  | zero | inaccessible => exact byteAt_zeros pageSize i

theorem byteAt_read {p : Page} (off n i : Nat) :
    byteAt (p.read off n) i = if i < n then p.byte (off + i) else 0 := by
  cases p with
  | data bytes => exact byteAt_window bytes off n i
  | zero | inaccessible =>
    show byteAt (zeros n) i = if i < n then 0 else 0
    rw [byteAt_zeros]
    split <;> rfl

end Page

end PeImage
