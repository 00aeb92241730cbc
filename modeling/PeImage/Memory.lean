/-
The memory of a mapped image: a table of pages that is used as one flat range of bytes.

The range that can be reached ends at `limit`, the size of image in whole pages. An edit of the
header can move the limit away from the end of the table, and then the nearer of the two counts.

* `Memory.flat`: the view, the byte at an address.
* `Memory.read`, `Memory.write`: access to a range that may span any number of pages. Both say how
  many bytes they moved and never fail.
* `Memory.stringLength`: the length of a zero-terminated string.
* `Memory.toByteArray`: all pages, one behind the other.
-/
import PeImage.Page

namespace PeImage

/-- The pages of a mapped image with the end of what can be reached. -/
structure Memory where
  /-- The pages, from address zero on. -/
  pages : Array Page
  /-- The first address that cannot be reached. -/
  limit : Nat

namespace Memory

/-- The byte at an address, zero where there is no page. -/
def flat (m : Memory) (a : Nat) : UInt8 :=
  match m.pages[a / pageSize]? with
  | some page => page.byte (a % pageSize)
  | none => 0

/-- The part of the next page that an access at `cursor` covers when it goes on up to `stop`. -/
def chunk (cursor stop : Nat) : Nat := min (pageSize - cursor % pageSize) (stop - cursor)

theorem chunk_pos {cursor stop : Nat} (h : cursor < stop) : 0 < chunk cursor stop := by
  have := Nat.mod_lt cursor (show pageSize > 0 by decide)
  simp only [chunk]
  omega

theorem sub_chunk_lt {cursor stop : Nat} (h : cursor < stop) :
    stop - (cursor + chunk cursor stop) < stop - cursor := by
  have := chunk_pos h
  omega

/-- The end of an access to `n` bytes at `a`. -/
def stop (m : Memory) (a n : Nat) : Nat := min (a + n) m.limit

/-! ### Reading -/

/-- Appends the bytes from `cursor` up to `stop`, as far as there are pages. -/
def readUpTo (m : Memory) (cursor stop : Nat) (acc : ByteArray) : ByteArray :=
  if _h : cursor < stop then
    match m.pages[cursor / pageSize]? with
    | none => acc
    | some page =>
      let n := chunk cursor stop
      readUpTo m (cursor + n) stop (acc ++ page.read (cursor % pageSize) n)
  else acc
termination_by stop - cursor
decreasing_by exact sub_chunk_lt _h

/-- The bytes from address `a` on, at most `n` of them. -/
def read (m : Memory) (a n : Nat) : ByteArray := m.readUpTo a (m.stop a n) .empty

/-! ### Writing -/

/-- Writes the bytes of `src`, of which the first belongs to address `start`, from `cursor` up to
`stop`, as far as there are pages. Returns the address reached. -/
def writeUpTo (pages : Array Page) (src : ByteArray) (start cursor stop : Nat) :
    Array Page × Nat :=
  if _h : cursor < stop then
    if cursor / pageSize < pages.size then
      let n := chunk cursor stop
      let pages := pages.modify (cursor / pageSize) fun page =>
        page.write (cursor % pageSize) (window src (cursor - start) n)
      writeUpTo pages src start (cursor + n) stop
    else (pages, cursor)
  else (pages, cursor)
termination_by stop - cursor
decreasing_by exact sub_chunk_lt _h

/-- The memory with `src` written from address `a` on, and the number of bytes consumed. -/
def write (m : Memory) (a : Nat) (src : ByteArray) : Memory × Nat :=
  let (pages, reached) := writeUpTo m.pages src a a (m.stop a src.size)
  ({ m with pages := pages }, reached - a)

/-! ### Strings -/

/-- The address of the first zero at or after `cursor`. A page without bytes of its own ends the
string where it begins, as does the end of the range. -/
def stringEnd (m : Memory) (cursor stop : Nat) : Nat :=
  if _h : cursor < stop then
    match m.pages[cursor / pageSize]?.bind Page.bytes? with
    | none => cursor
    | some bytes =>
      let n := chunk cursor stop
      let off := cursor % pageSize
      let found := zeroFrom bytes off n
      if found < off + n then cursor + (found - off) else stringEnd m (cursor + n) stop
  else cursor
termination_by stop - cursor
decreasing_by exact sub_chunk_lt _h

/-- The length of the zero-terminated string at `a`, at most `n`. -/
def stringLength (m : Memory) (a n : Nat) : Nat := m.stringEnd a (m.stop a n) - a

/-! ### The whole -/

/-- All pages, one behind the other. -/
def toByteArray (m : Memory) : ByteArray :=
  m.pages.foldl (fun acc page => acc ++ page.toByteArray) .empty

end Memory

end PeImage
