/-
Page protection, as the memory manager derives it from the characteristics of a section.
-/
import PeImage.Header.Flags

namespace PeImage

/-- How the pages of a section may be used. -/
inductive PageProtection where
  /-- Not at all. -/
  | noAccess
  /-- Reading. -/
  | readOnly
  /-- Reading and writing. -/
  | readWrite
  /-- Reading, and writing to a private copy. -/
  | writeCopy
  /-- Running. -/
  | execute
  /-- Running and reading. -/
  | executeRead
  /-- Running, reading and writing. -/
  | executeReadWrite
  /-- Running, reading, and writing to a private copy. -/
  | executeWriteCopy
  deriving DecidableEq, Repr, Inhabited

namespace PageProtection

/-- All protections, lowest value first. -/
def all : List PageProtection :=
  [.noAccess, .readOnly, .readWrite, .writeCopy, .execute, .executeRead, .executeReadWrite,
   .executeWriteCopy]

/-- The value by which the memory manager knows a protection: one bit each. -/
def value : PageProtection → UInt32
  | .noAccess => 0x01
  | .readOnly => 0x02
  | .readWrite => 0x04
  | .writeCopy => 0x08
  | .execute => 0x10
  | .executeRead => 0x20
  | .executeReadWrite => 0x40
  | .executeWriteCopy => 0x80

/-- The name of a protection. -/
def name : PageProtection → String
  | .noAccess => "NoAccess"
  | .readOnly => "ReadOnly"
  | .readWrite => "ReadWrite"
  | .writeCopy => "WriteCopy"
  | .execute => "Execute"
  | .executeRead => "ExecuteRead"
  | .executeReadWrite => "ExecuteReadWrite"
  | .executeWriteCopy => "ExecuteWriteCopy"

/-- The protection with the given value. -/
def ofValue? (n : UInt32) : Option PageProtection := all.find? fun p => p.value == n

/-- The protection that the four memory flags ask for. A writable section that is not shared is
copied on the first write, and one that can be written can also be read. -/
def ofFlags (execute read write shared : Bool) : PageProtection :=
  match execute, read, write, shared with
  | false, false, false, _ => .noAccess
  | true, false, false, _ => .execute
  | false, true, false, _ => .readOnly
  | true, true, false, _ => .executeRead
  | false, _, true, false => .writeCopy
  | true, _, true, false => .executeWriteCopy
  | false, _, true, true => .readWrite
  | true, _, true, true => .executeReadWrite

/-- The protection of a section with the given characteristics. -/
def ofCharacteristics (bits : UInt32) : PageProtection :=
  ofFlags (BitFlag.isSet bits SectionFlag.execute) (BitFlag.isSet bits SectionFlag.read)
    (BitFlag.isSet bits SectionFlag.write) (BitFlag.isSet bits SectionFlag.shared)

theorem ofValue?_value (p : PageProtection) : ofValue? p.value = some p := by
  cases p <;> decide

end PageProtection

end PeImage
