/-
The data directories: where in the image each well-known table lies.
-/

namespace PeImage

/-- The tables with an entry of their own. -/
inductive DirectoryKind where
  /-- Exported symbols. -/
  | exportTable
  /-- Imported symbols. -/
  | importTable
  /-- Resources. -/
  | resource
  /-- Exception handlers. -/
  | exception
  /-- Certificates. -/
  | security
  /-- Base relocations. -/
  | baseRelocation
  /-- Debugging data. -/
  | debug
  /-- Data of the architecture. -/
  | architecture
  /-- The global pointer. -/
  | globalPointer
  /-- Thread-local storage. -/
  | threadLocal
  /-- Configuration of the load. -/
  | loadConfig
  /-- Bound imports. -/
  | boundImport
  /-- Import addresses. -/
  | importAddress
  /-- Imports resolved on first use. -/
  | delayImport
  /-- Descriptor of managed code. -/
  | managedCode
  /-- Reserved. -/
  | reserved
  deriving DecidableEq, Repr, Inhabited

namespace DirectoryKind

/-- The number of entries that an image can have. -/
def count : Nat := 16

/-- The tables in the order of their entries. -/
def all : List DirectoryKind :=
  [.exportTable, .importTable, .resource, .exception, .security, .baseRelocation, .debug,
   .architecture, .globalPointer, .threadLocal, .loadConfig, .boundImport, .importAddress,
   .delayImport, .managedCode, .reserved]

/-- The position of the entry. -/
def index : DirectoryKind → Nat
  | .exportTable => 0
  | .importTable => 1
  | .resource => 2
  | .exception => 3
  | .security => 4
  | .baseRelocation => 5
  | .debug => 6
  | .architecture => 7
  | .globalPointer => 8
  | .threadLocal => 9
  | .loadConfig => 10
  | .boundImport => 11
  | .importAddress => 12
  | .delayImport => 13
  | .managedCode => 14
  | .reserved => 15

/-- The name of the table. -/
def name : DirectoryKind → String
  | .exportTable => "Export"
  | .importTable => "Import"
  | .resource => "Resource"
  | .exception => "Exception"
  | .security => "Security"
  | .baseRelocation => "BaseReloc"
  | .debug => "Debug"
  | .architecture => "Architecture"
  | .globalPointer => "GlobalPtr"
  | .threadLocal => "Tls"
  | .loadConfig => "LoadConfig"
  | .boundImport => "BoundImport"
  | .importAddress => "Iat"
  | .delayImport => "DelayImport"
  | .managedCode => "ComDescriptor"
  | .reserved => "Reserved"

/-- The table at a position. -/
def ofIndex? (i : Nat) : Option DirectoryKind := all[i]?

theorem ofIndex?_index (k : DirectoryKind) : ofIndex? k.index = some k := by
  cases k <;> rfl

end DirectoryKind

/-- Where a table lies. -/
structure Directory where
  /-- Address of the table. -/
  rva : UInt32 := 0
  /-- Size of the table in bytes. -/
  size : UInt32 := 0
  deriving DecidableEq, Repr

instance : Inhabited Directory := ⟨{}⟩

/-- Bytes in an entry. -/
def Directory.entrySize : Nat := 8

end PeImage
