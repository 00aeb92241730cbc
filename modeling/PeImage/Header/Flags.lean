/-
The flag fields of the headers: sets of named bits in a number.

Bits without a name are kept in the fields and ignored by every question asked here.

* `BitFlag`: what a kind of flag provides, its members with their bits and names, lowest bit first.
* `BitFlag.isSet`, `BitFlag.setIn`, `BitFlag.truncate`, `BitFlag.isKnown`, `BitFlag.isAll`: the
  questions, for every kind of flag.
* `FileFlag`, `DllFlag`, `SectionFlag`: the kinds.
* `Machine`: the processors that the header checks tell apart.
-/

namespace PeImage

/-- A kind of flag: named single bits of a field of at most 32 bits. -/
class BitFlag (α : Type) where
  /-- The members, lowest bit first. -/
  all : List α
  /-- The bit of a member. -/
  mask : α → UInt32
  /-- The name of a member. -/
  name : α → String

namespace BitFlag

variable {α : Type} [BitFlag α]

/-- Whether the bit of a flag is set in a field. -/
def isSet (bits : UInt32) (f : α) : Bool := bits &&& mask f == mask f

variable (α) in
/-- The flags that are set in a field, lowest bit first. -/
def setIn (bits : UInt32) : List α := all.filter fun f => isSet bits f

variable (α) in
/-- The union of all named bits. -/
def allMask : UInt32 := (all : List α).foldl (fun bits f => bits ||| mask f) 0

variable (α) in
/-- The field without its unnamed bits. -/
def truncate (bits : UInt32) : UInt32 := bits &&& allMask α

variable (α) in
/-- Whether a field has no unnamed bit set. -/
def isKnown (bits : UInt32) : Bool := truncate α bits == bits

variable (α) in
/-- Whether a field has every named bit set. -/
def isAll (bits : UInt32) : Bool := truncate α bits == allMask α

end BitFlag

/-- A characteristic of the whole file. -/
inductive FileFlag where
  /-- Base relocations were removed. -/
  | relocsStripped
  /-- The file can be run. -/
  | executableImage
  /-- Line numbers were removed. -/
  | lineNumsStripped
  /-- Local symbols were removed. -/
  | localSymsStripped
  /-- The working set is to be trimmed. -/
  | aggressiveTrim
  /-- Addresses above 2 GB are handled. -/
  | largeAddressAware
  /-- The bytes of a word are reversed. -/
  | bytesReversedLow
  /-- For a machine of 32-bit words. -/
  | machine32Bit
  /-- Debugging data was removed. -/
  | debugStripped
  /-- Run from the swap file if on a removable medium. -/
  | removableRunFromSwap
  /-- Run from the swap file if on a network. -/
  | netRunFromSwap
  /-- A system file. -/
  | system
  /-- A library. -/
  | dll
  /-- For machines of one processor. -/
  | upSystemOnly
  /-- The bytes of a word are reversed. -/
  | bytesReversedHigh
  deriving DecidableEq, Repr

instance : BitFlag FileFlag where
  all :=
    [.relocsStripped, .executableImage, .lineNumsStripped, .localSymsStripped, .aggressiveTrim,
     .largeAddressAware, .bytesReversedLow, .machine32Bit, .debugStripped,
     .removableRunFromSwap, .netRunFromSwap, .system, .dll, .upSystemOnly, .bytesReversedHigh]
  mask
    | .relocsStripped => 0x0001
    | .executableImage => 0x0002
    | .lineNumsStripped => 0x0004
    | .localSymsStripped => 0x0008
    | .aggressiveTrim => 0x0010
    | .largeAddressAware => 0x0020
    | .bytesReversedLow => 0x0080
    | .machine32Bit => 0x0100
    | .debugStripped => 0x0200
    | .removableRunFromSwap => 0x0400
    | .netRunFromSwap => 0x0800
    | .system => 0x1000
    | .dll => 0x2000
    | .upSystemOnly => 0x4000
    | .bytesReversedHigh => 0x8000
  name
    | .relocsStripped => "RELOCS_STRIPPED"
    | .executableImage => "EXECUTABLE_IMAGE"
    | .lineNumsStripped => "LINE_NUMS_STRIPPED"
    | .localSymsStripped => "LOCAL_SYMS_STRIPPED"
    | .aggressiveTrim => "AGGRESIVE_WS_TRIM"
    | .largeAddressAware => "LARGE_ADDRESS_AWARE"
    | .bytesReversedLow => "BYTES_REVERSED_LO"
    | .machine32Bit => "MACHINE_32BIT"
    | .debugStripped => "DEBUG_STRIPPED"
    | .removableRunFromSwap => "REMOVABLE_RUN_FROM_SWAP"
    | .netRunFromSwap => "NET_RUN_FROM_SWAP"
    | .system => "SYSTEM"
    | .dll => "DLL"
    | .upSystemOnly => "UP_SYSTEM_ONLY"
    | .bytesReversedHigh => "BYTES_REVERSED_HI"

/-- A characteristic of how an image wants to be loaded. -/
inductive DllFlag where
  /-- Can be placed anywhere in a 64-bit address space. -/
  | highEntropyVa
  /-- Can be relocated when loaded. -/
  | dynamicBase
  /-- Code integrity is enforced. -/
  | forceIntegrity
  /-- Runs without executable data. -/
  | nxCompat
  /-- Is not to be isolated. -/
  | noIsolation
  /-- Uses no structured exceptions. -/
  | noSeh
  /-- Is not to be bound. -/
  | noBind
  /-- Runs in an app container. -/
  | appContainer
  /-- A driver. -/
  | wdmDriver
  /-- Supports control flow guard. -/
  | guardCf
  /-- Knows of terminal servers. -/
  | terminalServerAware
  deriving DecidableEq, Repr

instance : BitFlag DllFlag where
  all :=
    [.highEntropyVa, .dynamicBase, .forceIntegrity, .nxCompat, .noIsolation, .noSeh, .noBind,
     .appContainer, .wdmDriver, .guardCf, .terminalServerAware]
  mask
    | .highEntropyVa => 0x0020
    | .dynamicBase => 0x0040
    | .forceIntegrity => 0x0080
    | .nxCompat => 0x0100
    | .noIsolation => 0x0200
    | .noSeh => 0x0400
    | .noBind => 0x0800
    | .appContainer => 0x1000
    | .wdmDriver => 0x2000
    | .guardCf => 0x4000
    | .terminalServerAware => 0x8000
  name
    | .highEntropyVa => "HIGH_ENTROPY_VA"
    | .dynamicBase => "DYNAMIC_BASE"
    | .forceIntegrity => "FORCE_INTEGRITY"
    | .nxCompat => "NX_COMPAT"
    | .noIsolation => "NO_ISOLATION"
    | .noSeh => "NO_SEH"
    | .noBind => "NO_BIND"
    | .appContainer => "APPCONTAINER"
    | .wdmDriver => "WDM_DRIVER"
    | .guardCf => "GUARD_CF"
    | .terminalServerAware => "TERMINAL_SERVER_AWARE"

/-- A characteristic of a section. -/
inductive SectionFlag where
  /-- Holds code. -/
  | code
  /-- Holds data from the file. -/
  | initializedData
  /-- Holds data that starts as zero. -/
  | uninitializedData
  /-- Holds comments. -/
  | linkInfo
  /-- Is not part of the image. -/
  | linkRemove
  /-- Holds common data. -/
  | linkComdat
  /-- Is addressed through the global pointer. -/
  | globalPointer
  /-- Holds more relocations than the header counts. -/
  | manyRelocations
  /-- Can be discarded. -/
  | discardable
  /-- Is not cached. -/
  | notCached
  /-- Is not paged out. -/
  | notPaged
  /-- Is shared between processes. -/
  | shared
  /-- Can be run. -/
  | execute
  /-- Can be read. -/
  | read
  /-- Can be written. -/
  | write
  deriving DecidableEq, Repr

instance : BitFlag SectionFlag where
  all :=
    [.code, .initializedData, .uninitializedData, .linkInfo, .linkRemove, .linkComdat,
     .globalPointer, .manyRelocations, .discardable, .notCached, .notPaged, .shared, .execute,
     .read, .write]
  mask
    | .code => 0x00000020
    | .initializedData => 0x00000040
    | .uninitializedData => 0x00000080
    | .linkInfo => 0x00000200
    | .linkRemove => 0x00000800
    | .linkComdat => 0x00001000
    | .globalPointer => 0x00008000
    | .manyRelocations => 0x01000000
    | .discardable => 0x02000000
    | .notCached => 0x04000000
    | .notPaged => 0x08000000
    | .shared => 0x10000000
    | .execute => 0x20000000
    | .read => 0x40000000
    | .write => 0x80000000
  name
    | .code => "CNT_CODE"
    | .initializedData => "CNT_INITIALIZED_DATA"
    | .uninitializedData => "CNT_UNINITIALIZED_DATA"
    | .linkInfo => "LNK_INFO"
    | .linkRemove => "LNK_REMOVE"
    | .linkComdat => "LNK_COMDAT"
    | .globalPointer => "GPREL"
    | .manyRelocations => "LNK_NRELOC_OVFL"
    | .discardable => "MEM_DISCARDABLE"
    | .notCached => "MEM_NOT_CACHED"
    | .notPaged => "MEM_NOT_PAGED"
    | .shared => "MEM_SHARED"
    | .execute => "MEM_EXECUTE"
    | .read => "MEM_READ"
    | .write => "MEM_WRITE"

namespace Machine

/-- 32-bit x86. -/
def i386 : UInt16 := 0x014C

/-- 32-bit ARM. -/
def armNt : UInt16 := 0x01C4

/-- Itanium. -/
def ia64 : UInt16 := 0x0200

/-- 64-bit x86. -/
def amd64 : UInt16 := 0x8664

/-- 64-bit ARM. -/
def arm64 : UInt16 := 0xAA64

end Machine

end PeImage
