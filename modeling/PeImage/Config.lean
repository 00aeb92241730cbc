/-
The version of Windows whose rules a load follows.

* `WindowsVersion`: the rule sets; `generic` is the lenient union that no released version uses.
* `Config`: a rule set with the two settings that vary within a version. Each question about the
  rules is a function of the configuration.
-/
import PeImage.Alignment

namespace PeImage

/-- A rule set. -/
inductive WindowsVersion where
  /-- Lenient rules, for looking at images that no version would load. -/
  | generic
  /-- Windows XP. -/
  | xp
  /-- Windows 7. -/
  | win7
  /-- Windows 10. -/
  | win10
  deriving DecidableEq, Repr, Inhabited

namespace WindowsVersion

/-- All rule sets, the generic one first and then by age. -/
def all : List WindowsVersion := [.generic, .xp, .win7, .win10]

/-- The name of the rule set. -/
def name : WindowsVersion → String
  | .generic => "Generic"
  | .xp => "Xp"
  | .win7 => "Win7"
  | .win10 => "Win10"

/-- The rule set of a name. -/
def ofName? (s : String) : Option WindowsVersion := all.find? fun v => v.name == s

end WindowsVersion

/-- The rules of a load. -/
structure Config where
  /-- The rule set. -/
  version : WindowsVersion
  /-- Whether the host runs 64-bit Windows. -/
  wideHost : Bool
  /-- Whether images for ARM machines load. -/
  armImages : Bool
  deriving DecidableEq, Repr

namespace Config

/-- The rules of a version on a 32-bit host. The generic rules and Windows 10 load ARM images. -/
def ofVersion (version : WindowsVersion) : Config where
  version := version
  wideHost := false
  armImages := version == .generic || version == .win10

instance : Inhabited Config := ⟨ofVersion .generic⟩

/-- The unit to which the size of a flat image is rounded. -/
def flatGranularity (c : Config) : UInt32 :=
  match c.version with
  | .generic => pageSize32
  | .xp => sectorSize32
  | .win7 | .win10 => 1

/-- The largest number of sections of an executable image. -/
def maxSections (c : Config) : Nat :=
  match c.version with
  | .generic => 255
  | .xp => 96
  | .win7 | .win10 => 192

/-- Whether the sections must use up the size of image. -/
def sizeOfImageMustMatch (c : Config) : Bool := c.version == .xp || c.version == .win7

/-- Whether the headers are mapped up to the section alignment when the section table leaves the
first page. -/
def extendsHeaderPage (c : Config) : Bool := c.version == .xp

/-- Whether complete PE32 headers must lie within the file. -/
def requiresWholeHeaders (c : Config) : Bool := c.version == .win7 || c.version == .win10

/-- Whether app container images must be relocatable. -/
def checksAppContainer (c : Config) : Bool := c.version == .win10

/-- Whether the raw data pointer of a section without raw data is cleared in the mapped header. -/
def clearsEmptyPointers (c : Config) : Bool := c.version != .generic

end Config

end PeImage
