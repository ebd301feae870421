import KernelLaunch.Device.Kind
import KernelLaunch.Geometry.Triple
import KernelLaunch.Text.Blank

/-!
Native devices, platforms and device parameters. A native device reports its own properties;
a listed device adds its index and its platform name, and corrects the work group sizes that
one platform overstates.
-/

namespace KernelLaunch

open Text

namespace Device

/-- A device as its driver describes it. -/
structure Native where
  name : String
  vendor : String
  /-- The bits of its kinds. -/
  kindBits : Int
  maxGroupSize : Int
  maxItemSizes : List Int
  localMemory : Int
  globalMemory : Int
  computeUnits : Int
  clockFrequency : Int
  available : Bool
  version : String
  driverVersion : String
  languageVersion : String
  /-- The names of its extensions with blanks between them. -/
  extensionList : String
  deriving DecidableEq

structure Platform where
  name : String
  devices : List Native
  deriving DecidableEq

/-- What a platform source answers when it is called: its platforms, or the failure that it
raises instead. -/
abbrev Platforms := Except Failure (List Platform)

/-- Platforms stand for a source that lists them. -/
instance : Coe (List Platform) Platforms := ⟨.ok⟩

end Device

/-- A native device on a platform, with its position among the listed ones. -/
structure Device where
  index : Int
  platform : String
  native : Device.Native
  deriving DecidableEq

namespace Device

def name (d : Device) : String := d.native.name

def kinds (d : Device) : List Kind := Kind.ofBits d.native.kindBits

/-- Whether a device reports larger work group sizes than it can run, as processors on one
platform do. -/
def overstates (d : Device) : Bool := d.platform == "Apple" && d.kinds.contains .cpu

/-- The most threads that a block can have. -/
def maxGroupSize (d : Device) : Int := if d.overstates then 1 else d.native.maxGroupSize

/-- The most threads that a block can have in each dimension. Dimensions that
the device does not mention have one; a fourth one and more are left out. -/
def maxItemSizes (d : Device) : Geometry.Triple Int :=
  if d.overstates then .same 1 else .ofList 1 d.native.maxItemSizes

def extensions (d : Device) : List String :=
  (words d.native.extensionList.toList).map String.ofList

def supports (d : Device) (extension : String) : Bool := d.extensions.contains extension

def supportsDouble (d : Device) : Bool := d.supports "cl_khr_fp64"

def supportsHalf (d : Device) : Bool := d.supports "cl_khr_fp16"

def text (d : Device) : String :=
  "DeviceParameters(" ++ toString d.index ++ ", " ++ quoted d.name ++ ")"

end Device

end KernelLaunch
