import KernelLaunch.Backend.Basic
import KernelLaunch.Kernel.Basic

/-!
Building kernels. The build cache of a kernel holds one record, and the kernel counts as
built if the record has the index of its device and its option string. Extra options of a
single build are passed to the compiler and not recorded.
-/

namespace KernelLaunch.Kernel

open Host Text

variable {σ : Type}

/-- Texts with a space between each two. -/
def spaced (texts : List String) : String :=
  String.ofList (joinWith [' '] (texts.map String.toList))

/-- The option string: include folders as `-I`, macros as `-D`, and the compiler options. -/
def optionString (k : Kernel) : Except Failure String := do
  let includes ← textsOf k.includes
  let macros ← textsOf k.macros
  let others ← textsOf k.compilerOptions
  return spaced (includes.map ("-I" ++ ·) ++ macros.map ("-D" ++ ·) ++ others)

/-- Looks the build record up: the device of the kernel if the record has its index and the
current option string. The options are joined only if the index agrees. -/
def builtFor? (k : Kernel) : Except Failure (Option Device) :=
  match k.device, k.built with
  | some device, some record =>
      if device.index = record.index then do
        return if (← k.optionString) = record.options then some device else none
      else .ok none
  | _, _ => .ok none

def isBuilt (k : Kernel) : Except Failure Bool := k.builtFor?.map Option.isSome

/-- The options passed to the compiler: the option string followed by the extra options of
this build. -/
def buildOptions (options : String) (extra : Value) : Except Failure String := do
  let extra ← textsOf (← extra.asList)
  return String.ofList (trim (spaced (options :: extra)).toList)

def buildReport (k : Kernel) (device : Device) (options : String) : String :=
  "Built kernel " ++ k.name ++ " for " ++ device.text ++ " with options '" ++ options ++ "'"

/-- Builds a kernel for its device. Gives the kernel with a record of the build,
and the device. -/
def build (b : Backend σ) (k : Kernel) (extra : Value) : Action σ (Kernel × Device) := do
  match k.device with
  | none =>
      throw (.kernel (.noDevice
        ("Cannot build kernel '" ++ k.name ++ "': no device selected.")))
  | some device =>
      let options ← k.optionString
      let all ← buildOptions options extra
      let names ← b.askCompile ⟨device, k.source, all⟩
      if names.contains k.name then
        Action.note (.info (k.buildReport device all))
        return ({ k with built := some ⟨device.index, options⟩ }, device)
      else throw (.kernel (.missingFromBuild k.name names))

/-- The log message of a call on a kernel that is not built. -/
def unbuiltReport (k : Kernel) : String :=
  "Kernel " ++ k.name ++ " is not built for the current settings, building"

/-- Makes a kernel ready for a launch: rebuilds it unless its build record is current. -/
def ready (b : Backend σ) (k : Kernel) : Action σ (Kernel × Device) := do
  match ← k.builtFor? with
  | some device => return (k, device)
  | none =>
      Action.note (.info k.unbuiltReport)
      k.build b .absent

end KernelLaunch.Kernel
