import KernelLaunch.Action
import KernelLaunch.Geometry.Dispatch
import KernelLaunch.Host.Sequence
import KernelLaunch.Signature.Override
import KernelLaunch.Source.Interface

/-!
Kernel objects: one kernel function of a source file with its launch geometry, device,
include paths, macros and compiler options. A kernel keeps a build record, the device index
and the option string of its last build, and is rebuilt when either has changed.
-/

namespace KernelLaunch

open Host Text

/-- The build record of a kernel, its build cache key. -/
structure BuildRecord where
  /-- The index of the device. -/
  index : Int
  /-- The option string, without options of that build alone. -/
  options : String
  deriving DecidableEq, Repr

/-- A kernel. Its lists of options may hold anything; that they are texts is
found out when they are put together. -/
structure Kernel where
  interface : Source.Interface
  parameters : List Signature.Parameter
  source : Place
  geometry : Geometry.Dispatch := .initial
  device : Option Device
  macros : List Value := []
  includes : List Value
  compilerOptions : List Value
  built : Option BuildRecord := none

namespace Kernel

/-- The options that a kernel starts with. -/
def defaultOptions : List Value :=
  [.text "-cl-mad-enable", .text "-cl-fp32-correctly-rounded-divide-sqrt"]

def name (k : Kernel) : String := k.interface.name

def declaration (k : Kernel) : String :=
  "kernel void " ++ k.name ++ "(" ++ String.ofList (collapse k.interface.signature.toList) ++ ")"

def argumentTypes (k : Kernel) : List String := k.parameters.map (·.text)

/-- The number of values that a call can give back. -/
def maxOutputs (k : Kernel) : Nat := (k.parameters.filter (!·.isInput)).length

def maxBlockThreads (k : Kernel) : Option Int := k.device.map (·.maxGroupSize)

def text (k : Kernel) : String :=
  "Kernel(" ++ quoted k.name ++ ", " ++ quoted k.source.path ++ ")"

def defineTypes (k : Kernel) (types names : Value) : Except Failure Kernel := do
  return { k with parameters := ← Signature.override k.parameters types names }

end Kernel

end KernelLaunch
