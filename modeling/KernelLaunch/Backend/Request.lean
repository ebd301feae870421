import KernelLaunch.Device.Basic
import KernelLaunch.Files
import KernelLaunch.Host.Value

/-!
Requests to a backend and its replies: source files to compile for a device, and kernels to
launch with a global size, a block size and arguments.
-/

namespace KernelLaunch.Backend

open Host

/-- A source file to compile for a device. -/
structure CompileRequest where
  device : Device
  source : Place
  options : String

/-- A kernel to launch on a device. -/
structure RunRequest where
  device : Device
  name : String
  /-- The global offset followed by the global size. -/
  launch : List Int
  /-- The size of a block. -/
  block : List Int
  args : List Value
  /-- Which arguments the kernel only reads. -/
  readOnly : List Bool

/-- The value that a launch returns for an argument. -/
structure Result where
  value : Value
  /-- Whether it is the very argument and not a new value. -/
  isArgument : Bool

/-- The reply to a launch. -/
structure Reply where
  results : List Result
  /-- The arguments as they are after the launch. -/
  args : List Value

end KernelLaunch.Backend
