import KernelLaunch.Host.Value

/-!
Native calls as they are logged. Contexts, command queues, programs and buffers are numbered
from zero, each kind on its own.
-/

namespace KernelLaunch.Native

open Host

/-- How a kernel may use a buffer. -/
inductive Access where
  | readWrite
  | readOnly
  deriving DecidableEq, Repr

/-- The flags of a buffer that starts as a copy of host memory. -/
def Access.flags : Access → Nat
  | readWrite => 33
  | readOnly => 36

/-- An argument of a native kernel. -/
inductive Argument where
  | buffer (number : Nat)
  | value (v : Value)

def Argument.buffer? : Argument → Option Nat
  | buffer number => some number
  | value _ => none

/-- A launch of a native kernel. -/
structure Call where
  program : Nat
  kernel : String
  queue : Nat
  globalSize : List Int
  localSize : List Int
  arguments : List Argument
  globalOffset : List Int

/-- A native call. -/
inductive Event where
  | context (number : Nat) (devices : List String)
  | queue (number : Nat) (context : Nat)
  | program (number : Nat) (context : Nat) (source : String)
  | build (program : Nat) (options : String)
  | buffer (number : Nat) (context : Nat) (access : Access) (content : Tensor)
  | call (c : Call)
  | copy (queue buffer : Nat)
  | finish (queue : Nat)

end KernelLaunch.Native
