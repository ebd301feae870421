import KernelLaunch.Action
import KernelLaunch.Source.Interface

/-!
The simulated machine: its files, its native objects (contexts, queues, programs and
buffers) and a setup. The setup says which native operations fail, which kernel names a
build reports, and what a kernel of a program writes into its buffers.
-/

namespace KernelLaunch

open Host

/-- What a kernel makes of the content of a buffer. A buffer keeps its type and its shape. -/
structure Effect where
  apply : Tensor → Tensor
  storage_eq : ∀ t, (apply t).storage = t.storage
  shape_eq : ∀ t, (apply t).shape = t.shape

/-- A kernel that leaves a buffer as it is. -/
def Effect.none : Effect := ⟨id, fun _ => rfl, fun _ => rfl⟩

/-- How a machine behaves. An error is the reason for which an operation fails. -/
structure Setup where
  /-- Whether a kernel adds one to each element that it may write. -/
  increments : Bool := false
  /-- What a kernel writes, for the source text and the options of its program, its name,
  and the place of the buffer among its arguments. -/
  work : (source options kernel : String) → (place : Nat) → Effect := fun _ _ _ _ => .none
  buildError : Option String := none
  runError : Option String := none
  /-- Why the buffer of a number cannot be created. -/
  bufferError : Nat → Option String := fun _ => none
  /-- Why the buffer of a number cannot be read back. -/
  copyError : Nat → Option String := fun _ => none
  /-- The kernels of every source, if they are not to be looked for. -/
  kernelNames : Option (List String) := none
  /-- How many results a launch without native objects gives; from the end, if
  negative. -/
  truncate : Option Int := none

/-- The names of the kernels in a source text. Directives are not removed, so a
kernel inside one is found. -/
def Setup.kernelsOf (s : Setup) (source : String) : List String :=
  s.kernelNames.getD
    ((Source.kernels (Source.stripComments source.toList)).map (·.name))

/-- A tensor after a kernel that may write it has run. -/
def Setup.effect (s : Setup) (t : Tensor) : Tensor := if s.increments then t.successor else t

namespace Native

/-- A program that has been built, with its number. -/
structure Program where
  number : Nat
  source : String
  options : String

/-- What a kernel of a program makes of its argument in a place. -/
def Program.effect (p : Program) (s : Setup) (kernel : String) (place : Nat) (t : Tensor) : Tensor :=
  s.effect ((s.work p.source p.options kernel place).apply t)

structure Buffer where
  access : Access
  content : Tensor

/-- The native objects created so far. -/
structure Objects where
  contexts : Nat := 0
  queues : Nat := 0
  programs : Nat := 0
  buffers : List Buffer := []

end Native

/-- The state of an OpenCL backend: context and queue by device index, and the program table
by device index and kernel name. -/
structure OpenCLState where
  queues : List (Int × Nat × Nat) := []
  programs : List ((Int × String) × Native.Program) := []

structure Machine where
  files : Files := {}
  setup : Setup := {}
  objects : Native.Objects := {}
  openCL : OpenCLState := {}

namespace Machine

/-- The text of a source file. -/
def read (place : Place) : Action Machine String := do
  match (← Action.state).files.read? place with
  | some text => return text
  | none => throw .missingFile

end Machine

end KernelLaunch
