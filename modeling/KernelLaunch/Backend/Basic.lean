import KernelLaunch.Action

/-!
The backend interface: one action that compiles a source file for a device and one that
launches a kernel, over a state that the backend chooses.
-/

namespace KernelLaunch

/-- A native compiler and launcher with the state it works with. -/
structure Backend (σ : Type) where
  /-- Compiles a source file and tells the names of the kernels in it. -/
  compile : Backend.CompileRequest → Action σ (List String)
  /-- Launches a kernel and waits until it has finished. -/
  run : Backend.RunRequest → Action σ Backend.Reply

namespace Backend

variable {σ : Type}

/-- The backend that answers nothing. -/
def missing : Backend σ where
  compile _ := throw .notImplemented
  run _ := throw .notImplemented

/-- Asks a backend to compile, and makes a note of it. -/
def askCompile (b : Backend σ) (request : CompileRequest) : Action σ (List String) := do
  Action.note (.compile request)
  b.compile request

/-- Asks a backend to launch, and makes a note of it. -/
def askRun (b : Backend σ) (request : RunRequest) : Action σ Reply := do
  Action.note (.run request)
  b.run request

end Backend

end KernelLaunch
