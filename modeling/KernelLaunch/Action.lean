import KernelLaunch.Backend.Request
import KernelLaunch.Native.Event

/-!
Effectful actions over a state. An action may fail with a `Failure`, changes its state, and
logs notes: requests to backends and the native calls that they make. State changes and
notes made before a failure stay.
-/

namespace KernelLaunch

/-- An entry of the log. -/
inductive Note where
  | info (text : String)
  | error (text : String)
  | warning (text : String)
  /-- A backend is asked to compile. -/
  | compile (request : Backend.CompileRequest)
  /-- A backend is asked to launch. -/
  | run (request : Backend.RunRequest)
  /-- A native call is made. -/
  | native (event : Native.Event)

/-- A state and the notes that have been left, in order. -/
structure World (σ : Type) where
  state : σ
  notes : List Note := []

abbrev Action (σ : Type) := ExceptT Failure (StateM (World σ))

namespace Action

variable {σ α : Type}

def note (n : Note) : Action σ Unit := modify fun w => { w with notes := w.notes ++ [n] }

def state : Action σ σ := do return (← get).state

def update (f : σ → σ) : Action σ Unit := modify fun w => { w with state := f w.state }

/-- The outcome of an action, and the world after it. -/
def perform (action : Action σ α) (w : World σ) : Except Failure α × World σ := action.run.run w

end Action

end KernelLaunch
