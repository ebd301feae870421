import KernelLaunch.Machine

/-!
Native operations: creating contexts, queues, programs and buffers, building a program,
calling a kernel and copying a buffer back. Each logs its event. An operation that the setup
lets fail answers with the reason; a buffer that cannot be created is not logged.
-/

namespace KernelLaunch.Native

open Host

/-- Changes the native objects of a machine. -/
def updateObjects (f : Objects → Objects) : Action Machine Unit :=
  Action.update fun m => { m with objects := f m.objects }

/-- Creates a context on one device, and tells its number. -/
def createContext (device : Device.Native) : Action Machine Nat := do
  let number := (← Action.state).objects.contexts
  updateObjects fun o => { o with contexts := number + 1 }
  Action.note (.native (.context number [device.name]))
  return number

/-- Creates a queue in a context, and tells its number. -/
def createQueue (context : Nat) : Action Machine Nat := do
  let number := (← Action.state).objects.queues
  updateObjects fun o => { o with queues := number + 1 }
  Action.note (.native (.queue number context))
  return number

/-- Creates a program from a source text and builds it. -/
def build (context : Nat) (source options : String) : Action Machine (Except String Program) := do
  let number := (← Action.state).objects.programs
  updateObjects fun o => { o with programs := number + 1 }
  Action.note (.native (.program number context source))
  Action.note (.native (.build number options))
  match (← Action.state).setup.buildError with
  | some why => return .error why
  | none => return .ok ⟨number, source, options⟩

/-- Creates a buffer with a copy of host memory, and tells its number. -/
def createBuffer (context : Nat) (access : Access) (content : Tensor) :
    Action Machine (Except String Nat) := do
  let number := (← Action.state).objects.buffers.length
  match (← Action.state).setup.bufferError number with
  | some why => return .error why
  | none =>
      updateObjects fun o => { o with buffers := o.buffers ++ [⟨access, content⟩] }
      Action.note (.native (.buffer number context access content))
      return .ok number

/-- The buffers after a kernel has run that was given some of them in the places of its
arguments. -/
def afterCall (effect : (place : Nat) → Tensor → Tensor) (given : List (Option Nat))
    (buffers : List Buffer) : List Buffer :=
  buffers.mapIdx fun number b =>
    if given.contains (some number) && b.access == .readWrite then
      { b with content := effect (given.idxOf (some number)) b.content }
    else b

/-- Launches a kernel of a program. -/
def call (p : Program) (c : Call) : Action Machine (Except String Unit) := do
  Action.note (.native (.call c))
  let setup := (← Action.state).setup
  match setup.runError with
  | some why => return .error why
  | none =>
      let given := c.arguments.map Argument.buffer?
      let effect := p.effect setup c.kernel
      updateObjects fun o => { o with buffers := afterCall effect given o.buffers }
      return .ok ()

/-- Reads the content of a buffer back; `missing` stands for that of a buffer
that does not exist. -/
def copy (queue buffer : Nat) (missing : Tensor) : Action Machine (Except String Tensor) := do
  Action.note (.native (.copy queue buffer))
  match (← Action.state).setup.copyError buffer with
  | some why => return .error why
  | none =>
      let content := ((← Action.state).objects.buffers[buffer]?).map (·.content)
      return .ok (content.getD missing)

/-- Waits until a queue has nothing left to do. -/
def finish (queue : Nat) : Action Machine Unit := Action.note (.native (.finish queue))

end KernelLaunch.Native
