import KernelLaunch.Backend.Basic
import KernelLaunch.Host.Collect
import KernelLaunch.Host.Memory
import KernelLaunch.Native.Operations

/-!
The OpenCL backend. It opens one context and one command queue for each device index, on
first use, and keeps compiled programs in a table by device index and kernel name. A launch
passes read-only arguments of one element by value and copies every other argument into a
buffer; after the launch it enqueues a copy back from each buffer that is not read only.

The copy back goes into the argument itself if that is a writable row-major array, into a
view of extent one if it is a writable array without dimensions, and into a fresh array
otherwise. So arguments that share memory share what was copied back last.
-/

namespace KernelLaunch.Backend

open Host

namespace OpenCL

/-- How the host side of a buffer, the contiguous array it is filled from and copied back
into, relates to the memory of its argument. -/
inductive Sharing where
  /-- It is the argument. -/
  | same
  /-- It is another array in the same memory. -/
  | view
  /-- It is a copy. -/
  | separate
  deriving DecidableEq, Repr

/-- The host side of a buffer: a contiguous array in row-major order with at least one
dimension. -/
structure HostSide where
  tensor : Tensor
  sharing : Sharing

/-- A tensor with one dimension at least. -/
def dimensioned (t : Tensor) : Tensor :=
  match t.shape with
  | [] => ⟨t.storage, t.grid.flat⟩
  | _ => t

/-- Makes an argument contiguous. The host side of a read-write buffer must be writable, so a
read-only array is copied. -/
def hostSide (arg : Value) (readOnly : Bool) : Except Failure HostSide :=
  match arg with
  | .array a =>
      let sharing : Sharing :=
        if !readOnly && a.readOnly then .separate
        else if a.tensor.shape.isEmpty then .view
        else if a.isRowMajor then .same
        else .separate
      .ok ⟨dimensioned a.tensor, sharing⟩
  | _ => do return ⟨dimensioned (← arg.collect), .separate⟩

/-- The single element of a value that holds one, with a storage type if it has
one. -/
def singleElement (arg : Value) : Except Failure Value := do
  let leaves ← arg.leaves
  match arg.kind with
  | .stored s =>
      let t ← arg.collectAs s
      match t.grid.cells with
      | e :: _ => return .atom (.element t.storage e)
      | [] => throw .badPosition
  | _ =>
      match leaves.cells with
      | leaf :: _ => return .atom leaf.atom
      | [] => throw .badPosition

/-- A staged argument: what is set as the native kernel argument, and the host side of its
buffer if it has one. -/
structure Staged where
  argument : Native.Argument
  host : Option HostSide

/-- The result of a native operation, or the failure of the launch. -/
def launching {α : Type} (operation : Action Machine (Except String α)) : Action Machine α := do
  match ← operation with
  | .ok a => return a
  | .error why => throw (.kernel (.execution why))

/-- Whether an argument is passed by value. -/
def byValue (arg : Value) (readOnly : Bool) : Except Failure Bool :=
  if readOnly then arg.isSingle else .ok false

/-- Stages an argument: by value if it is read only and has one element, else in a new buffer
with a copy of its host side. -/
def stage (context : Nat) (arg : Value) (readOnly : Bool) : Action Machine Staged := do
  if ← byValue arg readOnly then
    return ⟨.value (← singleElement arg), none⟩
  else
    let host ← hostSide arg readOnly
    let access : Native.Access := if readOnly then .readOnly else .readWrite
    let number ← launching (Native.createBuffer context access host.tensor)
    return ⟨.buffer number, some host⟩

/-- The content copied back from the buffer of an argument, and the host side it is copied
into. -/
structure ReadBack where
  host : HostSide
  content : Tensor

/-- Enqueues the copy back from the buffer of an argument, unless that is read only or passed
by value. -/
def fetch (queue : Nat) (readOnly : Bool) (staged : Staged) : Action Machine (Option ReadBack) := do
  match staged.host, staged.argument with
  | some host, .buffer number =>
      if readOnly then return none
      else return some ⟨host, ← launching (Native.copy queue number host.tensor)⟩
  | _, _ => return none

/-- The context and the command queue for a device index, created on first use. -/
def queueFor (device : Device) : Action Machine (Nat × Nat) := do
  match (← Action.state).openCL.queues.lookup device.index with
  | some opened => return opened
  | none =>
      let context ← Native.createContext device.native
      let queue ← Native.createQueue context
      Action.update fun m =>
        { m with openCL := { m.openCL with
            queues := (device.index, context, queue) :: m.openCL.queues } }
      return (context, queue)

/-- The message of a compile error: the numbered source and the options. -/
def buildReport (source options : String) : String :=
  "Failed to compile:\n" ++ Text.numbered source ++ "\nwith options: " ++ options

/-- The program table with a new program under each of its kernel names. It replaces earlier
programs with a kernel of the same name for the same device index. -/
def withProgram (index : Int) (names : List String) (program : Native.Program)
    (programs : List ((Int × String) × Native.Program)) :
    List ((Int × String) × Native.Program) :=
  names.foldl (fun all name => ((index, name), program) :: all) programs

/-- Compiles a source file. -/
def compile (request : CompileRequest) : Action Machine (List String) := do
  let source ← Machine.read request.source
  let (context, _) ← queueFor request.device
  match ← Native.build context source request.options with
  | .error why =>
      Action.note (.error (buildReport source request.options))
      throw (.kernel (.build why))
  | .ok program =>
      let names := (← Action.state).setup.kernelsOf source
      Action.update fun m =>
        { m with openCL := { m.openCL with
            programs := withProgram request.device.index names program m.openCL.programs } }
      return names

/-- The arguments of a launch, each with whether it is read only. -/
def flagged (request : RunRequest) : List (Value × Bool) := request.args.zip request.readOnly

/-- The native part of a launch: looks the program up, stages all arguments, calls the
kernel, waits for the queue, and copies buffers back. Returns what was copied back for
each argument. -/
def transfer (request : RunRequest) : Action Machine (List (Option ReadBack)) := do
  let device := request.device
  match (← Action.state).openCL.programs.lookup (device.index, request.name) with
  | none =>
      throw (.kernel (.execution ("Kernel " ++ request.name ++
        " has not been compiled for device " ++ device.text)))
  | some program =>
      let (context, queue) ← queueFor device
      let args := flagged request
      let staged ← args.mapM fun (arg, readOnly) => stage context arg readOnly
      launching (Native.call program
        { program := program.number, kernel := request.name, queue,
          globalSize := request.launch.drop 3, localSize := request.block,
          arguments := staged.map (·.argument), globalOffset := request.launch.take 3 })
      let fetched ← (args.zip staged).mapM fun ((_, readOnly), s) => fetch queue readOnly s
      Native.finish queue
      return fetched

/-- The result for an argument, by its identity. -/
inductive Answer where
  /-- The very argument. -/
  | argument (r : Reference)
  /-- A view of extent one on the memory of an argument without dimensions. -/
  | flat (v : View)
  /-- A new array. -/
  | copy (t : Tensor)

/-- The value of a result in the memory at hand, with whether it is the argument itself. -/
def Answer.result (m : Memory) : Answer → Result
  | argument r => ⟨r.value m, true⟩
  | flat v => ⟨.array (v.flat.array m), false⟩
  | copy t => ⟨.ofTensor t, false⟩

/-- Settles one argument: writes the content copied back into the memory of the argument, or
into a fresh array if its host side is a copy. -/
def settle (argument : Reference) (fetched : Option ReadBack) (m : Memory) : Answer × Memory :=
  match fetched with
  | none => (.argument argument, m)
  | some ⟨host, content⟩ =>
      match host.sharing, argument with
      | .same, .view v => (.argument (.view v), v.write content m)
      | .view, .view v => (.flat v, v.write content m)
      | _, _ => (.copy content, m)

/-- Settles all arguments in order, over one memory. -/
def settleAll : List Reference → List (Option ReadBack) → Memory → List Answer × Memory
  | argument :: arguments, first :: fetched, m =>
      let (answer, m) := settle argument first m
      let (answers, m) := settleAll arguments fetched m
      (answer :: answers, m)
  | _, _, m => ([], m)

/-- Launches a kernel with arguments that lie in host memory and may overlap there. Returns
the results and the memory after the launch. -/
def runIn (request : RunRequest) (placed : Placed request.args) :
    Action Machine (List Answer × Memory) := do
  return settleAll placed.references (← transfer request) placed.memory

/-- Launches a kernel with arguments in separate memory. Copying calls always do, since
casting makes a fresh array of every argument. -/
def run (request : RunRequest) : Action Machine Reply := do
  let placed := Placed.apart request.args
  let (answers, m) ← runIn request placed
  return ⟨answers.map (·.result m), placed.references.map (·.value m)⟩

end OpenCL

/-- The OpenCL backend. -/
def openCL : Backend Machine where
  compile := OpenCL.compile
  run := OpenCL.run

end KernelLaunch.Backend
