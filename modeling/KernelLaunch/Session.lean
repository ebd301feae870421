import KernelLaunch.Backend.Loopback
import KernelLaunch.Backend.OpenCL
import KernelLaunch.Kernel.Call
import KernelLaunch.Kernel.Load
import KernelLaunch.Kernel.Settings

/-!
Sessions: a machine, a device directory, a platform source and kernels in named slots. A
session goes step by step and reports on each step. A step that fails leaves what it did
before, and the next step continues from there.
-/

namespace KernelLaunch

open Host Device

/-- The backends that a session can use. -/
inductive BackendKind where
  | loopback
  | openCL
  deriving DecidableEq, Repr

def BackendKind.backend : BackendKind → Backend Machine
  | loopback => Backend.loopback
  | openCL => Backend.openCL

/-- A kernel in a session. -/
structure Slot where
  kernel : Kernel
  /-- Whether the kernel has a loopback backend of its own. -/
  ownBackend : Bool

structure Session where
  machine : Machine := {}
  platforms : Platforms
  directory : Directory
  backend : BackendKind
  slots : List (String × Slot) := []

namespace Session

inductive SetupChange where
  | increments (b : Bool)
  | buildError (e : Option String)
  | runError (e : Option String)
  | bufferError (e : Option String)
  | copyError (e : Option String)
  | kernelNames (names : Option (List String))
  | truncate (count : Option Int)

def SetupChange.apply (s : Setup) : SetupChange → Setup
  | increments b => { s with increments := b }
  | buildError e => { s with buildError := e }
  | runError e => { s with runError := e }
  | bufferError e => { s with bufferError := fun _ => e }
  | copyError e => { s with copyError := fun _ => e }
  | kernelNames names => { s with kernelNames := names }
  | truncate count => { s with truncate := count }

/-- What is assigned to a setting: a value, or the device at a position of the
directory. -/
inductive Assignment where
  | value (v : Value)
  | deviceAt (position : Value)

/-- A step of a session. Steps on a kernel name its slot. -/
inductive Step where
  | platforms (ps : Platforms)
  | files (texts : List (String × Option String))
  | configure (changes : List SetupChange)
  | refresh
  | devices
  | iterate
  | count
  | item (position : Value)
  | current
  | select (index : Value)
  | countKind (kind : Value)
  | compile (device : Value) (path options : String)
  | run (device : Value) (name : String) (launch block : List Int) (args : List Value)
      (readOnly : List Bool)
  | kernel (slot source : String) (name : Option String) (given : Option Template.Given)
      (ownBackend : Bool)
  | details (slot : String)
  | set (slot : String) (setting : Kernel.Setting) (assigned : Assignment)
  | append (slot : String) (options : Kernel.OptionList) (value : Value)
  | defineTypes (slot : String) (types names : Value)
  | build (slot : String) (options : Value)
  | withChanges (slot target : String) (fields : List (String × Assignment))
  | call (slot : String) (args : List Value) (inPlace : Bool)

/-- What a step answers. -/
inductive Answer where
  | done
  | built
  | devices (ds : List Device)
  | texts (ts : List String)
  | number (n : Nat)
  | device (d : Option Device)
  | positions (ps : List Int)
  | kernel (k : Kernel)
  | details (k : Kernel)
  | name (s : String)
  | called (r : Kernel.CallResult)

/-- Why a step has no answer. -/
inductive StepFailure where
  /-- The slot that it names is empty. -/
  | noSuchSlot
  | failed (e : Failure)

/-- A session while a step runs, with the notes of the step. -/
structure Running where
  session : Session
  notes : List Note := []
  /-- Whether the step has used the own backend of a kernel. -/
  ownBackend : Bool := false

/-- A part of a step. -/
abbrev Run := ExceptT StepFailure (StateM Running)

/-- What a step leaves. -/
structure Report where
  outcome : Except StepFailure Answer
  /-- How often the step has asked for the platforms. -/
  enumerations : Nat
  notes : List Note
  /-- Whether requests went to the own backend of a kernel. -/
  ownBackend : Bool

def change (f : Session → Session) : Run Unit :=
  modify fun r => { r with session := f r.session }

/-- The outcome of something that may fail. -/
def attempt {α : Type} (r : Except Failure α) : Run α :=
  match r with
  | .ok a => return a
  | .error e => throw (.failed e)

def ask {α : Type} (query : Platforms → Directory.Query α) : Run α := do
  let s := (← get).session
  let (outcome, directory) := (query s.platforms).run.run s.directory
  change fun s => { s with directory }
  attempt outcome

/-- Takes over the machine and the notes from a world. -/
def settle (w : World Machine) : Run Unit :=
  modify fun r => { r with
    session := { r.session with machine := w.state }
    notes := r.notes ++ w.notes }

def act {α : Type} (action : Action Machine α) : Run α := do
  let (outcome, w) := action.perform ⟨(← get).session.machine, []⟩
  settle w
  attempt outcome

def slot (name : String) : Run Slot := do
  match (← get).session.slots.lookup name with
  | some s => return s
  | none => throw .noSuchSlot

/-- Empties a slot. -/
def clear (name : String) : Run Unit :=
  change fun s => { s with slots := s.slots.filter (·.1 != name) }

def put (name : String) (slot : Slot) : Run Unit :=
  change fun s => { s with slots := (name, slot) :: s.slots.filter (·.1 != name) }

def sharedBackend : Run (Backend Machine) := do return (← get).session.backend.backend

def backendOf (s : Slot) : Run (Backend Machine) := do
  if s.ownBackend then
    modify fun r => { r with ownBackend := true }
    return Backend.loopback
  else sharedBackend

def resolve : Assignment → Run Kernel.Assigned
  | .value v => return .value v
  | .deviceAt position => do return .device (← ask (Directory.item · position))

def perform : Step → Run Answer
  | .platforms ps => do change (fun s => { s with platforms := ps }); return .done
  | .files texts => do
      change fun s => { s with machine := { s.machine with
        files := texts.foldl (fun fs (path, text) => fs.write path text) s.machine.files } }
      return .done
  | .configure changes => do
      change fun s => { s with machine := { s.machine with
        setup := changes.foldl SetupChange.apply s.machine.setup } }
      return .done
  | .refresh => do ask Directory.refresh; return .done
  | .devices => return .devices (← ask Directory.devices)
  | .iterate => return .texts ((← ask Directory.devices).map (·.text))
  | .count => return .number (← ask Directory.devices).length
  | .item position => return .device (some (← ask (Directory.item · position)))
  | .current => return .device (← ask Directory.current)
  | .select index => return .device (← ask (Directory.select · index))
  | .countKind kind => return .positions (← ask (Directory.count · kind))
  | .compile device path options => do
      let device ← ask (Directory.item · device)
      let place := Place.named (Files.fullPath (Files.names path))
      return .texts (← act ((← sharedBackend).askCompile ⟨device, place, options⟩))
  | .run device name launch block args readOnly => do
      let device ← ask (Directory.item · device)
      let reply ← act ((← sharedBackend).askRun ⟨device, name, launch, block, args, readOnly⟩)
      return .called ⟨reply.results, reply.args⟩
  | .kernel name source wanted given ownBackend => do
      clear name
      let loaded ← act (LoadedSource.load source given)
      let make ← attempt (Kernel.ofSource loaded wanted)
      let kernel := make (← ask Directory.current)
      put name ⟨kernel, ownBackend⟩
      return .kernel kernel
  | .details name => return .details (← slot name).kernel
  | .set name setting assignment => do
      let s ← slot name
      let assigned ← resolve assignment
      let kernel ← ask fun platforms => s.kernel.set platforms setting assigned
      put name { s with kernel }
      return .done
  | .append name list value => do
      let s ← slot name
      put name { s with kernel := s.kernel.append list value }
      return .done
  | .defineTypes name types names => do
      let s ← slot name
      let kernel ← attempt (s.kernel.defineTypes types names)
      put name { s with kernel }
      return .texts kernel.argumentTypes
  | .build name options => do
      let s ← slot name
      let (kernel, _) ← act (s.kernel.build (← backendOf s) options)
      put name { s with kernel }
      return .built
  | .withChanges name target fields => do
      let s ← slot name
      let fields ← fields.mapM fun (field, a) => do return (field, ← resolve a)
      let kernel ← ask fun platforms => s.kernel.withChanges platforms fields
      put target { s with kernel }
      return .name kernel.name
  | .call name args inPlace => do
      let s ← slot name
      let b ← backendOf s
      let called := s.kernel.call b args inPlace ⟨(← get).session.machine, []⟩
      settle called.world
      put name { s with kernel := called.kernel }
      return .called (← attempt called.outcome)

/-- The session after a step, and the report of the step. -/
def step (s : Session) (step : Step) : Session × Report :=
  let (outcome, r) := (perform step).run.run { session := s }
  (r.session,
    { outcome
      enumerations := r.session.directory.enumerations - s.directory.enumerations
      notes := r.notes
      ownBackend := r.ownBackend })

/-- The kernel in a slot, if there is one. -/
def kernel? (s : Session) (slot : String) : Option Kernel := (s.slots.lookup slot).map (·.kernel)

end Session

end KernelLaunch
