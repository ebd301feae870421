import KernelLaunch.Device.Directory
import KernelLaunch.Kernel.Basic

/-!
Settings of kernels: launch geometry, device and build options. They are assigned one by
one, or several at once by `withChanges`, which makes a changed copy and leaves the kernel
as it is.
-/

namespace KernelLaunch.Kernel

open Host Device Directory

inductive OptionList where
  | macros
  | includes
  | compilerOptions
  deriving DecidableEq, Repr

inductive Setting where
  | size (f : Geometry.Field)
  | device
  | options (l : OptionList)
  deriving DecidableEq, Repr

def Setting.ofName? : String → Option Setting
  | "thread_block_size" => some (.size .block)
  | "grid_size" => some (.size .grid)
  | "global_size" => some (.size .global)
  | "global_offset" => some (.size .offset)
  | "device" => some .device
  | "macros" => some (.options .macros)
  | "includes" => some (.options .includes)
  | "compiler_options" => some (.options .compilerOptions)
  | _ => none

/-- What is assigned to a setting. -/
inductive Assigned where
  | value (v : Value)
  /-- A device itself, of any directory. -/
  | device (d : Device)

def optionsIn (k : Kernel) : OptionList → List Value
  | .macros => k.macros
  | .includes => k.includes
  | .compilerOptions => k.compilerOptions

def withOptions (k : Kernel) (l : OptionList) (options : List Value) : Kernel :=
  match l with
  | .macros => { k with macros := options }
  | .includes => { k with includes := options }
  | .compilerOptions => { k with compilerOptions := options }

/-- A kernel with one more option at the end of a list. -/
def append (k : Kernel) (l : OptionList) (option : Value) : Kernel :=
  k.withOptions l (k.optionsIn l ++ [option])

/-- The device that is assigned: itself, the one at an index, or none. -/
def assignedDevice (platforms : Platforms) : Assigned → Query (Option Device)
  | .device d => return some d
  | .value (.atom .absent) => return none
  | .value index => do return some (← available platforms index)

def set (platforms : Platforms) (k : Kernel) (s : Setting) (a : Assigned) : Query Kernel :=
  match s, a with
  | .size f, .value v => do return { k with geometry := ← k.geometry.set f v }
  | .device, a => do return { k with device := ← assignedDevice platforms a }
  | .options l, .value v => do return k.withOptions l (← v.asList)
  | _, .device _ => throw .wrongKind

/-- Assignments by name, each name once: where it first stands, with what is
assigned to it last. -/
def distinct (fields : List (String × Assigned)) : List (String × Assigned) :=
  let names := (fields.map (·.1)).eraseDups
  names.filterMap fun name => (fields.reverse.find? (·.1 == name))

/-- A copy of a kernel with settings assigned in order. -/
def withChanges (platforms : Platforms) (k : Kernel) (fields : List (String × Assigned)) :
    Query Kernel :=
  (distinct fields).foldlM
    (fun k (name, a) =>
      match Setting.ofName? name with
      | some s => k.set platforms s a
      | none => throw (.fixedField name)) k

end KernelLaunch.Kernel
